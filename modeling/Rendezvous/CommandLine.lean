import Rendezvous.Settings.Coordinator
import Rendezvous.Settings.Peer

/-!
# Rendezvous.CommandLine

**The two programs' command lines.** Asking for help anywhere wins over everything
else; otherwise the settings are read, and what is wrong with them is reported.
-/

namespace Rendezvous

/-- The two programs. -/
inductive Program where
  | coordinator
  | peer
deriving DecidableEq, Repr

/-- How to use a program. -/
def Program.usage : Program → String
  | coordinator => "Usage: tent-coordinator [options]

  --config <path>            JSON config file (fields as the flags below)
  --bind <ip>                Interface to bind (default 0.0.0.0)
  --control-port <port>      TCP control port (default 8080)
  --stun-port <port>         UDP STUN port (default 8081)
  --idle-timeout-secs <n>    Drop silent peers after n seconds (default off)
  --poll-timeout-ms <n>      Maximum poll wait (default 1000)"
  | peer => "Usage: tent-peer [options]

  --config <path>            JSON config file (fields as the flags below)
  --server <ip>              Coordinator address (default 127.0.0.1)
  --control-port <port>      Coordinator TCP control port (default 8080)
  --stun-port <port>         Coordinator UDP STUN port (default 8081)
  --stun-retry-ms <n>        STUN request retry interval (default 200)
  --keepalive-ms <n>         Keep-alive interval (default 5000)
  --poll-timeout-ms <n>      Maximum poll wait (default 1000)"

/-- What a command line asks for. -/
inductive Request where
  | help
  | runCoordinator (config : CoordinatorConfig)
  | runPeer (config : PeerConfig)
deriving DecidableEq, Repr

/-- Does a command line ask for help? -/
def asksForHelp (args : List String) : Bool :=
  args.any fun arg => arg = "--help" || arg = "-h"

/-- Reads a command line, given the files that there are. -/
def Request.ofArgs (program : Program) (files : Files) (args : List String) :
    Except SettingsError Request :=
  if asksForHelp args then .ok .help
  else
    match program with
    | .coordinator => (CoordinatorConfig.ofArgs files args).map .runCoordinator
    | .peer => (PeerConfig.ofArgs files args).map .runPeer

/-- How a program ended that did not start its loop. -/
structure Exit where
  code : Nat
  stdout : String
  stderr : String
deriving DecidableEq, Repr

/-- The end of a program, unless its loop is to be started. -/
def Exit.ofRequest (program : Program) : Except SettingsError Request → Option Exit
  | .ok .help => some ⟨0, program.usage ++ "\n", ""⟩
  | .ok _ => none
  | .error e => some ⟨1, "", s!"Error: {e.detail}\n"⟩

end Rendezvous
