import Rendezvous.CommandLine
import Rendezvous.Net.AddressText

/-!
# Rendezvous.Main

**The command line.** The first argument names the program, `coordinator` or `peer`;
the others are its own. Everything up to the start of the event loop happens here.
The loops themselves run over a system given as a value, so a valid command line
ends in a note of what would be started.
-/

namespace Rendezvous

/-- The program of a name. -/
def Program.ofName : String → Option Program
  | "coordinator" => some .coordinator
  | "peer" => some .peer
  | _ => none

/-- The note of what a request would start. -/
def Request.announcement : Request → String
  | .help => ""
  | .runCoordinator config =>
    s!"TENT Coordinator: control {config.controlAddr}, STUN {config.stunAddr}"
  | .runPeer config => s!"TENT Peer: control {config.controlAddr}, STUN {config.stunAddr}"

/-- The files that a command line names. -/
def filesOf (args : List String) : IO Files := do
  match argAfter args fileFlag with
  | none => return fun _ => none
  | some path =>
    try
      let contents ← IO.FS.readBinFile path
      return fun name => if name = path then some contents.toList else none
    catch _ => return fun _ => none

/-- Runs a program up to the start of its loop. -/
def runProgram (program : Program) (args : List String) : IO UInt32 := do
  let request := Request.ofArgs program (← filesOf args) args
  match Exit.ofRequest program request with
  | some exit =>
    IO.print exit.stdout
    IO.eprint exit.stderr
    return UInt32.ofNat exit.code
  | none =>
    IO.eprintln (request.toOption.elim "" Request.announcement)
    return 0

end Rendezvous

/-- Runs the program that the first argument names. -/
def main (args : List String) : IO UInt32 := do
  match args with
  | name :: rest =>
    match Rendezvous.Program.ofName name with
    | some program => Rendezvous.runProgram program rest
    | none =>
      IO.eprintln "The first argument is coordinator or peer."
      return 2
  | [] =>
    IO.eprintln "The first argument is coordinator or peer."
    return 2
