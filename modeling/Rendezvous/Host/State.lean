import Rendezvous.Host.Script
import Rendezvous.Logging

/-!
# Rendezvous.Host.State

**The system as a value.** A `Host` holds the clock, the outcomes in store and
two records of the past: the trace of calls and the log. Every operation takes
what it needs from the queues, records the call and answers.

`Supply` is what is put in store before an iteration, and `Turn` adds what the
iteration's poll reports.
-/

namespace Rendezvous

/-- What opening the poller and the sockets meets with. -/
structure Openings where
  poller : Option IoKind
  tcp : Option IoKind
  udp : Option IoKind
deriving DecidableEq, Repr

/-- The system: its clock, what it has in store, and what has happened. -/
structure Host where
  clock : Instant
  openings : Openings
  /-- The queues of every stream, by the stream's index. -/
  streams : List StreamScript
  arrivals : List Arrival
  incoming : List Incoming
  sends : List Acceptance
  /-- Results of registering, reregistering and deregistering. -/
  registrations : List (Option IoKind)
  /-- Results of asking an outgoing stream for its far address. -/
  farAddrs : List (Option IoKind)
  /-- Results of asking an outgoing stream for its pending error. -/
  pendingErrors : List (Option IoKind)
  calls : List Call
  log : Log

/-- Something reported by a poll. -/
structure Event where
  token : Nat
  flags : EventFlags
deriving DecidableEq, Repr

/-- A connection to be accepted, with its queues, or a failing accept. -/
inductive NewArrival where
  | connection (addr : SocketAddr) (script : StreamScript)
  | fail (kind : IoKind)

/-- What is put in store before an iteration. -/
structure Supply where
  arrivals : List NewArrival
  streams : List (StreamId × StreamScript)
  incoming : List Incoming
  sends : List Acceptance
  registrations : List (Option IoKind)
  farAddrs : List (Option IoKind)
  pendingErrors : List (Option IoKind)

/-- One iteration's share of the world: what is put in store before it, what its
poll does, and how long the work after the poll takes. -/
structure Turn where
  supply : Supply
  /-- How far the clock moves during the poll. -/
  advance : Duration
  events : List Event
  /-- The poll fails instead of reporting the events. -/
  pollFailure : Option IoKind
  /-- How far the clock moves during the work after the poll. -/
  lag : Duration := .zero

namespace Host

/-- A system with nothing in store, at the origin of its clock. -/
def idle : Host :=
  { clock := .origin, openings := ⟨none, none, none⟩, streams := [], arrivals := []
    incoming := [], sends := [], registrations := [], farAddrs := [], pendingErrors := []
    calls := [], log := [] }

/-! ### Records -/

/-- Adds a call to the trace. -/
def record (host : Host) (call : Call) : Host :=
  { host with calls := host.calls ++ [call] }

/-- Adds records to the log. -/
def write (host : Host) (entries : Log) : Host :=
  { host with log := host.log ++ entries }

/-- Adds one record to the log. -/
def note (host : Host) (level : Level) (text : String) : Host :=
  { host with log := host.log ++ [⟨level, text⟩] }

/-- Lets some time pass. -/
def elapse (host : Host) (lag : Duration) : Host :=
  { host with clock := host.clock.after lag }

/-! ### Supplies -/

/-- The queues of a stream; a stream never heard of has nothing in store. -/
def script (host : Host) (id : StreamId) : StreamScript :=
  host.streams[id.index]?.getD .idle

/-- Replaces the queues of a stream. -/
def setScript (host : Host) (id : StreamId) (script : StreamScript) : Host :=
  { host with streams := host.streams.set id.index script }

/-- Puts a connection in store, under the next stream number. -/
def supplyArrival (host : Host) : NewArrival → Host
  | .fail kind => { host with arrivals := host.arrivals ++ [.fail kind] }
  | .connection addr script =>
    { host with
      arrivals := host.arrivals ++ [.connection ⟨host.streams.length⟩ addr]
      streams := host.streams ++ [script] }

/-- Puts more in store for a stream. -/
def supplyStream (host : Host) (entry : StreamId × StreamScript) : Host :=
  host.setScript entry.1 ((host.script entry.1).append entry.2)

/-- Puts a supply in store. Results of registering replace those left over. -/
def supply (host : Host) (supply : Supply) : Host :=
  let host := supply.arrivals.foldl supplyArrival host
  let host := supply.streams.foldl supplyStream host
  { host with
    incoming := host.incoming ++ supply.incoming
    sends := host.sends ++ supply.sends
    registrations := supply.registrations
    farAddrs := host.farAddrs ++ supply.farAddrs
    pendingErrors := host.pendingErrors ++ supply.pendingErrors }

/-! ### Opening sockets -/

/-- Opens a listener. -/
def bindTcp (host : Host) (addr : SocketAddr) : Option IoKind × Host :=
  (host.openings.tcp, host.record (.bindTcp addr))

/-- Opens a packet socket. -/
def bindUdp (host : Host) (addr : SocketAddr) : Option IoKind × Host :=
  (host.openings.udp, host.record (.bindUdp addr))

/-- Starts to connect a new stream. -/
def dial (host : Host) (addr : SocketAddr) : Except IoKind StreamId × Host :=
  let host := host.record (.dial addr)
  match host.openings.tcp with
  | some kind => (.error kind, host)
  | none => (.ok ⟨host.streams.length⟩, { host with streams := host.streams ++ [.idle] })

/-! ### Streams -/

/-- Reads at most `room` bytes from a stream. -/
def read (host : Host) (id : StreamId) (room : Nat) : Except IoKind Bytes × Host :=
  let script := host.script id
  let (result, reads) := readScript room script.reads
  (result, (host.setScript id { script with reads := reads }).record (.read id room result))

/-- Offers bytes to a stream. -/
def offer (host : Host) (id : StreamId) (bytes : Bytes) : Except IoKind Nat × Host :=
  let script := host.script id
  let (result, writes) := writeScript bytes.length script.writes
  (result, (host.setScript id { script with writes := writes }).record (.write id bytes result))

/-- Drops a stream. -/
def close (host : Host) (id : StreamId) : Host :=
  host.record (.close id)

/-- Takes the next connection off the listener. -/
def accept (host : Host) : Except IoKind (StreamId × SocketAddr) × Host :=
  let (result, arrivals) := acceptScript host.arrivals
  (result, { host with arrivals := arrivals }.record (.accept (result.map Prod.fst)))

/-! ### Datagrams -/

/-- Receives a datagram of at most `room` bytes. -/
def recv (host : Host) (room : Nat) : Except IoKind (SocketAddr × Bytes) × Host :=
  let (result, incoming) := recvScript room host.incoming
  (result, { host with incoming := incoming }.record (.recv room result))

/-- Sends a datagram. -/
def send (host : Host) (target : SocketAddr) (bytes : Bytes) : Except IoKind Nat × Host :=
  let (result, sends) := writeScript bytes.length host.sends
  (result, { host with sends := sends }.record (.send target bytes result))

/-! ### The poller -/

/-- Has the poller watch a source under a token. -/
def register (host : Host) (source : Source) (token : Nat) (interest : Interest) :
    Option IoKind × Host :=
  let (failure, rest) := unitScript host.registrations
  (failure, { host with registrations := rest }.record (.register source token interest failure))

/-- Changes what the poller watches a source for. -/
def reregister (host : Host) (source : Source) (token : Nat) (interest : Interest) :
    Option IoKind × Host :=
  let (failure, rest) := unitScript host.registrations
  (failure, { host with registrations := rest }.record (.reregister source token interest failure))

/-- Has the poller forget a source. -/
def deregister (host : Host) (source : Source) : Option IoKind × Host :=
  let (failure, rest) := unitScript host.registrations
  (failure, { host with registrations := rest }.record (.deregister source failure))

/-- Waits for events: the clock moves, and the poll reports or fails. -/
def poll (host : Host) (timeout : Duration) (turn : Turn) : Except IoKind (List Event) × Host :=
  let host := host.record (.poll timeout)
  let host := { host with clock := host.clock.after turn.advance }
  match turn.pollFailure with
  | some kind => (.error kind, host)
  | none => (.ok turn.events, host)

/-! ### Outgoing streams -/

/-- The pending error of an outgoing stream. -/
def takeError (host : Host) : Option IoKind × Host :=
  let (error, rest) := unitScript host.pendingErrors
  (error, { host with pendingErrors := rest })

/-- Asks an outgoing stream whether it has a far address, that is, whether it is
connected. -/
def farAddr (host : Host) : Option IoKind × Host :=
  let (failure, rest) := unitScript host.farAddrs
  (failure, { host with farAddrs := rest })

end Host

end Rendezvous
