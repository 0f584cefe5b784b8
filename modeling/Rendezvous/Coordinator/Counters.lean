import Rendezvous.Timing.Timer

/-!
# Rendezvous.Coordinator.Counters

**Counters of the coordinator**, and their rendering in the text exposition
format: two comment lines and a value line for each series. Counters are 64-bit
words that wrap around.
-/

namespace Rendezvous

/-- What the coordinator counts. -/
structure Counters where
  /-- Connections attached now. -/
  activePeers : UInt64
  accepted : UInt64
  announces : UInt64
  peerListsSent : UInt64
  stunResponses : UInt64
  keepAlives : UInt64
  disconnects : UInt64
  /-- Bytes dropped to find the start of a frame. -/
  framingResyncs : UInt64
  startTime : Instant
deriving DecidableEq, Repr

/-- How a series behaves: a gauge goes up and down, a counter only up. -/
inductive SeriesKind where
  | gauge
  | counter
deriving DecidableEq, Repr

/-- The name of a kind of series. -/
def SeriesKind.text : SeriesKind → String
  | gauge => "gauge"
  | counter => "counter"

/-- One exported series. -/
structure Series where
  name : String
  kind : SeriesKind
  help : String
  value : Nat

/-- The three lines of a series. -/
def Series.render (series : Series) : String :=
  s!"# HELP {series.name} {series.help}\n# TYPE {series.name} {series.kind.text}\n" ++
    s!"{series.name} {series.value}\n"

namespace Counters

/-- Counters at zero, from a given time on. -/
def startingAt (now : Instant) : Counters :=
  ⟨0, 0, 0, 0, 0, 0, 0, 0, now⟩

/-- The counters in the order in which they are exported. -/
def toList (m : Counters) : List UInt64 :=
  [m.activePeers, m.accepted, m.announces, m.peerListsSent, m.stunResponses, m.keepAlives,
    m.disconnects, m.framingResyncs]

/-- Every exported series. -/
def series (m : Counters) (now : Instant) : List Series :=
  [⟨"tent_active_peers", .gauge, "Attached control connections", m.activePeers.toNat⟩,
   ⟨"tent_accepted_total", .counter, "Control connections accepted", m.accepted.toNat⟩,
   ⟨"tent_announces_total", .counter, "Connect announces handled", m.announces.toNat⟩,
   ⟨"tent_peer_lists_sent_total", .counter, "PeersToConnect messages written",
    m.peerListsSent.toNat⟩,
   ⟨"tent_stun_responses_total", .counter, "STUN responses sent", m.stunResponses.toNat⟩,
   ⟨"tent_keepalives_total", .counter, "Keep-alives received", m.keepAlives.toNat⟩,
   ⟨"tent_disconnects_total", .counter, "Control connections dropped", m.disconnects.toNat⟩,
   ⟨"tent_framing_resyncs_total", .counter, "Bytes skipped to find a frame header",
    m.framingResyncs.toNat⟩,
   ⟨"tent_uptime_seconds", .gauge, "Coordinator uptime in seconds",
    (now.since m.startTime).wholeSecs⟩]

/-- The counters as text. -/
def render (m : Counters) (now : Instant) : String :=
  String.join ((m.series now).map Series.render)

end Counters

end Rendezvous
