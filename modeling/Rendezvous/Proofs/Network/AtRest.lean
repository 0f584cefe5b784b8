import Rendezvous.Proofs.Coordinator.AtRest
import Rendezvous.Proofs.Coordinator.WakeUp
import Rendezvous.Proofs.Peer.AtRest

/-!
# Rendezvous.Proofs.Network.AtRest

**The loops do not spin.** A loop polls without waiting while a latch has work. If in an
iteration every operation would block, no latch is left, and unless the clock moves on the next
poll waits, whatever is still queued: `waits_after_fruitless_iteration`.
-/

namespace Rendezvous

/-- Let a poll come back, with events or without, and let every accept, read, write, receive
and send that the loop then attempts say that it would block. Unless the poller refuses to
watch its sources, a coordinator goes on with no latch set, and has to wait at its next poll.
So has a client, unless its connect has failed: to be still unfinished is no failure. -/
theorem waits_after_fruitless_iteration :
    (∀ {config : CoordinatorConfig} {c : Coordinator} {turn : Turn},
      Coordinator.Reachable config c → turn.pollFailure = none →
      (c.watched turn).failure = none →
      Added Call.fruitless c.host (c.iterate turn).state.host →
        (c.iterate turn).failure = none ∧
          (c.iterate turn).state.listenerLatch = false ∧
          (c.iterate turn).state.packetLatch = .clear ∧
          (∀ {handle member}, (c.iterate turn).state.roster.get? handle = some member →
            member.latch = .clear) ∧
          (0 < config.pollTimeout.nanos → ∀ next,
            let polling := ((c.iterate turn).state.watched next).state
            0 < (polling.waitTime polling.host.clock).nanos)) ∧
    ∀ {config : PeerConfig} {c : Client} {turn : Turn},
      Client.Reachable config c → turn.pollFailure = none →
      (c.watched turn).failure = none →
      (∀ {ready}, (c.watched turn).state.latched turn = some ready →
        ready.ensureConnected.failure = none) →
      Added Call.fruitless c.host (c.iterate turn).state.host →
        (c.iterate turn).failure = none ∧
          (c.iterate turn).state.controlLatch = .clear ∧
          (c.iterate turn).state.packetLatch = .clear ∧
          (0 < config.pace.retry.nanos → 0 < config.pace.refresh.nanos →
            0 < config.pollTimeout.nanos → ∀ next,
              let polling := ((c.iterate turn).state.watched next).state
              0 < (polling.waitTime polling.host.clock).nanos) := by
  refine ⟨fun hreachable hturn hwatched hfruitless => ?_,
    fun hreachable hturn hwatched hchecked hfruitless => ?_⟩
  · obtain ⟨hgoing, hrest⟩ :=
      Coordinator.atRest_iterate hreachable.consistent hturn hwatched hfruitless
    have hafter := hreachable.iterate _ hgoing
    refine ⟨hgoing, hrest.listener, hrest.packets, fun hget => (hrest.members hget).1,
      fun hpoll next => ?_⟩
    have hsame := Coordinator.Unstirred.watched hafter.consistent next
    refine (hrest.unstirred hsame).waitTime_pos (hafter.consistent.calm
      (Coordinator.calm_watched _ next)).roster ?_
    rwa [hsame.config, hafter.config_eq]
  · obtain ⟨hconfig, hregular⟩ := hreachable.regular
    obtain ⟨hgoing, hrest⟩ := Client.atRest_iterate hregular hturn hwatched hchecked hfruitless
    obtain ⟨hkept, hafter⟩ := (hreachable.iterate _ hgoing).regular
    exact ⟨hgoing, hrest.control, hrest.packets, fun hretry hrefresh hpoll next =>
      hrest.waitTime_pos hafter hretry hrefresh (hkept ▸ hpoll) next⟩

/-- A peer announces itself twice and asks for its address. Nothing can be sent yet. -/
def callTurn : Turn :=
  { Coordinator.Observed.quietTurn with
    supply := ⟨[], [(⟨0⟩, ⟨[.data (Coordinator.Observed.announcementFrame ++
        Coordinator.Observed.announcementFrame)], []⟩)],
      [.datagram (.v4 ⟨.ofOctets 192 0 2 9, 5000⟩) Message.stunRequest.frame], [], [], [], []⟩
    events := [⟨firstMemberToken, ⟨true, false, false, false, false⟩⟩,
      ⟨tokenOfPackets, ⟨true, false, false, false, false⟩⟩] }

/-- It asks again. There is room for one list and one answer, and another peer connects. -/
def roomTurn : Turn :=
  { callTurn with
    supply := { callTurn.supply with arrivals := Coordinator.Observed.arrivalTurn.supply.arrivals }
    events := [⟨tokenOfListener, ⟨true, false, false, false, false⟩⟩,
      ⟨firstMemberToken, ⟨false, true, false, false, false⟩⟩,
      ⟨tokenOfPackets, ⟨false, true, false, false, false⟩⟩] }

/-- Nothing comes, and there is room for nothing. -/
def fruitlessTurn : Turn :=
  { Coordinator.Observed.quietTurn with
    supply := ⟨[], [(⟨0⟩, ⟨[], [.fail .wouldBlock]⟩)], [], [.fail .wouldBlock], [], [], []⟩ }

/-- Nothing comes but word that a client's sockets can be read and written, and its connection
is not connected yet. -/
def prematureTurn : Turn :=
  { fruitlessTurn with
    supply := { fruitlessTurn.supply with farAddrs := [some .notConnected] }
    events := [⟨tokenOfControl, ⟨true, true, false, false, false⟩⟩,
      ⟨tokenOfClientPackets, ⟨true, true, false, false, false⟩⟩] }

/-- A coordinator whose latches are all set, and a client that is connecting, get nothing done:
lists, answers and questions stay queued, and both wait. -/
theorem waits_while_queued :
    (∃ c : Coordinator, Coordinator.Reachable .default c ∧
      c.listenerLatch = true ∧ c.packetLatch = ⟨true, true⟩ ∧
      (c.roster.get? ⟨0⟩).map Member.latch = some ⟨true, true⟩ ∧
      Added Call.fruitless c.host (c.iterate fruitlessTurn).state.host ∧
      (c.iterate fruitlessTurn).state.listenerLatch = false ∧
      (c.iterate fruitlessTurn).state.outbox.length = 1 ∧
      ((c.iterate fruitlessTurn).state.roster.get? ⟨0⟩).any
        (fun member => member.stream.hasInFlight && !member.queue.isEmpty) = true ∧
      let polling := ((c.iterate fruitlessTurn).state.watched fruitlessTurn).state
      0 < (polling.waitTime polling.host.clock).nanos) ∧
    ∃ c : Client, Client.Reachable Client.Observed.hastyConfig c ∧
      Added Call.fruitless c.host (c.iterate prematureTurn).state.host ∧
      (c.iterate prematureTurn).state.connected = false ∧
      (c.iterate prematureTurn).state.controlLatch = .clear ∧
      (c.iterate prematureTurn).state.session.packetQueue.length = 1 ∧
      let polling := ((c.iterate prematureTurn).state.watched fruitlessTurn).state
      0 < (polling.waitTime polling.host.clock).nanos := by
  constructor
  · have hstart := @Coordinator.Reachable.start .default .idle _ rfl
    have hconnected := hstart.iterate Coordinator.Observed.arrivalTurn (by decide +kernel)
    have hcalled := hconnected.iterate callTurn (by decide +kernel)
    have hrun := hcalled.iterate roomTurn (by decide +kernel)
    have hpolled : fruitlessTurn.pollFailure = none := rfl
    have hrest := waits_after_fruitless_iteration.1 hrun hpolled (by decide +kernel)
      (.of_extends (Coordinator.calls_iterate _ _) (by decide +kernel))
    refine ⟨_, hrun, by decide +kernel, by decide +kernel, by decide +kernel, ?_⟩
    exact ⟨.of_extends (Coordinator.calls_iterate _ _) (by decide +kernel), hrest.2.1,
      by decide +kernel, by decide +kernel, hrest.2.2.2.2 (by decide) fruitlessTurn⟩
  · have hstart := @Client.Reachable.start Client.Observed.hastyConfig Client.Observed.hastyEnds
      .idle _ rfl
    have hpolled : prematureTurn.pollFailure = none := rfl
    have hrest := waits_after_fruitless_iteration.2 hstart hpolled (by decide +kernel)
      (fun hready => Option.isNone_iff_eq_none.1
        ((Option.all_eq_true (fun ready => ready.ensureConnected.failure.isNone) _).1
          (by decide +kernel) _ hready))
      (.of_extends (Client.calls_iterate _ _) (by decide +kernel))
    refine ⟨_, hstart, ?_⟩
    exact ⟨.of_extends (Client.calls_iterate _ _) (by decide +kernel), by decide +kernel, hrest.2.1,
      by decide +kernel, hrest.2.2.2 (by decide) (by decide) (by decide) fruitlessTurn⟩

end Rendezvous
