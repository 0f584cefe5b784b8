import Rendezvous.Proofs.Coordinator.Balance
import Rendezvous.Proofs.Coordinator.WakeUp
import Rendezvous.Proofs.Peer.Balance

/-!
# Rendezvous.Proofs.Network.InOrder

**Control bytes are neither lost, duplicated nor reordered on the way out.** Whatever
the writes come to, for both ends of a control connection these are one row of bytes: what
the stream has accepted, what is in flight, and the frames of the messages that are still
queued. It is the row of the frames of all messages ever queued.

* `Coordinator.Ledger.InOrder` says so of each attached member of a coordinator, and
  `Client.Ledger.InOrder` of a client.
* `output_in_order` is what holds of every run of either loop.
-/

namespace Rendezvous

/-- Each attached member's output is the row of frames of the messages queued for it since
it was attached, each of which has a frame. No message was ever begun to be written while
another one was in flight. -/
structure Coordinator.Ledger.InOrder (l : Coordinator.Ledger) : Prop where
  bytes : ∀ {handle member}, l.coordinator.roster.get? handle = some member →
    accepted member.stream.id l.coordinator.host.calls ++ member.stream.inFlight ++
      frames (l.coordinator.roster.messagesFor member) = frames (l.enqueued handle)
  encodes : ∀ {handle msg}, msg ∈ l.enqueued handle → ∃ frame, msg.encode = .ok frame
  whole : ∀ {handle tail}, tail ∈ l.tails handle → tail = []

/-- The output of the control connection is the row of frames of the messages that the
session has queued, each of which has a frame. No message was ever begun to be written while
another one was in flight. -/
structure Client.Ledger.InOrder (l : Client.Ledger) : Prop where
  bytes : accepted l.client.control.id l.client.host.calls ++ l.client.control.inFlight ++
    frames l.client.session.controlQueue = frames l.enqueued
  encodes : ∀ {msg}, msg ∈ l.enqueued → ∃ frame, msg.encode = .ok frame
  whole : ∀ {tail}, tail ∈ l.tails → tail = []

theorem Coordinator.Ledger.BalancedBut.inOrder {l : Coordinator.Ledger} (h : l.Balanced) :
    l.InOrder where
  bytes := by
    intro handle member hget
    rw [← Roster.pending_of_get? hget]
    exact h.bytes hget not_false
  encodes := h.encodes
  whole := h.whole

theorem Client.Ledger.BalancedUnless.inOrder {l : Client.Ledger} (h : l.Balanced) :
    l.InOrder where
  bytes := h.bytes not_false
  encodes := h.encodes
  whole := h.whole

/-- Let a loop be started on a system in which nothing has been written yet to a stream that
nobody holds. A coordinator's output is in order at the head of its loop, and after an iteration
even if that fails. A client's is in order at the head of its loop, and even in an
iteration that fails no message is begun to be written while another one is in flight. -/
theorem output_in_order :
    (∀ {config : CoordinatorConfig} {host : Host} {l : Coordinator.Ledger},
      host.Orderly → host.Unwritten → Coordinator.Ledger.Run config host l →
        l.InOrder ∧ ∀ turn, (l.iterate turn).state.InOrder) ∧
    ∀ {config : PeerConfig} {near : NearEnds} {host : Host} {l : Client.Ledger},
      host.Unwritten → Client.Ledger.Run config near host l →
        l.InOrder ∧ ∀ turn, ∀ tail ∈ (l.iterate turn).state.tails, tail = [] := by
  refine ⟨fun horderly hunwritten hrun => ?_, fun hunwritten hrun => ?_⟩
  · have hbalanced := hrun.balanced horderly hunwritten
    exact ⟨hbalanced.inOrder, fun turn => (hbalanced.iterate turn).inOrder⟩
  · have hbalanced := hrun.balanced hunwritten
    exact ⟨hbalanced.inOrder, fun turn _ htail => (hbalanced.iterate turn).whole htail⟩

/-- The first stream turns writable under some token, and takes five bytes. -/
def trickleTurn (token : Nat) : Turn :=
  { Client.Observed.reporting [⟨token, ⟨false, true, false, false, false⟩⟩] with
    supply := ⟨[], [(⟨0⟩, ⟨[], [.upTo 5, .fail .wouldBlock]⟩)], [], [], [], [], []⟩ }

/-- A peer has announced itself to a coordinator, and its list is written in part. A client
has learnt its address, and its announcement is written in part. -/
theorem output_in_order_after_trickle :
    (∃ l : Coordinator.Ledger, Coordinator.Ledger.Run .default .idle l ∧ l.InOrder ∧
      l.enqueued ⟨0⟩ = [.peersToConnect []] ∧
        accepted ⟨0⟩ l.coordinator.host.calls = [0x54, 0x45, 0x4e, 0x54, 0] ∧
          (l.coordinator.roster.get? ⟨0⟩).map (fun member => member.stream.inFlight) =
            some [0, 0, 13, 5, 0, 0, 0, 0]) ∧
    ∃ l : Client.Ledger,
      Client.Ledger.Run Client.Observed.hastyConfig Client.Observed.hastyEnds .idle l ∧
        l.InOrder ∧ l.enqueued = [.connect Client.Observed.hastyEntry] ∧
          accepted ⟨0⟩ l.client.host.calls = [0x54, 0x45, 0x4e, 0x54, 0] ∧
            l.client.control.inFlight.length = 16 := by
  have horderly : Host.idle.Orderly := ⟨by decide, by decide⟩
  have hunwritten : Host.idle.Unwritten := fun _ _ => rfl
  constructor
  · have hstart := @Coordinator.Ledger.Run.start .default .idle _ rfl
    have hannounced := (hstart.iterate Coordinator.Observed.arrivalTurn (by decide +kernel)).iterate
      Coordinator.Observed.announcementTurn (by decide +kernel)
    have hrun := hannounced.iterate (trickleTurn firstMemberToken) (by decide +kernel)
    exact ⟨_, hrun, (output_in_order.1 horderly hunwritten hrun).1, by decide +kernel,
      by decide +kernel, by decide +kernel⟩
  · have hstart := @Client.Ledger.Run.start Client.Observed.hastyConfig Client.Observed.hastyEnds
      .idle _ rfl
    have hlearnt := (hstart.iterate Client.Observed.questionTurn (by decide +kernel)).iterate
      Client.Observed.answerTurn (by decide +kernel)
    have hrun := hlearnt.iterate (trickleTurn tokenOfControl) (by decide +kernel)
    exact ⟨_, hrun, (output_in_order.2 hunwritten hrun).1, by decide +kernel, by decide +kernel,
      by decide +kernel⟩

end Rendezvous
