import Rendezvous.Proofs.Coordinator.Receivable
import Rendezvous.Proofs.Coordinator.WakeUp
import Rendezvous.Proofs.Peer.Outgoing

/-!
# Rendezvous.Proofs.Network.Receivable

**Neither loop fails of encoding, and what it sends can be received.** Whatever is queued has a
frame that fits: a list the receive buffer of a connection, and all else a datagram. So a
failure of the protocol comes from bytes that were read, and a receiver drops nothing of what a
coordinator writes: `output_receivable`.
-/

namespace Rendezvous

/-- Of a coordinator, whatever comes in: what it queues for its members are lists that fit a
receive buffer, what it queues as datagrams fits one, the loop does not stop with a failure of the
protocol, and a member is lost by one only for a frame that was read from it. A stream that had
accepted nothing when the coordinator was started has accepted the beginning of a row of frames
of such lists, of which a receiver drops no byte.

Of a client: what it queues for its connection are announcements, what it queues as datagrams
are questions and keep-alives, and it stops with a failure of the protocol only for a frame that
was read. -/
theorem output_receivable :
    (∀ {config : CoordinatorConfig} {c : Coordinator}, Coordinator.Reachable config c →
      (∀ {handle member}, c.roster.get? handle = some member →
        ∀ msg ∈ c.roster.messagesFor member, msg.Listing) ∧
      (∀ item ∈ c.outbox,
        ∃ frame, item.1.encode = .ok frame ∧ frame.length ≤ longestDatagram) ∧
      (∀ turn e, (c.iterate turn).failure ≠ some (.channel (.protocol e))) ∧
      ∀ {turn s now before handle after e}, c.serving turn = some (s, now) →
        s.roster.order = before ++ handle :: after →
        let t := before.foldl (Coordinator.serveOrDismiss now) s
        (t.serveMember handle now).2 = some (.protocol e) →
          ∃ member, t.roster.get? handle = some member ∧ member.stream.GarbledBy t.host e) ∧
    (∀ {config : CoordinatorConfig} {host : Host} {c : Coordinator}
        {done : List Coordinator.Dispatch},
      host.Orderly → host.Unwritten → Coordinator.Worked config host c done →
      ∀ {id}, accepted id host.calls = [] → ∀ turn,
        let bytes := accepted id (c.iterate turn).state.host.calls
        ∃ msgs : List Message, (∀ msg ∈ msgs, msg.Listing) ∧ bytes <+: frames msgs ∧
          ∀ {steps}, (Feed.run streamCapacity steps).taken <+: bytes →
            (Feed.run streamCapacity steps).reassembly.skipped = 0 ∧
              (Feed.run streamCapacity steps).answers <+: msgs.map .ok) ∧
    ∀ {config : PeerConfig} {c : Client}, Client.Reachable config c →
      (∀ msg ∈ c.session.controlQueue, ∃ entry, msg = .connect entry) ∧
      (∀ item ∈ c.session.packetQueue, item.1 = .stunRequest ∨ item.1 = .keepAlive) ∧
      ∀ {turn e}, (c.iterate turn).failure = some (.channel (.protocol e)) →
        ∃ t, c.exchanging turn = some t ∧ t.control.GarbledBy t.host e := by
  refine ⟨fun hreachable => ?_, fun horderly hunwritten hworked id hclean turn => ?_,
    fun hreachable => ?_⟩
  · obtain ⟨host, done, hworked⟩ := Coordinator.exists_worked hreachable
    obtain ⟨first, hstart, hwork⟩ := hworked.exists_work
    have hlisted := hwork.listed (Coordinator.consistent_start hstart)
      (Coordinator.listed_start hstart)
    have hconsistent := hreachable.consistent
    refine ⟨fun {handle _} hget msg hmsg =>
        hlisted handle msg (Roster.pending_of_get? hget ▸ hmsg), fun item hitem => ?_,
      Coordinator.iterate_ne_protocol hconsistent, fun hserving _ hfailed => ?_⟩
    · obtain ⟨addr, haddr⟩ := hconsistent.answers item hitem
      exact haddr ▸ Coordinator.exists_encode_stunResponse addr
    · exact Coordinator.garbledBy_of_serveMember
        ((hconsistent.serving hserving).serveEach _ _) hfailed
  · obtain ⟨first, hstart, hwork⟩ := hworked.exists_work
    have hsendable := (hwork.trans (Coordinator.work_iterate _ turn)).sendable
      (Coordinator.consistent_start hstart)
      (Coordinator.sendable_start horderly hunwritten hstart)
    obtain ⟨msgs, hmsgs, hbytes⟩ := hsendable.accepted id hclean
    exact ⟨msgs, hmsgs, hbytes, fun {steps} htaken =>
      Feed.run_of_prefix hmsgs steps (htaken.trans hbytes)⟩
  · obtain ⟨-, hregular⟩ := hreachable.regular
    exact ⟨hregular.control, hregular.packets, Client.garbledBy_of_iterate hregular⟩

/-- The first stream can be read and written under some token, and has something in store. -/
def exchangeTurn (token : Nat) (script : StreamScript) : Turn :=
  { Coordinator.Observed.quietTurn with
    supply := ⟨[], [(⟨0⟩, script)], [], [], [], [], []⟩
    events := [⟨token, ⟨true, true, false, false, false⟩⟩] }

/-- A peer announces itself three times at once, and takes one list. -/
def eagerTurn : Turn :=
  exchangeTurn firstMemberToken
    ⟨[.data (List.replicate 3 Coordinator.Observed.announcementFrame).flatten], []⟩

/-- It takes five bytes of the next list. -/
def partTurn : Turn := exchangeTurn firstMemberToken ⟨[], [.upTo 5, .fail .wouldBlock]⟩

/-- A frame of no known kind comes. -/
def unknownTurn (token : Nat) : Turn :=
  exchangeTurn token ⟨[.data [0x54, 0x45, 0x4e, 0x54, 0, 0, 0, 9, 99]], []⟩

/-- A peer is lost for a frame of no known kind, with a list and part of another written to it:
a receiver that has taken in all of that has dropped nothing. A client stops for such a frame. -/
theorem receivable_until_unknown_frame :
    (∃ c done, Coordinator.Worked .default .idle c done ∧
      (∃ member, c.roster.get? ⟨0⟩ = some member ∧
        (c.roster.messagesFor member).length = 1 ∧
        ∀ msg ∈ c.roster.messagesFor member, msg.Listing) ∧
      (∃ s now, c.serving (unknownTurn firstMemberToken) = some (s, now) ∧
        (s.serveMember ⟨0⟩ now).2 = some (.protocol (.unknownType 99)) ∧
        ∃ member, s.roster.get? ⟨0⟩ = some member ∧
          member.stream.GarbledBy s.host (.unknownType 99)) ∧
      ∃ steps,
        (Feed.run streamCapacity steps).taken =
          accepted ⟨0⟩ (c.iterate (unknownTurn firstMemberToken)).state.host.calls ∧
        (Feed.run streamCapacity steps).taken.length = 18 ∧
        (Feed.run streamCapacity steps).answers.length = 1 ∧
        (Feed.run streamCapacity steps).reassembly.skipped = 0) ∧
    ∃ c : Client, Client.Reachable Client.Observed.hastyConfig c ∧
      (c.iterate (unknownTurn tokenOfControl)).failure =
        some (.channel (.protocol (.unknownType 99))) ∧
      ∃ t, c.exchanging (unknownTurn tokenOfControl) = some t ∧
        t.control.GarbledBy t.host (.unknownType 99) := by
  constructor
  · have horderly : Host.idle.Orderly := ⟨by decide, by decide⟩
    have hunwritten : Host.idle.Unwritten := fun _ _ => rfl
    have hstart := @Coordinator.Worked.start .default .idle _ rfl
    have hconnected := hstart.iterate Coordinator.Observed.arrivalTurn (by decide +kernel)
    have hrun := (hconnected.iterate eagerTurn (by decide +kernel)).iterate partTurn
      (by decide +kernel)
    obtain ⟨hlists, -, -, hlost⟩ := output_receivable.1 hrun.reachable
    have hgarbled := @hlost (unknownTurn firstMemberToken) _ _ [] ⟨0⟩ [] (.unknownType 99)
      (Option.some_get (by decide +kernel)).symm (by decide +kernel) (by decide +kernel)
    have hclean : accepted ⟨0⟩ Host.idle.calls = [] := rfl
    obtain ⟨msgs, hmsgs, hbytes, hfeed⟩ := output_receivable.2.1 horderly hunwritten hrun hclean
      (unknownTurn firstMemberToken)
    refine ⟨_, _, hrun, ⟨_, (Option.some_get (by decide +kernel)).symm, by decide +kernel,
      hlists (Option.some_get _).symm⟩, ⟨_, _, (Option.some_get (by decide +kernel)).symm,
        by decide +kernel, hgarbled⟩, ?_⟩
    let list := (Message.peersToConnect []).frame
    refine ⟨[.offer (list ++ list.take 5), .ask], by decide +kernel, by decide +kernel,
      by decide +kernel, (hfeed ?_).1⟩
    exact List.isPrefixOf_iff_prefix.1 (by decide +kernel)
  · have hstart := @Client.Reachable.start Client.Observed.hastyConfig Client.Observed.hastyEnds
      .idle _ rfl
    have hrun := (hstart.iterate Client.Observed.questionTurn (by decide +kernel)).iterate
      Client.Observed.answerTurn (by decide +kernel)
    obtain ⟨-, -, hlost⟩ := output_receivable.2.2 hrun
    have hgarbled := @hlost (unknownTurn tokenOfControl) (.unknownType 99) (by decide +kernel)
    exact ⟨_, hrun, by decide +kernel, hgarbled⟩

end Rendezvous
