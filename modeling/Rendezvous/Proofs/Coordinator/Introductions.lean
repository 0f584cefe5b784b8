import Rendezvous.Proofs.Coordinator.Pieces
import Rendezvous.Proofs.Coordinator.Severance

/-!
# Rendezvous.Proofs.Coordinator.Introductions

**What is announced is what the roster is told.** `Roster.introduce` is the one operation that
gives a member an entry, binds an address and queues messages. A `Course` is a run in which it
is called for a row of announcements, one after the other, each for whoever is attached under
the handle at that moment, and in which nothing of the kind happens otherwise.

* Between small steps whoever is there has been there and has got nothing new (`Remaining`).
  `Quiet` lets somebody come as well, who has nothing yet.
* `Piece.quiet` goes through the pieces of an iteration.
* `Work.course`: the announcements of any work are those of the messages acted on in it.
-/

namespace Rendezvous

/-- A member that is still who it was and has got nothing new: it has the entry that it had,
and at most the oldest messages have left its queue. -/
structure Member.Remains (member member' : Member) : Prop where
  stream : member'.stream.id = member.stream.id
  entry : member'.entry = member.entry
  queue : member'.queue <:+ member.queue

theorem Member.Remains.refl (member : Member) : member.Remains member :=
  ⟨rfl, rfl, List.suffix_refl _⟩

theorem Member.Remains.trans {a b c : Member} (hab : a.Remains b) (hbc : b.Remains c) :
    a.Remains c :=
  ⟨hbc.stream.trans hab.stream, hbc.entry.trans hab.entry, hbc.queue.trans hab.queue⟩

namespace Roster

/-! ### Where nothing is announced -/

/-- Whoever is there has been there and has got nothing new, and no address is bound. -/
structure Remaining (roster roster' : Roster) : Prop where
  members : ∀ {handle member'}, roster'.get? handle = some member' →
    ∃ member, roster.get? handle = some member ∧ member.Remains member'
  addresses : ∀ {key handle}, roster'.addresses.get? key = some handle →
    roster.addresses.get? key = some handle

/-- Nobody is given an entry or a message, and no address is bound. Somebody may come. -/
structure Quiet (roster roster' : Roster) : Prop where
  members : ∀ {handle member'}, roster'.get? handle = some member' →
    (∃ member, roster.get? handle = some member ∧ member.Remains member') ∨
      (roster.get? handle = none ∧ member'.entry = none ∧ member'.queue = [])
  addresses : ∀ {key handle}, roster'.addresses.get? key = some handle →
    roster.addresses.get? key = some handle

variable {a b c roster : Roster} {handle : Handle}

namespace Remaining

theorem refl (roster : Roster) : Remaining roster roster :=
  ⟨fun hget => ⟨_, hget, .refl _⟩, fun hbound => hbound⟩

theorem trans (hab : Remaining a b) (hbc : Remaining b c) : Remaining a c := by
  refine ⟨fun hlast => ?_, fun hbound => hab.addresses (hbc.addresses hbound)⟩
  obtain ⟨middle, hmiddle, hlater⟩ := hbc.members hlast
  obtain ⟨first, hfirst, hearlier⟩ := hab.members hmiddle
  exact ⟨first, hfirst, hearlier.trans hlater⟩

theorem quiet (h : Remaining a b) : Quiet a b := ⟨fun hget => .inl (h.members hget), h.addresses⟩

theorem modify {f : Member → Member}
    (hf : ∀ member, roster.get? handle = some member → member.Remains (f member)) :
    Remaining roster (roster.modify handle f) := by
  refine ⟨fun hget => ?_, fun hbound => hbound⟩
  obtain ⟨member, hmember, ⟨-, rfl⟩ | ⟨rfl, rfl⟩⟩ := get?_of_modify hget
  · exact ⟨_, hmember, .refl _⟩
  · exact ⟨member, hmember, hf member hmember⟩

theorem takeNext (roster : Roster) (handle : Handle) :
    Remaining roster (roster.takeNext handle).2 := by
  refine ⟨fun hget => ?_, fun hbound => by rwa [addresses_takeNext] at hbound⟩
  obtain ⟨member, hmember, ⟨-, rfl⟩ | ⟨-, rfl⟩⟩ := get?_of_takeNext hget
  · exact ⟨_, hmember, .refl _⟩
  · exact ⟨member, hmember, rfl, rfl, List.tail_suffix _⟩

theorem detach {holders : List Handle} (h : roster.WellFormed) (hheld : roster.Held holders)
    (handle : Handle) : Remaining roster (roster.detach handle).2 := by
  refine ⟨fun hget => ⟨_, (get?_of_detach h hget).2, .refl _⟩, fun hbound => ?_⟩
  rw [get?_addresses_detach hheld] at hbound
  split at hbound
  next => cases hbound
  next => exact hbound

end Remaining

namespace Quiet

theorem trans_remaining (hab : Quiet a b) (hbc : Remaining b c) : Quiet a c := by
  refine ⟨fun hlast => ?_, fun hbound => hab.addresses (hbc.addresses hbound)⟩
  obtain ⟨middle, hmiddle, hremains⟩ := hbc.members hlast
  rcases hab.members hmiddle with ⟨first, hfirst, hearlier⟩ | ⟨hnone, hentry, hqueue⟩
  · exact .inl ⟨first, hfirst, hearlier.trans hremains⟩
  · refine .inr ⟨hnone, hremains.entry.trans hentry, List.suffix_nil.1 ?_⟩
    exact hqueue ▸ hremains.queue

/-- Whoever comes has nothing yet. -/
theorem enroll (h : roster.WellFormed) (stream : FramedStream) (addr : SocketAddr)
    (timer : Timer) : Quiet roster (roster.enroll stream addr timer).val.2 := by
  refine ⟨fun hget => ?_, fun hbound => hbound⟩
  rcases get?_of_enroll h hget with ⟨rfl, rfl⟩ | ⟨-, hbefore⟩
  · exact .inr ⟨get?_fst_enroll h stream addr timer, rfl, rfl⟩
  · exact .inl ⟨_, hbefore, .refl _⟩

end Quiet
end Roster

namespace Coordinator

open Roster (Remaining Quiet)

variable {a c c' : Coordinator} {done : List Dispatch} {made : List Announcement}
  {p : Handle → Prop} {handle : Handle} {member : Member}

theorem Step.remaining (hstep : Step p c c') (h : Consistent c) :
    Remaining c.roster c'.roster := by
  cases hstep with
  | aside roster _ _ _ _ => exact roster ▸ .refl _
  | adjust handle f _ same =>
      exact .modify fun member hget =>
        ⟨(same member hget).stream, (same member hget).entry, (same member hget).queue ▸
          List.suffix_refl _⟩
  | takeNext handle => exact .takeNext _ handle
  | detach handle _ =>
      obtain ⟨holders, hheld⟩ := h.held
      exact .detach h.roster hheld handle

theorem Calm.remaining (hcalm : Calm p c c') (h : Consistent c) :
    Remaining c.roster c'.roster := by
  have hboth : Consistent c' ∧ Remaining c.roster c'.roster :=
    hcalm.induction (motive := fun b => Consistent b ∧ Remaining c.roster b.roster)
      ⟨h, .refl _⟩ fun hstep hbefore =>
        ⟨hbefore.1.step hstep, hbefore.2.trans (hstep.remaining hbefore.1)⟩
  exact hboth.2

theorem Calm.quiet (hcalm : Calm p c c') (h : Consistent c) : Quiet c.roster c'.roster :=
  (hcalm.remaining h).quiet

/-- A read changes nothing of a member but its stream. -/
theorem remaining_refilled (hget : c.roster.get? handle = some member) :
    Remaining c.roster (c.refilled handle member).roster := by
  rw [(c.refilled_frame handle member).1]
  refine .modify fun other hother => ?_
  obtain rfl := Option.some.inj (hget.symm.trans hother)
  exact ⟨member.stream.id_receive c.host, rfl, List.suffix_refl _⟩

theorem quiet_acceptOne (h : Consistent c) (now : Instant) :
    Quiet c.roster (c.acceptOne now).state.roster := by
  rcases acceptOne_cases (p := anyone) c now fun _ _ _ => trivial with
    hcalm | ⟨id, addr, host, haccept, -, hcalm⟩
  · exact hcalm.quiet h
  · exact (Quiet.enroll h.roster _ _ _).trans_remaining (hcalm.remaining (h.enroll haccept _))

/-- Nothing is announced in a piece. -/
theorem Piece.quiet (hpiece : Piece c c') (h : Consistent c) : Quiet c.roster c'.roster := by
  cases hpiece with
  | supply supply => exact (calm_supply (p := nobody) c supply).quiet h
  | watchPackets => exact (calm_watchPackets (p := nobody) c).quiet h
  | watchMember failed handle => exact (calm_watchMember (p := nobody) c failed handle).quiet h
  | poll timeout turn => exact (calm_poll (p := nobody) c timeout turn).quiet h
  | latch event => exact (calm_latch (p := nobody) c event).quiet h
  | accept now => exact quiet_acceptOne h now
  | @read handle member now present fine =>
      have hcalm := ((gather_cases (p := nobody) c handle member now).resolve_left
        fun ⟨e, hfailed, _⟩ => fine e hfailed).2.2
      exact ((remaining_refilled present).trans (hcalm.remaining (h.refilled present))).quiet
  | @lose handle member e present _ =>
      have hcalm : Calm anyone { c.refilled handle member with decoded := [] }
          (({ c.refilled handle member with decoded := [] } : Coordinator).dismiss handle
            (.channel e)) := calm_dismiss _ trivial _
      exact ((remaining_refilled present).trans
        (hcalm.remaining (h.refilled present).clear)).quiet
  | write => exact (calm_writeMember (p := nobody) c _).quiet h
  | abort =>
      exact ((calm_writeMember (p := anyone) c _).trans (calm_dismiss _ trivial _)).quiet h
  | dismiss handle departure => exact (calm_dismiss (p := anyone) c trivial departure).quiet h
  | receive => exact (calm_receivePacket (p := nobody) c).quiet h
  | send => exact (calm_sendPacket (p := nobody) c).quiet h
  | elapse lag => exact (calm_elapse (p := nobody) c lag).quiet h
  | release level => exact (Remaining.refl _).quiet

/-! ### Where something is -/

/-- A run from a first state with all that is announced in it, in order. -/
inductive Course (first : Coordinator) : List Announcement → Coordinator → Prop where
  | none : Course first [] first
  /-- A piece of an iteration, in which nothing is announced. -/
  | aside {c c' : Coordinator} {made : List Announcement} (before : Course first made c)
    (piece : Piece c c') (quiet : Quiet c.roster c'.roster) : Course first made c'
  /-- A message that announces nothing is acted on. -/
  | ignore {c : Coordinator} {made : List Announcement} (before : Course first made c)
    (handle : Handle) (msg : Message) (roster : (c.actOnControl handle msg).roster = c.roster) :
    Course first made (c.actOnControl handle msg)
  /-- The roster is told of an entry by whoever is attached under the handle. -/
  | introduce {c : Coordinator} {made : List Announcement} {handle : Handle} {member : Member}
    (before : Course first made c) (present : c.roster.get? handle = some member)
    (entry : PeerEntry)
    (roster : (c.actOnControl handle (.connect entry)).roster =
      (c.roster.introduce handle entry).val.2) :
    Course first (made ++ [⟨member.stream.id, handle, entry⟩])
      (c.actOnControl handle (.connect entry))

theorem Course.act (h : Course a made c) (handle : Handle) (msg : Message) :
    Course a (made ++ [(⟨c, handle, msg⟩ : Dispatch)].filterMap Dispatch.announcement?)
      (c.actOnControl handle msg) := by
  have hroster := c.roster_actOnControl handle msg
  cases hget : c.roster.get? handle with
  | none =>
      have hignored : (c.actOnControl handle msg).roster = c.roster := by
        rw [actOnControl, hget]
      simpa [Dispatch.announcement?, hget] using h.ignore handle msg hignored
  | some member =>
      cases msg with
      | connect entry => simpa [Dispatch.announcement?, hget] using h.introduce hget entry hroster
      | _ => simpa [Dispatch.announcement?, hget] using h.ignore handle _ hroster

/-- **The roster is told of the announcements and of nothing else.** -/
theorem Work.course (h : Work a done c) (ha : Consistent a) :
    Course a (done.filterMap Dispatch.announcement?) c := by
  induction h with
  | none => exact .none
  | piece before hpiece ih => exact ih.aside hpiece (hpiece.quiet (before.consistent ha))
  | act _ handle msg ih =>
      rw [List.filterMap_append]
      exact ih.act handle msg

end Coordinator
end Rendezvous
