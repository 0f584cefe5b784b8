import Rendezvous.Proofs.Coordinator.Tally

/-!
# Rendezvous.Proofs.Coordinator.Census

**Nobody is counted twice, and nobody is forgotten.** Members come in by an accept and go in
many ways, but every way in and out shows in the trace: a connection that was accepted is
registered with the poller or refused by it, and whoever is lost is forgotten by the poller.
`Accounted` says that between two states the members, the gauge and the two counters follow
these calls. Every piece of work is accounted for, so any run is.
-/

namespace Rendezvous

namespace Call

/-- Does a call have the poller watch a connection? -/
def attaches : Call → Bool
  | .register (.stream _) _ _ none => true
  | _ => false

/-- Does a call fail to have the poller watch a connection? -/
def rejects : Call → Bool
  | .register (.stream _) _ _ (some _) => true
  | _ => false

/-- Does a call have the poller forget a connection? -/
def detaches : Call → Bool
  | .deregister (.stream _) _ => true
  | _ => false

end Call

/-- How many connections the poller came to watch. -/
def attachments (calls : List Call) : Nat := calls.countP Call.attaches

/-- How many connections the poller refused. -/
def rejections (calls : List Call) : Nat := calls.countP Call.rejects

/-- How many connections the poller was told to forget. -/
def detachments (calls : List Call) : Nat := calls.countP Call.detaches

@[simp] theorem attachments_append (calls more : List Call) :
    attachments (calls ++ more) = attachments calls + attachments more := List.countP_append

@[simp] theorem rejections_append (calls more : List Call) :
    rejections (calls ++ more) = rejections calls + rejections more := List.countP_append

@[simp] theorem detachments_append (calls more : List Call) :
    detachments (calls ++ more) = detachments calls + detachments more := List.countP_append

/-- Does a call concern nobody's coming or going? -/
def Call.neutral (call : Call) : Bool :=
  call.connection?.isNone && !call.attaches && !call.rejects && !call.detaches

theorem Call.neutral_of_uncounted {call : Call} (h : call.uncounted = true) :
    call.neutral = true := by
  cases call with
  | accept result =>
      cases result with
      | ok id => cases h
      | error kind => rfl
  | register source =>
      cases source with
      | stream id => cases h
      | _ => rfl
  | deregister source => cases h
  | _ => rfl

/-- Calls that concern nobody's coming or going. -/
theorem neutral_calls {new : List Call} (h : ∀ call ∈ new, call.neutral = true) :
    connections new = [] ∧ attachments new = 0 ∧ rejections new = 0 ∧ detachments new = 0 := by
  simp only [Call.neutral, Bool.and_eq_true, Option.isNone_iff_eq_none, Bool.not_eq_true'] at h
  refine ⟨List.filterMap_eq_nil_iff.2 fun call hcall => (h call hcall).1.1.1,
    List.countP_eq_zero.2 fun call hcall => ?_, List.countP_eq_zero.2 fun call hcall => ?_,
    List.countP_eq_zero.2 fun call hcall => ?_⟩
  · simp [(h call hcall).1.1.2]
  · simp [(h call hcall).1.2]
  · simp [(h call hcall).2]

namespace Coordinator

/-- Between two states everyone who came or went is accounted for: a connection that was
accepted is now watched or was refused, the members are those before with whoever came and
without whoever went, and the counters went up by as many. -/
def Accounted (c c' : Coordinator) : Prop :=
  ∃ new, c'.host.calls = c.host.calls ++ new ∧
    (connections new).length = attachments new + rejections new ∧
      c'.roster.size + detachments new = c.roster.size + attachments new ∧
        c'.counters.accepted = c.counters.accepted + UInt64.ofNat (attachments new) ∧
          c'.counters.disconnects = c.counters.disconnects + UInt64.ofNat (detachments new) ∧
            (c.counters.activePeers = UInt64.ofNat c.roster.size →
              c'.counters.activePeers = UInt64.ofNat c'.roster.size)

variable {a b c c' : Coordinator} {handle : Handle} {member : Member} {host : Host}

namespace Accounted

theorem trans (hab : Accounted a b) (hbc : Accounted b c) : Accounted a c := by
  obtain ⟨new, hcalls, hconnections, hmembers, haccepted, hdisconnects, hgauge⟩ := hab
  obtain ⟨more, hcalls', hconnections', hmembers', haccepted', hdisconnects', hgauge'⟩ := hbc
  refine ⟨new ++ more, ?_, ?_, ?_, ?_, ?_, hgauge' ∘ hgauge⟩
  · rw [hcalls', hcalls, List.append_assoc]
  · rw [connections_append, List.length_append, attachments_append, rejections_append]
    omega
  · rw [attachments_append, detachments_append]
    omega
  · rw [haccepted', haccepted, attachments_append, UInt64.ofNat_add, UInt64.add_assoc]
  · rw [hdisconnects', hdisconnects, detachments_append, UInt64.ofNat_add, UInt64.add_assoc]

/-- A stage in which nobody comes or goes. -/
theorem of_added {kind : Call → Bool} (hcalls : Added kind c.host c'.host)
    (hkind : ∀ call, kind call = true → call.neutral = true)
    (hmembers : c'.tally.members = c.tally.members)
    (hgauge : c'.tally.activePeers = c.tally.activePeers)
    (haccepted : c'.tally.accepted = c.tally.accepted)
    (hdisconnects : c'.tally.disconnects = c.tally.disconnects) : Accounted c c' := by
  obtain ⟨new, hnew, hall⟩ := hcalls
  obtain ⟨hconnections, hattach, hreject, hdetach⟩ :=
    neutral_calls fun call hcall => hkind call (hall call hcall)
  have hsize : c'.roster.size = c.roster.size := hmembers
  have hactive : c'.counters.activePeers = c.counters.activePeers := hgauge
  refine ⟨new, hnew, ?_, ?_, ?_, ?_, fun h => hactive.trans (h.trans (by rw [hsize]))⟩
  · rw [hconnections, hattach, hreject]
    rfl
  · rw [hsize, hattach, hdetach]
  · rw [hattach]
    exact haccepted.trans (UInt64.add_zero _).symm
  · rw [hdetach]
    exact hdisconnects.trans (UInt64.add_zero _).symm

theorem of_plain (h : Plain c c') : Accounted c c' :=
  .of_added h.calls (fun _ => Call.neutral_of_uncounted) (by rw [h.tally]) (by rw [h.tally])
    (by rw [h.tally]) (by rw [h.tally])

end Accounted

/-! ### The loop -/

theorem accounted_dismiss (hwf : c.roster.WellFormed) (handle : Handle) (departure : Departure) :
    Accounted c (c.dismiss handle departure) := by
  cases hget : c.roster.get? handle with
  | none =>
      rw [dismiss_of_absent hget]
      exact .of_plain (.refl c)
  | some member =>
      obtain ⟨htally, failure, hcalls⟩ := dismiss_tally hget departure
      have hsize : (c.dismiss handle departure).roster.size = c.roster.size - 1 :=
        congrArg Tally.members htally
      have hpos := Roster.size_pos hwf hget
      refine ⟨_, hcalls, rfl, ?_, ?_, ?_, fun _ => ?_⟩
      · rw [hsize]
        exact Nat.sub_add_cancel hpos
      · exact (congrArg Tally.accepted htally).trans (UInt64.add_zero _).symm
      · exact congrArg Tally.disconnects htally
      · rw [hsize]
        exact congrArg Tally.activePeers htally

theorem accounted_acceptOne (hwf : c.roster.WellFormed) (now : Instant) :
    Accounted c (c.acceptOne now).state := by
  rcases acceptOne_tally hwf now with
    hplain | ⟨id, token, ⟨kind, htally, hcalls⟩ | ⟨htally, hcalls⟩⟩
  · exact .of_plain hplain
  · -- The poller refuses the connection.
    have hsize : (c.acceptOne now).state.roster.size = c.roster.size :=
      congrArg Tally.members htally
    refine ⟨_, hcalls, rfl, hsize, ?_, ?_, fun h => ?_⟩
    · exact (congrArg Tally.accepted htally).trans (UInt64.add_zero _).symm
    · exact (congrArg Tally.disconnects htally).trans (UInt64.add_zero _).symm
    · rw [hsize, ← h]
      exact congrArg Tally.activePeers htally
  · have hsize : (c.acceptOne now).state.roster.size = c.roster.size + 1 :=
      congrArg Tally.members htally
    refine ⟨_, hcalls, rfl, hsize, ?_, ?_, fun _ => ?_⟩
    · exact congrArg Tally.accepted htally
    · exact (congrArg Tally.disconnects htally).trans (UInt64.add_zero _).symm
    · rw [hsize]
      exact congrArg Tally.activePeers htally

theorem accounted_refilled (c : Coordinator) (handle : Handle) (member : Member) :
    Accounted c (c.refilled handle member) := by
  have htally := c.refilled_tally handle member
  refine .of_added (c.added_refilled handle member) (fun call hreads => ?_)
    (by rw [htally]) (by rw [htally]) (by rw [htally]) (by rw [htally])
  cases call <;> first | rfl | cases hreads

theorem accounted_receivePacket (c : Coordinator) : Accounted c c.receivePacket.state := by
  obtain ⟨hadded, got, -, htally⟩ := c.receivePacket_tally
  refine .of_added hadded (fun call hreceives => ?_)
    (by rw [htally]) (by rw [htally]) (by rw [htally]) (by rw [htally])
  cases call <;> first | rfl | cases hreceives

theorem accounted_sendPacket (c : Coordinator) : Accounted c c.sendPacket.state := by
  obtain ⟨hadded, hsent⟩ := c.sendPacket_tally
  have hsends (call : Call) (h : call.sends = true) : call.neutral = true := by
    cases call <;> first | rfl | cases h
  rcases hsent with ⟨-, htally⟩ | ⟨msg, target, rest, -, -, htally⟩
  · exact .of_added hadded hsends (by rw [htally]) (by rw [htally]) (by rw [htally])
      (by rw [htally])
  · exact .of_added hadded hsends (by rw [htally]) (by rw [htally]) (by rw [htally])
      (by rw [htally])

theorem accounted_actOnControl (hwf : c.roster.WellFormed) (handle : Handle) (msg : Message) :
    Accounted c (c.actOnControl handle msg) := by
  have htally := actOnControl_tally hwf handle msg
  have hadded : Added Call.neutral c.host (c.actOnControl handle msg).host :=
    .of_calls_eq (by simp)
  exact .of_added hadded (fun _ => id) (by rw [htally]) (by rw [htally]) (by rw [htally])
    (by rw [htally])

/-- Whatever the loop does, everyone is accounted for. -/
theorem followed_accounted : Followed Accounted where
  trans := .trans
  plain := .of_plain
  accept := fun now h => accounted_acceptOne h.roster now
  dismiss := fun handle departure h => accounted_dismiss h.roster handle departure
  refill := accounted_refilled
  receive := accounted_receivePacket
  send := fun {c} _ => accounted_sendPacket c

theorem Work.census {done : List Dispatch} (h : Work a done c) (ha : Consistent a) :
    Accounted a c :=
  h.follows followed_accounted (fun handle msg hc => accounted_actOnControl hc.roster handle msg) ha

end Coordinator
end Rendezvous
