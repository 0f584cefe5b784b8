import Rendezvous.Proofs.Channel.Output
import Rendezvous.Proofs.Host.Added
import Rendezvous.Proofs.Wire.Canonical

/-!
# Rendezvous.Proofs.Host.Datagrams

**Datagrams that came in and went out.** `datagramsIn` and `datagramsOut` read them off the
trace: what receives got, with the sender, and what sends took, with the target.

* `recvDatagram_cases`: a receive answers what it got, or nothing came in.
* `sendDatagram_cases`: a send that finishes puts out the frame of its message, and any other
  nothing.
* `ofBytes_eq_stunRequest_iff`: a datagram is an address request when it is the frame of one.
-/

namespace Rendezvous

/-! ### Views of the trace -/

/-- The datagram that a call receives, with its sender. -/
def Call.datagramIn? : Call → Option (SocketAddr × Bytes)
  | .recv _ (.ok datagram) => some datagram
  | _ => none

/-- The datagram that a call sends, with its target. -/
def Call.datagramOut? : Call → Option (SocketAddr × Bytes)
  | .send target bytes (.ok _) => some (target, bytes)
  | _ => none

/-- The datagrams received in a trace, in order. -/
def datagramsIn (calls : List Call) : List (SocketAddr × Bytes) :=
  calls.filterMap Call.datagramIn?

/-- The datagrams sent in a trace, in order. -/
def datagramsOut (calls : List Call) : List (SocketAddr × Bytes) :=
  calls.filterMap Call.datagramOut?

@[simp] theorem datagramsIn_append (calls more : List Call) :
    datagramsIn (calls ++ more) = datagramsIn calls ++ datagramsIn more :=
  List.filterMap_append

@[simp] theorem datagramsOut_append (calls more : List Call) :
    datagramsOut (calls ++ more) = datagramsOut calls ++ datagramsOut more :=
  List.filterMap_append

/-! ### Receiving -/

variable {host : Host} {msg : Message} {target sender : SocketAddr} {scratch : Scratch}

/-- A receive answers what it got, and if it got nothing, nothing came in. -/
theorem recvDatagram_cases (host : Host) :
    (((recvDatagram host).1 = .ok .absent ∨ ∃ e, (recvDatagram host).1 = .error e) ∧
        datagramsIn (recvDatagram host).2.calls = datagramsIn host.calls) ∨
      ∃ sender bytes, (recvDatagram host).1 = .ok (Datagram.ofBytes sender bytes).val ∧
        datagramsIn (recvDatagram host).2.calls = datagramsIn host.calls ++ [(sender, bytes)] := by
  have hrecv : datagramsIn (host.recvUninterrupted datagramRoom).2.calls =
      datagramsIn host.calls ++
        (Call.datagramIn? (.recv datagramRoom (host.recvUninterrupted datagramRoom).1)).toList :=
    filterMap_retry (fun host => host.calls_recv datagramRoom) rfl _ host
  unfold recvDatagram
  split
  next heq =>
    rw [heq] at hrecv
    exact .inl ⟨.inl rfl, hrecv.trans (List.append_nil _)⟩
  next heq =>
    rw [heq] at hrecv
    exact .inl ⟨.inr ⟨_, rfl⟩, hrecv.trans (List.append_nil _)⟩
  next sender bytes next heq =>
    rw [heq] at hrecv
    exact .inr ⟨sender, bytes, rfl, hrecv⟩

/-- Who sent a datagram and what it decodes to. -/
theorem ofBytes_eq_message {bytes : Bytes} {from' : SocketAddr}
    (h : (Datagram.ofBytes sender bytes).val = .message msg from') :
    from' = sender ∧ Message.decode bytes = .ok msg := by
  unfold Datagram.ofBytes at h
  split at h
  next => cases h
  next =>
    split at h
    next => cases h
    next =>
      split at h
      next heq => cases h; exact ⟨rfl, heq⟩
      next => cases h

/-- The frame of an address request is the only datagram that is taken for one. -/
theorem ofBytes_eq_stunRequest_iff {bytes : Bytes} {from' : SocketAddr} :
    (Datagram.ofBytes sender bytes).val = .message .stunRequest from' ↔
      from' = sender ∧ bytes = Message.stunRequest.frame := by
  constructor
  · intro h
    obtain ⟨hfrom, hdecode⟩ := ofBytes_eq_message h
    exact ⟨hfrom, (Message.frame_of_encode (Message.encode_of_decode hdecode)).symm⟩
  · rintro ⟨rfl, rfl⟩
    rfl

/-! ### Sending -/

/-- A send that finishes puts out the frame of its message, and any other nothing. -/
theorem sendDatagram_cases (msg : Message) (target : SocketAddr) (scratch : Scratch)
    (host : Host) :
    ((sendDatagram msg target scratch host).1 = .ok .finished ∧
        datagramsOut (sendDatagram msg target scratch host).2.2.calls =
          datagramsOut host.calls ++ [(target, msg.frame)]) ∨
      ((sendDatagram msg target scratch host).1 ≠ .ok .finished ∧
        datagramsOut (sendDatagram msg target scratch host).2.2.calls =
          datagramsOut host.calls) := by
  have hencode := msg.fst_encodeScratch scratch
  unfold sendDatagram
  split
  next => exact .inr ⟨nofun, rfl⟩
  next bytes _ heq =>
    rw [heq] at hencode
    rw [msg.frame_of_encode hencode.symm]
    have hsend : datagramsOut (host.sendUninterrupted target bytes).2.calls =
        datagramsOut host.calls ++
          (Call.datagramOut? (.send target bytes (host.sendUninterrupted target bytes).1)).toList :=
      filterMap_retry (fun host => host.calls_send target bytes) rfl _ host
    split
    next => exact .inr ⟨nofun, rfl⟩
    next =>
      split
      next hanswer =>
        rw [hanswer] at hsend
        refine .inl ⟨rfl, ?_⟩
        simp only
        split <;> exact hsend
      next hanswer =>
        rw [hanswer] at hsend
        exact .inr ⟨nofun, hsend.trans (List.append_nil _)⟩
      next hanswer =>
        rw [hanswer] at hsend
        exact .inr ⟨nofun, hsend.trans (List.append_nil _)⟩

end Rendezvous
