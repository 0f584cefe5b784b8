import Rendezvous.Proofs.Channel.Rounds
import Rendezvous.Proofs.Channel.Faults
import Rendezvous.Proofs.Host.Added
import Mathlib.Data.List.Induction

/-!
# Rendezvous.Proofs.Channel.Reception

**A live stream is never taken for a closed one.** A read into no room at all gets nothing, which
looks like the end of the stream. A `Reception` is a stream that is read again and again, each
time with the system in any state, and also after reads that failed. Every one of its reads has
room: the searches that follow a read leave some.

* `readUninterrupted_reads`: one reading is one call of the system that is answered, after any
  number that were interrupted, all of them into the same room.
* `Scanned` follows a reception with the loops of `Scan`, which remember the length of the frame
  at the head. `Scanned.sound` is the invariant, and it also says that the two never differ.
* `Reception.reads_with_room` puts them together.
-/

namespace Rendezvous

/-! ### One reading -/

/-- A reading is one call that is answered, after any number that were interrupted. -/
theorem readUninterrupted_reads (host : Host) (id : StreamId) (room : Nat) :
    (host.readUninterrupted id room).1 ≠ .error .interrupted ∧
      ∃ count, (host.readUninterrupted id room).2.calls =
        host.calls ++ List.replicate count (.read id room (.error .interrupted)) ++
          [.read id room (host.readUninterrupted id room).1] :=
  retry_exact (fun host => host.readsLeft id) (fun host => host.calls_read id room)
    (fun _ _ => readsLeft_read) (Nat.le_refl _)

/-- No reading gives more than there is room for. -/
theorem length_readUninterrupted_le {host : Host} {id : StreamId} {room : Nat} {bytes : Bytes}
    (h : (host.readUninterrupted id room).1 = .ok bytes) : bytes.length ≤ room := by
  obtain ⟨state, hstate⟩ := retry_answer (fun host => host.read id room)
    (host.script id).reads.length host
  exact length_readScript_le (Prod.ext (hstate.symm.trans h) rfl)

namespace FramedStream

variable {stream : FramedStream} {host : Host}

theorem length_bytesIn_le (stream : FramedStream) (host : Host) :
    (stream.bytesIn host).length ≤ stream.reassembly.room := by
  unfold bytesIn
  cases h : (host.readUninterrupted stream.id stream.reassembly.room).1 with
  | error kind => exact Nat.zero_le _
  | ok bytes => exact length_readUninterrupted_le h

/-- A read that gets no bytes leaves a stream as it is. -/
theorem receive_of_bytesIn_eq_nil (h : stream.bytesIn host = []) :
    (stream.receive host).stream = stream ∧ (stream.receive host).frames = [] := by
  unfold bytesIn at h
  unfold receive
  split
  next => exact ⟨rfl, rfl⟩
  next => exact ⟨rfl, rfl⟩
  next => exact ⟨rfl, rfl⟩
  next hempty heq =>
    rw [heq] at h
    exact absurd h hempty

/-- A read that gets bytes drains what is held with them. -/
theorem receive_of_bytesIn_ne_nil (h : stream.bytesIn host ≠ []) :
    let drained := (stream.reassembly.append (stream.bytesIn host)).drain
    (stream.receive host).stream = { stream with reassembly := drained.rest } ∧
      (stream.receive host).frames = drained.frames ∧
      (stream.receive host).result =
        match drained.failure with
        | some e => .error (.protocol e)
        | none => .ok (.read (stream.bytesIn host).length) := by
  have hbytes : stream.bytesIn host =
    ((host.readUninterrupted stream.id stream.reassembly.room).1.toOption).getD [] := rfl
  unfold receive
  split
  next heq => simp [hbytes, heq, Except.toOption] at h
  next heq => simp [hbytes, heq, Except.toOption] at h
  next heq => simp [hbytes, heq, Except.toOption] at h
  next bytes _ _ heq =>
    obtain rfl : stream.bytesIn host = bytes := by simp [hbytes, heq, Except.toOption]
    exact ⟨rfl, rfl, rfl⟩

/-- A read finds a stream closed when it gets the answer that there is nothing. -/
theorem receive_closed_iff (stream : FramedStream) (host : Host) :
    (stream.receive host).result = .error .closed ↔
      (host.readUninterrupted stream.id stream.reassembly.room).1 = .ok [] := by
  unfold receive
  split
  next heq => simp [heq]
  next heq => simp [heq]
  next heq => simp [heq]
  next bytes _ hempty heq =>
    rw [heq]
    refine iff_of_false (fun h => ?_) fun h => hempty (Except.ok.inj h)
    simp only at h
    split at h <;> cases h

end FramedStream

/-! ### Many readings -/

/-- A stream that has been read any number of times, with what came of it. -/
structure Reception where
  stream : FramedStream
  /-- The calls that reading it took. -/
  calls : List Call
  messages : List Message
  failures : List ChannelFailure

namespace Reception

/-- A fresh stream. -/
def start (id : StreamId) : Reception := ⟨.ofStream id, [], [], []⟩

/-- Reads once more, also after a read that failed. -/
def pump (r : Reception) (host : Host) : Reception :=
  let received := r.stream.receive host
  { stream := received.stream
    calls := r.calls ++ host.callsSince received.host
    messages := r.messages ++ received.frames
    failures := r.failures ++
      match received.result with
      | .ok _ => []
      | .error e => [e] }

/-- A stream that has been read with the system in these states, one after the other. -/
def run (id : StreamId) (hosts : List Host) : Reception := hosts.foldl pump (start id)

end Reception

/-! ### Many readings, in rounds -/

/-- The bytes that one read gets into the room that a scan leaves. -/
def Scan.bytesIn (id : StreamId) (scan : Scan) (host : Host) : Bytes :=
  ((host.readUninterrupted id scan.reassembly.room).1.toOption).getD []

/-- A reception followed with a scan: a read that gets bytes searches them round by round, with
what is remembered from the reads before. -/
inductive Scanned (id : StreamId) : Reception → Scan → Prop where
  | start : Scanned id (.start id) ⟨.ofCapacity streamCapacity, none⟩
  | idle {r : Reception} {scan : Scan} {host : Host} (h : Scanned id r scan)
      (hnone : scan.bytesIn id host = []) : Scanned id (r.pump host) scan
  | read {r : Reception} {scan next : Scan} {host : Host} {visited : List Scan}
      {msgs : List Message} {failure : Option CodecError} (h : Scanned id r scan)
      (hsome : scan.bytesIn id host ≠ [])
      (hdrains : Scan.Drains ⟨scan.reassembly.append (scan.bytesIn id host), scan.target⟩
        visited msgs failure next) : Scanned id (r.pump host) next

/-- No more is held than a stream has room for, and a length that is remembered is that of a frame
that can become complete. -/
def Scan.InBounds (scan : Scan) : Prop :=
  scan.reassembly.size ≤ streamCapacity ∧
    ∀ n, scan.target = some n → minFrameLength ≤ n ∧ n ≤ streamCapacity

theorem Scan.Sound.inBounds {scan : Scan} (h : scan.Sound streamCapacity) : scan.InBounds :=
  ⟨h.size_le, fun _ hn => h.bounds hn⟩

/-- What the searches keep true of a stream that is read again and again. -/
structure Scan.Follows (id : StreamId) (scan : Scan) (stream : FramedStream) : Prop where
  id_eq : stream.id = id
  same : scan.reassembly = stream.reassembly
  sound : scan.Sound streamCapacity
  spare : scan.reassembly.size < streamCapacity

namespace Scan.Follows

variable {id : StreamId} {scan : Scan} {stream : FramedStream}

theorem start (id : StreamId) :
    Follows id ⟨.ofCapacity streamCapacity, none⟩ (.ofStream id) :=
  ⟨rfl, rfl, .of_reassembly rfl (Nat.zero_le _), by decide⟩

theorem bytesIn_eq (h : Follows id scan stream) (host : Host) :
    scan.bytesIn id host = stream.bytesIn host := by
  rw [bytesIn, FramedStream.bytesIn, h.same, h.id_eq]

/-- What a read gets fits, and a length that is remembered stays true with it. -/
theorem sound_append (h : Follows id scan stream) (host : Host) :
    Sound streamCapacity ⟨scan.reassembly.append (stream.bytesIn host), scan.target⟩ :=
  h.sound.append (h.same ▸ stream.length_bytesIn_le host)

/-- A read that gets nothing changes nothing. -/
theorem idle (h : Follows id scan stream) {host : Host} (hnone : stream.bytesIn host = []) :
    Follows id scan (stream.receive host).stream := by
  rwa [(FramedStream.receive_of_bytesIn_eq_nil hnone).1]

/-- The searches after a read leave room for the next one. -/
theorem read (h : Follows id scan stream) {host : Host} (hsome : stream.bytesIn host ≠ []) :
    Follows id (afterDrain (scan.reassembly.append (stream.bytesIn host)))
      (stream.receive host).stream := by
  have hsound := h.sound_append host
  have hcapacity : (scan.reassembly.append (stream.bytesIn host)).capacity = streamCapacity :=
    hsound.capacity_eq
  rw [(FramedStream.receive_of_bytesIn_ne_nil hsome).1, ← h.same]
  refine ⟨h.id_eq, rfl, sound_afterDrain hsound, ?_⟩
  have hspare := Reassembly.size_rest_drain_lt
    (r := scan.reassembly.append (stream.bytesIn host)) (hcapacity ▸ by decide)
    (hcapacity ▸ hsound.size_le)
  exact hcapacity ▸ hspare

end Scan.Follows

/-- **What is followed is followed truly**, for any number of reads. -/
theorem Scanned.follows {id : StreamId} {r : Reception} {scan : Scan} (h : Scanned id r scan) :
    scan.Follows id r.stream := by
  induction h with
  | start => exact .start id
  | idle _ hnone ih => exact ih.idle (ih.bytesIn_eq _ ▸ hnone)
  | read _ hsome hdrains ih =>
      rw [ih.bytesIn_eq] at hsome hdrains
      obtain ⟨visited, hdrains', -, -⟩ := Scan.drains_drain (ih.sound_append _)
      obtain ⟨-, -, rfl⟩ := hdrains.unique hdrains'
      exact ih.read hsome

/-- Every reception can be followed. -/
theorem exists_scanned (id : StreamId) (hosts : List Host) :
    ∃ scan, Scanned id (.run id hosts) scan := by
  induction hosts using List.reverseRecOn with
  | nil => exact ⟨_, .start⟩
  | append_singleton hosts host ih =>
      obtain ⟨scan, hscan⟩ := ih
      rw [Reception.run, List.foldl_append]
      by_cases hbytes : scan.bytesIn id host = []
      · exact ⟨scan, hscan.idle hbytes⟩
      · have hfollows := hscan.follows
        obtain ⟨visited, hdrains, -, -⟩ := Scan.drains_drain (hfollows.sound_append host)
        rw [← hfollows.bytesIn_eq] at hdrains
        exact ⟨_, hscan.read hbytes hdrains⟩

namespace Reception

/-- **Every read has room, and the searches that follow it end.** However often a stream has been
read, with the system in any states and also after reads that failed, the next read is one of the
calls into the same room, which is not empty; so it finds the stream closed only when the stream
answers that there is nothing. What it gets fits behind what is held. The searches for frames come
to what the read answers after no more rounds than there are bytes and one; at each round no more
is held than there is room for in all, and a length that is remembered is that of a frame that can
become complete. -/
theorem reads_with_room (id : StreamId) (hosts : List Host) (host : Host) :
    let r := run id hosts
    let room := r.stream.reassembly.room
    let bytes := r.stream.bytesIn host
    let received := r.stream.receive host
    (0 < room ∧ r.stream.reassembly.size + room = streamCapacity ∧
      r.stream.reassembly.size + bytes.length ≤ streamCapacity ∧
      received.stream.reassembly.size < streamCapacity) ∧
    (∃ count answer,
      received.host.calls = host.calls ++
        List.replicate count (.read id room (.error .interrupted)) ++ [.read id room answer] ∧
      answer ≠ .error .interrupted ∧ (received.result = .error .closed ↔ answer = .ok [])) ∧
    (∃ scan, Scanned id r scan) ∧
    ∀ scan, Scanned id r scan → scan.reassembly = r.stream.reassembly ∧ scan.InBounds ∧
      (bytes ≠ [] → ∃ visited failure last,
        Scan.Drains ⟨scan.reassembly.append bytes, scan.target⟩ visited received.frames failure
          last ∧
        (last.reassembly = received.stream.reassembly ∧
          received.result =
            match failure with
            | some e => .error (.protocol e)
            | none => .ok (.read bytes.length)) ∧
        visited.length ≤ r.stream.reassembly.size + bytes.length + 1 ∧
        ∀ s ∈ last :: visited, s.InBounds) := by
  intro r room bytes received
  obtain ⟨scan, hscan⟩ := exists_scanned id hosts
  have hfollows := hscan.follows
  have hfits : bytes.length ≤ room := r.stream.length_bytesIn_le host
  have hspare : r.stream.reassembly.size < streamCapacity := hfollows.same ▸ hfollows.spare
  have hroom : room = streamCapacity - r.stream.reassembly.size := by
    rw [← hfollows.sound.capacity_eq, hfollows.same]
    rfl
  refine ⟨⟨by omega, by omega, by omega, ?_⟩, ?_, ⟨scan, hscan⟩, fun scan hscan => ?_⟩
  · -- What was remembered so far does not matter for what is left after the read.
    by_cases hbytes : bytes = []
    · have hidle := hfollows.idle hbytes
      exact hidle.same ▸ hidle.spare
    · have hread := hfollows.read hbytes
      exact hread.same ▸ hread.spare
  · obtain ⟨hanswer, count, hcalls⟩ := readUninterrupted_reads host r.stream.id room
    refine ⟨count, (host.readUninterrupted r.stream.id room).1, ?_, hanswer,
      r.stream.receive_closed_iff host⟩
    rw [FramedStream.host_receive, hcalls, hfollows.id_eq]
  · have hfollows := hscan.follows
    refine ⟨hfollows.same, hfollows.sound.inBounds, fun hbytes => ?_⟩
    have hsound := hfollows.sound_append host
    obtain ⟨visited, hdrains, hlength, hvisited⟩ := Scan.drains_drain hsound
    obtain ⟨hstream, hframes, hresult⟩ := FramedStream.receive_of_bytesIn_ne_nil hbytes
    rw [← hfollows.same] at hstream hframes hresult
    refine ⟨visited, _, Scan.afterDrain (scan.reassembly.append bytes), ?_, ⟨?_, hresult⟩, ?_, ?_⟩
    · exact hframes ▸ hdrains
    · exact (congrArg FramedStream.reassembly hstream).symm
    · rw [hfollows.same] at hlength
      simpa [Reassembly.size, Reassembly.append] using hlength
    · intro s hs
      rcases List.mem_cons.1 hs with rfl | hs
      · exact (Scan.sound_afterDrain hsound).inBounds
      · exact (hvisited s hs).inBounds

end Reception
end Rendezvous
