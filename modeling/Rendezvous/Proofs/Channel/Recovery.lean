import Rendezvous.Proofs.Channel.Output
import Rendezvous.Proofs.Channel.Reception
import Rendezvous.Proofs.Channel.Receivable
import Rendezvous.Proofs.Channel.Strays

/-!
# Rendezvous.Proofs.Channel.Recovery

**Messages survive garbage in front of them.** Where no frame is announced among the bytes that
come before the frames of some messages, nor by bytes of both, all of those bytes are dropped and
none of a frame (`segment_garbage_frames`). The rest is a matter of how the bytes come in:

* `Feed.hear` is a reassembly of any capacity that is drained after each read, and `Feed.Spent`
  holds of it after any number of them.
* `Reception.spent` says the same of a stream, as long as no read is the end of it: it fails of
  the protocol only with a frame that does not decode, and none of these frames is one.
* `messages_recovered` puts them together.
-/

namespace Rendezvous

/-! ### Cutting up frames with garbage before them -/

/-- A message has a frame of at most so many bytes. -/
def Message.Fits (capacity : Nat) (msg : Message) : Prop :=
  ∃ bytes, msg.encode = .ok bytes ∧ bytes.length ≤ capacity

variable {capacity : Nat} {msgs : List Message} {rest : Bytes}

/-- Frames are cut apart where they meet. -/
theorem segment_frames (h : ∀ msg ∈ msgs, msg.Fits capacity) :
    segment capacity (frames msgs) = ⟨msgs.map Message.frame, 0, []⟩ := by
  induction msgs with
  | nil => exact segment_of_headerMissing rfl _
  | cons msg msgs ih =>
      obtain ⟨⟨bytes, hencode, hfits⟩, hmore⟩ := List.forall_mem_cons.1 h
      have hlong : 8 ≤ bytes.length :=
        Nat.le_of_succ_le (Message.minFrameLength_le_of_encode hencode)
      rw [frames_cons, Message.frame_of_encode hencode,
        segment_frame hlong (frameStart_of_encode hencode hfits) (Nat.le_refl _), List.drop_length,
        List.nil_append, List.take_length, ih hmore, List.map_cons,
        Message.frame_of_encode hencode]
      rfl

/-- Bytes at which no frame is announced are dropped one by one. -/
theorem segment_clean {garbage : Bytes} (hlong : 8 ≤ rest.length)
    (hclean : ∀ i < garbage.length, ¬ announcesFrame capacity ((garbage ++ rest).drop i)) :
    segment capacity (garbage ++ rest) = (segment capacity rest).after [] garbage.length := by
  induction garbage with
  | nil => simp
  | cons byte garbage ih =>
      have hmore : ∀ i < garbage.length,
          ¬ announcesFrame capacity ((garbage ++ rest).drop i) := fun i hi => by
        simpa using hclean (i + 1) (Nat.succ_lt_succ hi)
      have hhead : ¬ announcesFrame capacity (byte :: garbage ++ rest) :=
        hclean 0 (Nat.zero_lt_succ _)
      have hheader : ¬ (byte :: garbage ++ rest).length < 8 := by
        simp only [List.length_append, List.length_cons]
        omega
      rw [segment, if_neg hheader, if_neg hhead]
      simp only [List.cons_append, List.drop_succ_cons, List.drop_zero]
      rw [ih hmore, Segmentation.after_after, List.length_cons, Nat.add_comm]
      rfl

/-- Garbage in front of frames is dropped, and the frames are cut apart. -/
theorem segment_garbage_frames {garbage : Bytes} (hsome : msgs ≠ [])
    (hfits : ∀ msg ∈ msgs, msg.Fits capacity)
    (hclean : ∀ i < garbage.length,
      ¬ announcesFrame capacity ((garbage ++ frames msgs).drop i)) :
    segment capacity (garbage ++ frames msgs) =
      ⟨msgs.map Message.frame, garbage.length, []⟩ := by
  have hlong : 8 ≤ (frames msgs).length := by
    obtain ⟨msg, more, rfl⟩ := List.exists_cons_of_ne_nil hsome
    obtain ⟨bytes, hencode, -⟩ := hfits msg (List.mem_cons_self ..)
    have hshortest : 9 ≤ bytes.length := Message.minFrameLength_le_of_encode hencode
    rw [frames_cons, Message.frame_of_encode hencode, List.length_append]
    omega
  rw [segment_clean hlong hclean, segment_frames hfits]
  simp [Segmentation.after]

/-- What is cut decodes to the messages. -/
theorem emitted_garbage_frames {garbage : Bytes} (hsome : msgs ≠ [])
    (hfits : ∀ msg ∈ msgs, msg.Fits capacity)
    (hclean : ∀ i < garbage.length,
      ¬ announcesFrame capacity ((garbage ++ frames msgs).drop i)) :
    (segment capacity (garbage ++ frames msgs)).emitted = msgs.map .ok := by
  rw [segment_garbage_frames hsome hfits hclean, Segmentation.emitted, List.map_map]
  refine List.map_congr_left fun msg hmsg => ?_
  obtain ⟨bytes, hencode, -⟩ := hfits msg hmsg
  simpa [Message.frame_of_encode hencode] using Message.decode_encode hencode

/-- What comes first of bytes whose frames all decode has no other frames. -/
theorem AllDecode.of_prefix {bytes total : Bytes} (h : AllDecode capacity total)
    (hfirst : bytes <+: total) : AllDecode capacity bytes := by
  obtain ⟨more, rfl⟩ := hfirst
  intro e he
  refine h e ?_
  rw [emitted_append]
  exact List.mem_append_left _ he

/-! ### A reassembly that is drained after each read -/

/-- Nothing has been taken in, and nothing cut. -/
theorem Reassembly.ofCapacity_eq (capacity : Nat) :
    Reassembly.ofCapacity capacity = .leftOver capacity [] := by
  have hempty : segment capacity [] = ⟨[], 0, []⟩ := segment_of_headerMissing rfl _
  rw [leftOver, hempty]
  rfl

namespace Feed

/-- Asks for frames until there is none. -/
def exhaust (feed : Feed) : Feed :=
  match _h : feed.reassembly.cut with
  | (none, rest) => { feed with reassembly := rest }
  | (some answer, rest) =>
    exhaust { feed with reassembly := rest, answers := feed.answers ++ [answer] }
termination_by feed.reassembly.size
decreasing_by exact Reassembly.size_cut_lt _h

/-- Takes in what a read answers and asks for all frames that it completes. -/
def hear (feed : Feed) : Except IoKind Bytes → Feed
  | .error _ => feed
  | .ok bytes => (feed.perform (.offer bytes)).exhaust

/-- A read can answer that it was interrupted or would have to wait, and otherwise answers some
bytes, no more than there is room for. -/
def Admits (feed : Feed) : Except IoKind Bytes → Prop
  | .error kind => kind.isHard = false
  | .ok bytes => bytes ≠ [] ∧ bytes.length ≤ feed.reassembly.room

/-- Every one of these answers can be given to a read. -/
def AdmitsAll (feed : Feed) : List (Except IoKind Bytes) → Prop
  | [] => True
  | answer :: answers => feed.Admits answer ∧ (feed.hear answer).AdmitsAll answers

instance (feed : Feed) (answer : Except IoKind Bytes) : Decidable (feed.Admits answer) :=
  match answer with
  | .error _ => inferInstanceAs (Decidable (_ = _))
  | .ok _ => inferInstanceAs (Decidable (_ ∧ _))

instance decidableAdmitsAll (feed : Feed) :
    (answers : List (Except IoKind Bytes)) → Decidable (feed.AdmitsAll answers)
  | [] => .isTrue trivial
  | answer :: answers =>
    have := decidableAdmitsAll (feed.hear answer) answers
    inferInstanceAs (Decidable (_ ∧ _))

/-- All that was taken in is cut up as far as it goes. -/
structure Spent (capacity : Nat) (feed : Feed) : Prop where
  hasCut : ∃ frames, HasCut capacity feed frames
  answers : feed.answers = (segment capacity feed.taken).emitted
  reassembly : feed.reassembly = .leftOver capacity feed.taken

theorem spent_start (capacity : Nat) : Spent capacity (start capacity) where
  hasCut := ⟨[], hasCut_start capacity⟩
  answers := by
    have hempty : segment capacity [] = ⟨[], 0, []⟩ := segment_of_headerMissing rfl _
    simp [start, hempty, Segmentation.emitted]
  reassembly := Reassembly.ofCapacity_eq capacity

/-- Asking until there is no frame comes to an end, where all is cut up. -/
theorem HasCut.exhaust {feed : Feed} {frames : List Bytes} (h : HasCut capacity feed frames) :
    Spent capacity feed.exhaust ∧ feed.exhaust.taken = feed.taken := by
  induction feed using exhaust.induct generalizing frames with
  | case1 feed rest hcut =>
      have hask : feed.perform .ask = { feed with reassembly := rest } := by simp [perform, hcut]
      have hend : feed.exhaust = { feed with reassembly := rest } := by
        rw [Feed.exhaust]
        split <;> simp_all
      obtain ⟨hanswers, hrest⟩ := h.drained (by rw [hcut])
      rw [hcut] at hrest
      rw [hend]
      exact ⟨⟨hask ▸ h.ask, hanswers, hrest⟩, rfl⟩
  | case2 feed answer rest hcut ih =>
      have hask : feed.perform .ask =
          { feed with reassembly := rest, answers := feed.answers ++ [answer] } := by
        simp [perform, hcut]
      have hmore : feed.exhaust = (feed.perform .ask).exhaust := by
        rw [Feed.exhaust, hask]
        split <;> simp_all
      obtain ⟨frames', h'⟩ := h.ask
      rw [hmore, hask]
      exact ih (hask ▸ h')

/-- What one read answers is taken in, all of it. -/
theorem Spent.hear {feed : Feed} (h : Spent capacity feed) {answer : Except IoKind Bytes}
    (hadmits : feed.Admits answer) :
    Spent capacity (feed.hear answer) ∧
      (feed.hear answer).taken = feed.taken ++ answer.toOption.getD [] := by
  cases answer with
  | error kind => exact ⟨h, (List.append_nil _).symm⟩
  | ok bytes =>
      obtain ⟨frames, hcut⟩ := h.hasCut
      obtain ⟨hspent, htaken⟩ := (hcut.offer bytes).exhaust
      refine ⟨hspent, htaken.trans ?_⟩
      rw [perform_offer, List.take_of_length_le hadmits.2]
      rfl

/-- What reads answer is taken in, all of it, however many there are. -/
theorem Spent.hearAll {feed : Feed} (h : Spent capacity feed)
    {answers : List (Except IoKind Bytes)} (hadmits : feed.AdmitsAll answers) :
    Spent capacity (answers.foldl Feed.hear feed) ∧
      (answers.foldl Feed.hear feed).taken =
        feed.taken ++ answers.flatMap fun answer => answer.toOption.getD [] := by
  induction answers generalizing feed with
  | nil => exact ⟨h, (List.append_nil _).symm⟩
  | cons answer answers ih =>
      obtain ⟨hfirst, hmore⟩ := hadmits
      obtain ⟨hspent, htaken⟩ := h.hear hfirst
      obtain ⟨hspent', htaken'⟩ := ih hspent hmore
      refine ⟨hspent', htaken'.trans ?_⟩
      rw [htaken, List.append_assoc, List.flatMap_cons]

end Feed

/-! ### A stream -/

namespace Reception

variable {id : StreamId} {hosts : List Host} {total : Bytes}

theorem run_snoc (id : StreamId) (hosts : List Host) (host : Host) :
    run id (hosts ++ [host]) = (run id hosts).pump host := by
  rw [run, List.foldl_append]
  rfl

theorem id_run (id : StreamId) (hosts : List Host) : (run id hosts).stream.id = id := by
  obtain ⟨scan, hscan⟩ := exists_scanned id hosts
  exact hscan.follows.id_eq

/-- The calls of one more read: what they brought in, and whether one of them was the end of the
stream. -/
theorem calls_pump (r : Reception) (host : Host) :
    ∃ new, (r.pump host).calls = r.calls ++ new ∧
      arrived r.stream.id new = r.stream.bytesIn host ∧
      ((∃ call ∈ new, call.ends r.stream.id = true) ↔
        endings r.stream.id host.calls <
          endings r.stream.id (r.stream.receive host).host.calls) := by
  obtain ⟨-, count, hcalls⟩ :=
    readUninterrupted_reads host r.stream.id r.stream.reassembly.room
  rw [← FramedStream.host_receive, List.append_assoc] at hcalls
  have harrived := arrived_receive r.stream host r.stream.id
  rw [if_pos rfl, hcalls, arrived_append] at harrived
  refine ⟨_, congrArg (r.calls ++ ·) (Host.callsSince_eq hcalls),
    List.append_cancel_left harrived, ?_⟩
  rw [hcalls]
  exact endings_lt_iff.symm

/-- **Until a stream ends, all that arrives on it is cut up**, if every frame of it decodes. -/
theorem spent (hdecode : AllDecode streamCapacity total)
    (hlive : ∀ call ∈ (run id hosts).calls, call.ends id = false)
    (harrived : arrived id (run id hosts).calls <+: total) :
    (run id hosts).stream.reassembly =
        .leftOver streamCapacity (arrived id (run id hosts).calls) ∧
      (segment streamCapacity (arrived id (run id hosts).calls)).emitted =
        (run id hosts).messages.map .ok ∧
      (run id hosts).failures = [] := by
  induction hosts using List.reverseRecOn with
  | nil => exact ⟨Reassembly.ofCapacity_eq _, (Feed.spent_start streamCapacity).answers.symm, rfl⟩
  | append_singleton hosts host ih =>
      rw [run_snoc] at hlive harrived ⊢
      obtain ⟨new, hcalls, hnew, hends⟩ := (run id hosts).calls_pump host
      rw [id_run] at hnew hends
      rw [hcalls] at hlive harrived
      rw [arrived_append, hnew] at harrived
      obtain ⟨hheld, hemitted, hfailures⟩ :=
        ih (fun call hcall => hlive call (List.mem_append_left _ hcall))
          ((List.prefix_append ..).trans harrived)
      -- The read does not fail, since neither the stream ends nor is there a frame to fail of.
      have hfine : ¬ ∃ e, ((run id hosts).stream.receive host).result = .error e := by
        rw [FramedStream.receive_error_iff, id_run, ← hends]
        rintro (⟨call, hcall, hend⟩ | ⟨-, e, he⟩)
        · exact absurd hend (by simp [hlive call (List.mem_append_right _ hcall)])
        · rw [hheld] at he
          refine hdecode.of_prefix harrived e ?_
          rw [emitted_append]
          exact List.mem_append_right _ he
      rcases FramedStream.receive_leftOver hheld host with hfailed | ⟨hheld', hemitted'⟩
      · exact absurd hfailed hfine
      · have hresult : ((run id hosts).pump host).failures = (run id hosts).failures := by
          cases h : ((run id hosts).stream.receive host).result with
          | ok outcome => simp [pump, h]
          | error e => exact absurd ⟨e, h⟩ hfine
        rw [hcalls, arrived_append, hnew, hresult]
        refine ⟨hheld', hemitted'.trans ?_, hfailures⟩
        rw [hemitted, ← List.map_append]
        rfl

end Reception

/-! ### Recovery -/

/-- **Valid messages are recovered, with or without garbage in front of them.** Take any bytes and
any messages whose frames fit, such that no frame is announced at any of those bytes. However the
bytes and the frames behind them are cut up into reads, a reassembly that is drained after each
read answers just the messages, in order; so does a stream, and none of its reads fails. The bytes
in front are dropped, as many as there are, and nothing is left over. -/
theorem messages_recovered {garbage : Bytes} (hsome : msgs ≠ [])
    (hfits : ∀ msg ∈ msgs, msg.Fits capacity)
    (hclean : ∀ i < garbage.length,
      ¬ announcesFrame capacity ((garbage ++ frames msgs).drop i)) :
    (∀ answers : List (Except IoKind Bytes), (Feed.start capacity).AdmitsAll answers →
      (answers.flatMap fun answer => answer.toOption.getD []) = garbage ++ frames msgs →
      let feed := answers.foldl Feed.hear (.start capacity)
      feed.answers = msgs.map .ok ∧ feed.reassembly.skipped = garbage.length ∧
        feed.reassembly.held = []) ∧
    (capacity = streamCapacity → ∀ id hosts,
      let r := Reception.run id hosts
      (∀ call ∈ r.calls, call.ends id = false) → arrived id r.calls = garbage ++ frames msgs →
      r.messages = msgs ∧ r.failures = [] ∧ r.stream.skipped = garbage.length ∧
        r.stream.reassembly.held = []) := by
  have hsegment := segment_garbage_frames hsome hfits hclean
  have hemitted := emitted_garbage_frames hsome hfits hclean
  refine ⟨fun answers hadmits hbytes => ?_, ?_⟩
  · obtain ⟨hspent, htaken⟩ := (Feed.spent_start capacity).hearAll hadmits
    rw [hbytes] at htaken
    change (answers.foldl Feed.hear (.start capacity)).taken = garbage ++ frames msgs at htaken
    refine ⟨?_, ?_, ?_⟩
    · rw [hspent.answers, htaken, hemitted]
    · rw [hspent.reassembly, htaken, Reassembly.leftOver, hsegment]
    · rw [hspent.reassembly, htaken, Reassembly.leftOver, hsegment]
  · rintro rfl id hosts r hlive harrived
    have hdecode : AllDecode streamCapacity (garbage ++ frames msgs) := by
      intro e he
      rw [hemitted] at he
      simp at he
    obtain ⟨hheld, hmessages, hfailures⟩ :=
      Reception.spent hdecode hlive (harrived ▸ List.prefix_refl _)
    rw [harrived] at hheld hmessages
    refine ⟨?_, hfailures, ?_, ?_⟩
    · have hsame : r.messages.map Except.ok = msgs.map (Except.ok (ε := CodecError)) :=
        hmessages.symm.trans hemitted
      exact (List.map_inj_right fun _ _ => Except.ok.inj).1 hsame
    · rw [FramedStream.skipped, hheld, Reassembly.leftOver, hsegment]
    · rw [hheld, Reassembly.leftOver, hsegment]

/-- The letters of a frame with an impossible length, and the first letters of the frame that
comes behind. -/
def misleading : Bytes := [0x54, 0x45, 0x4e, 0x54, 0, 0, 0, 3, 0x54, 0x45]

/-- Answers to reads that cut up these bytes and a frame behind them in the middle of both. -/
def misleadingReads : List (Except IoKind Bytes) :=
  [.error .interrupted, .ok (misleading.take 6), .error .wouldBlock,
    .ok (misleading.drop 6 ++ Message.keepAlive.frame.take 3),
    .ok (Message.keepAlive.frame.drop 3)]

/-- A system in which a stream has one of these answers in store. -/
def Host.withAnswer (answer : Except IoKind Bytes) : Host :=
  { Host.idle with
    streams :=
      match answer with
      | .ok bytes => [⟨[.data bytes], []⟩]
      | .error kind => [⟨[.fail kind], []⟩] }

theorem keepAlive_recovered :
    (misleadingReads.foldl Feed.hear (.start streamCapacity)).answers = [.ok .keepAlive] ∧
      (Reception.run ⟨0⟩ (misleadingReads.map .withAnswer)).messages = [.keepAlive] := by
  have hfits : ∀ msg ∈ [Message.keepAlive], msg.Fits streamCapacity :=
    List.forall_mem_singleton.2 ⟨Message.keepAlive.frame, by decide +kernel, by decide +kernel⟩
  obtain ⟨hfeed, hstream⟩ :=
    @messages_recovered _ _ misleading (by decide) hfits (by decide +kernel)
  have hanswers := hfeed misleadingReads (by decide +kernel) (by decide +kernel)
  have hmessages := hstream rfl ⟨0⟩ (misleadingReads.map .withAnswer) (by decide +kernel)
    (by decide +kernel)
  exact ⟨hanswers.1, hmessages.1⟩

end Rendezvous
