import RioIocpServer.ReceivePath
import RioIocpServer.RingBufferWrite

/-!
# The block copies of compaction

`AdjustPos` moves the bytes left in a receive buffer with `memcpy`, which allows no
overlap. Its copies are listed beside it. In the receive path they stay inside the
buffer, and the bytes left are moved in one copy; it overlaps its source whenever they
are more than the bytes in front of them, which no test keeps from happening.
-/

namespace RioIocpServer

open CyclicMemory FrameStream TransitionSystem

/-- What `memcpy` asks of a copy inside a memory. -/
structure BlockCopy.Respects (copy : BlockCopy) (length : ℤ) : Prop where
  /-- Source and destination are inside. -/
  inside : copy.Inside length length
  /-- They share no byte. -/
  disjoint : copy.size = 0 ∨ copy.dst + copy.size ≤ copy.src ∨ copy.src + copy.size ≤ copy.dst

namespace RingBuffer

variable {β : Type*}

/-- The copies `adjustPos` makes, in order. -/
def adjustCopies (rb : RingBuffer β) : List BlockCopy :=
  if rb.headPos ≥ rb.tailPos then
    let dataSize := rb.getDataSize
    if rb.headPos = rb.tailPos then []
    else if rb.getChunkWriteSize < rb.capacity / 3 then [⟨0, rb.tailPos, dataSize⟩]
    else []
  else
    let rDataSize := rb.capacity - rb.tailPos
    let lDataSize := rb.headPos
    [⟨rDataSize, 0, lDataSize⟩, ⟨0, rb.tailPos, rDataSize⟩]

section Copies

variable {rb : RingBuffer β}

/-- They are what `adjustPos` does to the memory. -/
theorem adjustPos_buffer (rb : RingBuffer β) : rb.adjustPos.buffer =
    rb.adjustCopies.foldl (fun m copy => memcpy m copy.dst copy.src copy.size) rb.buffer := by
  unfold adjustPos adjustCopies
  dsimp only
  repeat' split
  all_goals rfl

/-- None of them leaves the buffer. -/
theorem adjustCopies_inside (wf : rb.WellFormed) :
    ∀ copy ∈ rb.adjustCopies, copy.Inside rb.capacity rb.capacity := by
  have hcases := wf.head_cases
  have hs := wf.size_nonneg
  have hle := wf.size_le
  have ht := wf.tail_nonneg
  have htl := wf.tail_lt
  have hh := wf.head_bounds
  have hdata : rb.getDataSize = rb.size := rfl
  intro copy hmem
  unfold adjustCopies at hmem
  split at hmem
  · dsimp only at hmem
    split at hmem
    · cases hmem
    · split at hmem
      · obtain rfl := List.mem_singleton.mp hmem
        constructor <;> dsimp only <;> omega
      · cases hmem
  · rcases List.mem_pair.mp hmem with rfl | rfl
    · constructor <;> dsimp only <;> omega
    · constructor <;> dsimp only <;> omega

/-- Of data that does not pass the end and leaves room, they overlap exactly if the
compaction moves more bytes than are in front of the data. -/
theorem adjustCopies_respect_iff (wf : rb.WellFormed) (hend : rb.tailPos + rb.size ≤ rb.capacity)
    (hfree : rb.size < rb.capacity) : (∀ copy ∈ rb.adjustCopies, copy.Respects rb.capacity) ↔
      rb.size = 0 ∨ rb.size ≤ rb.tailPos ∨
        rb.capacity / 3 ≤ rb.capacity - (rb.tailPos + rb.size) := by
  have hcases := wf.head_cases
  have hs := wf.size_nonneg
  have ht := wf.tail_nonneg
  have htl := wf.tail_lt
  have hdata : rb.getDataSize = rb.size := rfl
  have hinside := adjustCopies_inside wf
  have hiff : (∀ copy ∈ rb.adjustCopies, copy.Respects rb.capacity) ↔
      ∀ copy ∈ rb.adjustCopies, copy.size = 0 ∨ copy.dst + copy.size ≤ copy.src ∨
        copy.src + copy.size ≤ copy.dst :=
    ⟨fun h copy hmem => (h copy hmem).disjoint,
      fun h copy hmem => ⟨hinside copy hmem, h copy hmem⟩⟩
  rw [hiff, adjustCopies]
  split
  · have hhead : rb.headPos = rb.tailPos + rb.size := by omega
    dsimp only
    split
    · simp only [List.not_mem_nil, false_implies, implies_true, true_iff]
      omega
    · rename_i hge _
      rw [getChunkWriteSize, if_pos hge]
      split
      · simp only [List.mem_singleton, forall_eq]
        omega
      · simp only [List.not_mem_nil, false_implies, implies_true, true_iff]
        omega
  · -- the data ends exactly at the end of the buffer and the head wrapped to 0
    simp only [List.mem_cons, List.not_mem_nil, or_false, forall_eq_or_imp, forall_eq]
    omega

end Copies

end RingBuffer

/-- The buffer `AdjustPos` is called on in `ProcessRecv`, if it comes to that. -/
def RecvSession.adjusted (onRecv : (ℤ → UInt8) → ℤ → Option (ℤ × List (List UInt8)))
    (s : RecvSession) (bytesTransferred : ℤ) : Option (RingBuffer UInt8) :=
  if bytesTransferred = 0 then none
  else
    match s.recvBuffer.onWriteBuffer bytesTransferred with
    | (false, _) => none
    | (true, written) =>
      let dataSize := written.getDataSize
      match onRecv (fun i => written.buffer (written.getReadOffset + i)) dataSize with
      | none => none
      | some (processLen, _) =>
        if processLen < 0 ∨ dataSize < processLen then none
        else
          match written.onReadBuffer processLen with
          | (false, _) => none
          | (true, consumed) => some consumed

namespace ReceivePath

/-- The buffer `AdjustPos` is called on in a step. -/
def adjusted (c : SessionClass) (s : RecvSession) (r : Receive) : Option (RingBuffer UInt8) :=
  match s.posted with
  | none => none
  | some window =>
    if window.length < r.segment.length then none
    else
      let buffer := store s.recvBuffer.buffer window.offset r.segment
      RecvSession.adjusted c.onRecv { s with recvBuffer := s.recvBuffer.withMemory buffer }
        r.segment.length

/-- The copies made in a step respect the contract of `memcpy`. -/
def Respects (c : SessionClass) (s : RecvSession) (r : Receive) : Prop :=
  ∀ rb, adjusted c s r = some rb → ∀ copy ∈ rb.adjustCopies, copy.Respects rb.capacity

/-- The bytes of the stream the session has when the receive completes. -/
def arrived (s : RecvSession) (r : Receive) : ℕ :=
  s.handled.flatten.length + s.recvBuffer.contents.length + r.segment.length

/-- The bytes of the frame that is cut then. -/
def unfinished (frames : List Frame) (s : RecvSession) (r : Receive) : ℕ :=
  arrived s r - (completeFrames (frameBytes frames) (arrived s r)).flatten.length

/-- The offset behind the bytes received. -/
def receivedEnd (s : RecvSession) (r : Receive) : ℤ :=
  s.recvBuffer.tailPos + s.recvBuffer.size + r.segment.length

/-- No byte of a frame is left cut, or a third of the buffer is free behind the bytes
received, or the cut frame is not longer than what is in front of it. -/
def Room (frames : List Frame) (s : RecvSession) (r : Receive) : Prop :=
  unfinished frames s r = 0 ∨
    unfinished frames s r ≤ receivedEnd s r - unfinished frames s r ∨
    bufferSize / 3 ≤ bufferSize - receivedEnd s r

instance (frames : List Frame) (s : RecvSession) (r : Receive) : Decidable (Room frames s r) :=
  inferInstanceAs (Decidable (_ ∨ _ ∨ _))

section Receives

variable {c : SessionClass} {frames : List Frame} {xs : List UInt8} {s : RecvSession}

/-- `ProcessRecv` on a receive that fits and an extraction that ends calls `AdjustPos`
on the bytes left. -/
theorem adjusted_done {onRecv : (ℤ → UInt8) → ℤ → Option (ℤ × List (List UInt8))} {n k : ℤ}
    {packets : List (List UInt8)} (hn : n ≠ 0) (hfree : n ≤ s.recvBuffer.getFreeSize)
    (hrecv : onRecv (fun i => s.recvBuffer.buffer (s.recvBuffer.tailPos + i))
      (s.recvBuffer.size + n) = some (k, packets))
    (h0 : 0 ≤ k) (h1 : k ≤ s.recvBuffer.size + n) :
    RecvSession.adjusted onRecv s n = some ((s.recvBuffer.advanceHead n).advanceTail k) := by
  simp only [RecvSession.adjusted, if_neg hn, RingBuffer.onWriteBuffer_eq hfree]
  have hrecv' : onRecv (fun i => (s.recvBuffer.advanceHead n).buffer
      ((s.recvBuffer.advanceHead n).getReadOffset + i))
      (s.recvBuffer.advanceHead n).getDataSize = some (k, packets) := hrecv
  have hdata : (s.recvBuffer.advanceHead n).getDataSize = s.recvBuffer.size + n := rfl
  simp only [hrecv']
  rw [if_neg (by omega), RingBuffer.onReadBuffer_eq h1]

/-- In a receive that fits, the buffer adjusted holds the unfinished bytes, and they end
where the bytes received do. -/
theorem adjusted_eq (inv : Inv c frames xs s) {r : Receive} (hfit : Fits s r)
    (hstream : xs ++ r.segment <+: (frameBytes frames).flatten) :
    ∃ rb, adjusted c s r = some rb ∧ rb.WellFormed ∧ rb.capacity = bufferSize ∧
      rb.size = unfinished frames s r ∧ rb.size < rb.capacity ∧
      (rb.size = 0 ∨ rb.tailPos + rb.size = receivedEnd s r) ∧
      rb.tailPos + rb.size ≤ rb.capacity := by
  obtain ⟨window, hw, hpos, hle⟩ := hfit
  obtain ⟨hc, herr, rfl⟩ := inv.posted_eq window hw
  obtain ⟨rest, hrest⟩ := frames_left inv.handled_eq
  obtain ⟨wf, hend, hcont⟩ := filled_buffer inv hle
  have hadjusted : adjusted c s r =
      RecvSession.adjusted c.onRecv (filled s r.segment) r.segment.length := by
    simp only [adjusted, filled, hw]
    exact if_neg (not_lt.mpr hle)
  have hpre := hstream
  rw [← inv.contents_eq, hrest, List.flatten_append, List.append_assoc] at hpre
  have hpre := tail_of_append hpre
  obtain ⟨hhandled, -⟩ := completeFrames_step s.handled hpre
  generalize hdone :
    completeFrames (frameBytes rest) (s.recvBuffer.contents ++ r.segment).length = done at *
  obtain ⟨hx, hlen, hk, hkept⟩ :=
    onRecv_stored c (filled s r.segment) inv.capacity_eq wf hend hcont hpre hdone
  have hsize : (filled s r.segment).recvBuffer.size = s.recvBuffer.size := rfl
  have hcap : s.recvBuffer.capacity = 65536 := inv.capacity_eq
  have ht := inv.wellFormed.tail_nonneg
  have hfull : (filled s r.segment).recvBuffer.size + r.segment.length ≤
      s.recvBuffer.capacity := wf.size_le
  have hk' : (done.flatten.length : ℤ) ≤
      (filled s r.segment).recvBuffer.size + r.segment.length := by omega
  have hfits : (r.segment.length : ℤ) ≤ (filled s r.segment).recvBuffer.getFreeSize := by
    show (r.segment.length : ℤ) ≤ s.recvBuffer.capacity - s.recvBuffer.size
    omega
  have hadv := RingBuffer.contents_advanceTail wf hend (Int.natCast_nonneg _) hk'
  have hleft : s.recvBuffer.size + r.segment.length - done.flatten.length =
      (unfinished frames s r : ℤ) := by
    have harrived : (s.handled.flatten ++ s.recvBuffer.contents ++ r.segment).length =
        arrived s r := by
      rw [List.length_append, List.length_append, arrived]
    rw [unfinished, hrest, ← harrived, ← hhandled, List.flatten_append, List.length_append]
    rw [List.length_append] at hlen hk
    simp only [List.length_append]
    omega
  refine ⟨_, hadjusted.trans (adjusted_done (by omega) hfits hx (Int.natCast_nonneg _) hk'),
    wf.advanceTail (Int.natCast_nonneg _) hk', inv.capacity_eq, hleft, ?_, ?_, hadv.2⟩
  · show s.recvBuffer.size + r.segment.length - done.flatten.length < s.recvBuffer.capacity
    omega
  · show s.recvBuffer.size + r.segment.length - done.flatten.length = 0 ∨
      (s.recvBuffer.tailPos + done.flatten.length) % s.recvBuffer.capacity +
        (s.recvBuffer.size + r.segment.length - done.flatten.length) = receivedEnd s r
    by_cases hz : s.recvBuffer.size + r.segment.length - done.flatten.length = 0
    · exact .inl hz
    · rw [Int.emod_eq_of_lt (by omega) (by omega), receivedEnd]
      omega

/-- In a receive that fits, the copies respect the contract exactly if there is room. -/
theorem respects_iff_room (inv : Inv c frames xs s) {r : Receive} (hfit : Fits s r)
    (hstream : xs ++ r.segment <+: (frameBytes frames).flatten) :
    Respects c s r ↔ Room frames s r := by
  obtain ⟨rb, hrb, wf, hcap, hsize, hfree, htail, hend⟩ := adjusted_eq inv hfit hstream
  have hiff := RingBuffer.adjustCopies_respect_iff wf hend hfree
  have hrespects : Respects c s r ↔ ∀ copy ∈ rb.adjustCopies, copy.Respects rb.capacity := by
    rw [Respects, hrb]
    simp only [Option.some.injEq, forall_eq']
  rw [hrespects, hiff, Room, hcap]
  omega

/-- Conditions that agree on the receives of a stream agree along every schedule. -/
theorem stepsMeet_congr {ok ok' : RecvSession → Receive → Prop} (rs : List Receive)
    (hok : ∀ {s xs r}, Inv c frames xs s → Fits s r →
      xs ++ r.segment <+: (frameBytes frames).flatten → (ok s r ↔ ok' s r))
    (inv : Inv c frames xs s) (hfit : StepsMeet (step c) Fits s rs)
    (hstream : xs ++ received rs <+: (frameBytes frames).flatten) :
    StepsMeet (step c) ok s rs ↔ StepsMeet (step c) ok' s rs := by
  induction rs generalizing s xs with
  | nil => exact Iff.rfl
  | cons r rs ih =>
    have hsplit : xs ++ received (r :: rs) = xs ++ r.segment ++ received rs := by
      rw [received, List.map_cons, List.flatten_cons, List.append_assoc, received]
    rw [hsplit] at hstream
    have hfirst := (List.prefix_append _ _).trans hstream
    obtain ⟨m, hm, inv'⟩ := inv_step inv hfit.1 hfirst
    have hrest := ih inv' (hfit.2 m hm) hstream
    have hnext : ∀ ok : RecvSession → Receive → Prop,
        (∀ s', step c s r = some s' → StepsMeet (step c) ok s' rs) ↔
          StepsMeet (step c) ok m rs := by
      intro ok
      rw [hm]
      simp only [Option.some.injEq, forall_eq']
    simp only [StepsMeet, hnext, hok inv hfit.1 hfirst, hrest]

/-- Frames of at most 21847 bytes always leave room. -/
theorem room_of_short (hshort : ∀ f ∈ frames, f.bytes.length ≤ 21847)
    (inv : Inv c frames xs s) {r : Receive}
    (hstream : xs ++ r.segment <+: (frameBytes frames).flatten) : Room frames s r := by
  have harrived : arrived s r = (xs ++ r.segment).length := by
    rw [arrived, ← inv.contents_eq, List.length_append, List.length_append]
  have hle : arrived s r ≤ (frameBytes frames).flatten.length := harrived ▸ hstream.length_le
  have hleft : arrived s r <
      (completeFrames (frameBytes frames) (arrived s r)).flatten.length + 21847 := by
    refine remainder_lt (by omega) ?_ hle
    intro f hf
    obtain ⟨frame, hmem, rfl⟩ := List.mem_map.mp hf
    exact hshort frame hmem
  have hthird : bufferSize / 3 = 21845 := by decide
  have hbuffer : bufferSize = 65536 := rfl
  have hunfinished : unfinished frames s r < 21847 := by
    rw [unfinished]
    omega
  rw [Room, hthird, hbuffer]
  omega

end Receives

/-- What `ProcessRecv` has done where it calls `AdjustPos`. -/
theorem adjusted_eq_some {onRecv : (ℤ → UInt8) → ℤ → Option (ℤ × List (List UInt8))} {n : ℤ}
    {rb : RingBuffer UInt8} (h : RecvSession.adjusted onRecv s n = some rb) :
    n ≠ 0 ∧ ∃ written processLen packets, s.recvBuffer.onWriteBuffer n = (true, written) ∧
      onRecv (fun i => written.buffer (written.getReadOffset + i)) written.getDataSize =
        some (processLen, packets) ∧
      ¬ (processLen < 0 ∨ written.getDataSize < processLen) ∧
      written.onReadBuffer processLen = (true, rb) := by
  simp only [RecvSession.adjusted] at h
  split at h
  · cases h
  · refine ⟨‹_›, ?_⟩
    split at h
    · cases h
    · rename_i written hwrite
      split at h
      · cases h
      · rename_i processLen packets hrecv
        split at h
        · cases h
        · refine ⟨written, processLen, packets, hwrite, hrecv, ‹_›, ?_⟩
          split at h <;> cases h
          assumption

/-- `ProcessRecv` leaves the buffer as `AdjustPos` and `RegisterRecv` do. -/
theorem processRecv_recvBuffer {zeroBytes overflow readError : String}
    {onRecv : (ℤ → UInt8) → ℤ → Option (ℤ × List (List UInt8))}
    {registerRecv : RecvSession → Bool → RecvSession}
    (hregister : ∀ s accepted, (registerRecv s accepted).recvBuffer = s.recvBuffer)
    {s' : RecvSession} {n : ℤ} {accepted : Bool} {rb : RingBuffer UInt8}
    (hrb : RecvSession.adjusted onRecv s n = some rb)
    (hs : RecvSession.processRecv zeroBytes overflow readError onRecv registerRecv s n accepted =
      some s') : s'.recvBuffer = rb.adjustPos := by
  obtain ⟨hn, written, processLen, packets, hwrite, hrecv, hlen, hread⟩ := adjusted_eq_some hrb
  simp only [RecvSession.processRecv, if_neg hn, hwrite, hrecv, if_neg hlen, hread] at hs
  cases hs
  exact hregister _ accepted

/-- `RegisterRecv` of either class leaves the buffer. -/
theorem registerRecv_recvBuffer (c : SessionClass) (s : RecvSession) (accepted : Bool) :
    (c.registerRecv s accepted).recvBuffer = s.recvBuffer := by
  cases c with
  | rio =>
    simp only [SessionClass.registerRecv, RioSession.registerRecv]
    split
    · rfl
    · split <;> rfl
  | iocp =>
    simp only [SessionClass.registerRecv, IocpSession.registerRecv]
    split
    · rfl
    · split <;> rfl

/-- Where `AdjustPos` is called, its result is the receive buffer behind the step. -/
theorem recvBuffer_step (c : SessionClass) {s s' : RecvSession} {r : Receive}
    {rb : RingBuffer UInt8} (hrb : adjusted c s r = some rb) (hs : step c s r = some s') :
    s'.recvBuffer = rb.adjustPos := by
  simp only [adjusted] at hrb
  simp only [step] at hs
  cases hw : s.posted with
  | none =>
    rw [hw] at hrb
    cases hrb
  | some window =>
    rw [hw] at hrb hs
    dsimp only at hrb hs
    split at hrb
    · cases hrb
    · rw [if_neg ‹_›] at hs
      cases c
      · exact processRecv_recvBuffer (registerRecv_recvBuffer .rio) hrb hs
      · exact processRecv_recvBuffer (registerRecv_recvBuffer .iocp) hrb hs

/-- For every stream of frames and every way its bytes arrive in receives that fit the
posted windows: the copies of `AdjustPos` respect the contract of `memcpy` throughout
exactly if in every receive there is room. -/
theorem compaction_respects_iff (c : SessionClass) (memory : ℤ → UInt8) (accepted : Bool)
    (frames : List Frame) (rs : List Receive)
    (hfit : StepsMeet (step c) Fits (start c memory accepted) rs)
    (hstream : received rs <+: (frameBytes frames).flatten) :
    StepsMeet (step c) (Respects c) (start c memory accepted) rs ↔
      StepsMeet (step c) (Room frames) (start c memory accepted) rs :=
  stepsMeet_congr rs (fun inv hfit hstream => respects_iff_room inv hfit hstream)
    (inv_start c frames memory accepted) hfit (by rwa [List.nil_append])

/-- A packet that is cut in its header is compacted without overlap. -/
theorem compaction_respects_cut :
    StepsMeet (step .iocp) (Respects .iocp) (start .iocp (fun _ => 0) true) cutReceives :=
  (compaction_respects_iff .iocp (fun _ => 0) true [helloFrame] cutReceives cutReceives_fit
    (by decide)).mpr (by decide)

/-- Frames of at most 21847 bytes never break the contract. -/
theorem compaction_respects_of_short (c : SessionClass) (memory : ℤ → UInt8) (accepted : Bool)
    (frames : List Frame) (hshort : ∀ f ∈ frames, f.bytes.length ≤ 21847) (rs : List Receive)
    (hfit : StepsMeet (step c) Fits (start c memory accepted) rs)
    (hstream : received rs <+: (frameBytes frames).flatten) :
    StepsMeet (step c) (Respects c) (start c memory accepted) rs := by
  refine (stepsMeet_congr rs (fun inv hfit hstream => ?_) (inv_start c frames memory accepted)
    hfit (by rwa [List.nil_append])).mpr stepsMeet_true
  exact (respects_iff_room inv hfit hstream).trans
    ⟨fun _ => trivial, fun _ => room_of_short hshort inv hstream⟩

/-- A packet of some length, with nothing but zeros behind its header. -/
def zeroFrame (n : ℕ) (h : n < 65532) : Frame :=
  .ofMessage (List.replicate n 0) 1 (by rwa [List.length_replicate])

/-- Its length. -/
theorem zeroFrame_length (n : ℕ) (h : n < 65532) : (zeroFrame n h).bytes.length = n + 4 := by
  rw [zeroFrame, Frame.ofMessage, createNetBuffer_length, List.length_replicate]

/-- A packet of 100 bytes and one of the greatest size. -/
def longFrames : List Frame := [zeroFrame 96 (by decide), zeroFrame 65531 (by decide)]

/-- The first and 60000 bytes of the second in one receive. -/
def longReceive : Receive := ⟨(frameBytes longFrames).flatten.take 60100, true⟩

/-- The receive has 60100 bytes. -/
theorem longReceive_length : longReceive.segment.length = 60100 := by
  simp [longReceive, longFrames, frameBytes, zeroFrame_length]

/-- Of the second packet 60000 bytes are left cut. -/
theorem unfinished_longReceive (c : SessionClass) :
    unfinished longFrames (start c (fun _ => 0) true) longReceive = 60000 := by
  have hempty : (start c (fun _ => 0) true).recvBuffer.contents = [] := by cases c <;> rfl
  have hnone : (start c (fun _ => 0) true).handled = [] := by cases c <;> rfl
  have harrived : arrived (start c (fun _ => 0) true) longReceive = 60100 := by
    rw [arrived, hempty, hnone, longReceive_length]
    rfl
  have hfirst := zeroFrame_length 96 (by decide)
  have hsecond := zeroFrame_length 65531 (by decide)
  rw [unfinished, harrived, longFrames, frameBytes, List.map_cons, List.map_cons,
    completeFrames_cons_of_le _ (by omega), completeFrames_cons_of_lt _ (by omega),
    List.flatten_singleton, hfirst]

/-- Compacting them overlaps: they are moved by 100 bytes in one `memcpy`. -/
theorem longReceive_overlaps :
    ¬ StepsMeet (step .rio) (Respects .rio) (start .rio (fun _ => 0) true) [longReceive] ∧
    ¬ StepsMeet (step .iocp) (Respects .iocp) (start .iocp (fun _ => 0) true) [longReceive] := by
  have hoverlap : ∀ c : SessionClass, ¬ Respects c (start c (fun _ => 0) true) longReceive := by
    intro c
    have hwindow : (start c (fun _ => 0) true).posted = some ⟨0, 65536⟩ := by cases c <;> rfl
    have hend : receivedEnd (start c (fun _ => 0) true) longReceive = 60100 := by
      rw [receivedEnd, longReceive_length]
      cases c <;> rfl
    have hthird : bufferSize / 3 = 21845 := by decide
    have hbuffer : bufferSize = 65536 := rfl
    rw [respects_iff_room (inv_start c longFrames (fun _ => 0) true)
      ⟨_, hwindow, by rw [longReceive_length]; omega, by rw [longReceive_length]; decide⟩
      (by rw [List.nil_append]; exact List.take_prefix _ _), Room, unfinished_longReceive, hend,
      hthird, hbuffer]
    omega
  exact ⟨fun h => hoverlap .rio h.1, fun h => hoverlap .iocp h.1⟩

end ReceivePath

end RioIocpServer
