import RioIocpServer.RingBuffer

/-!
# Reading from the ring buffer

The copy loop of `ReadBuffer` finds its chunks from head and tail alone. Where they
meet it finds nothing to copy, which is right for an empty buffer and makes no
progress in a full one. In every other state a read takes the oldest bytes in at
most two chunks. `none` is a loop that is still running when its fuel is used up;
every pass before the last one copies at least a byte, or no pass ever does.
-/

namespace RioIocpServer.RingBuffer

open CyclicMemory

variable {β : Type*}

/-- Size that can be read at one time. -/
def getChunkReadSize (rb : RingBuffer β) : ℤ :=
  if rb.headPos ≥ rb.tailPos then rb.headPos - rb.tailPos else rb.capacity - rb.tailPos

/-- The chunk loop of `readBuffer`: the bytes copied and the buffer. -/
def readLoop : ℕ → RingBuffer β → ℤ → Option (List β × RingBuffer β)
  | 0, _, _ => none
  | fuel + 1, rb, needToReadSize =>
    if needToReadSize ≤ 0 then some ([], rb)
    else
      let chunkReadSize := rb.getChunkReadSize
      if chunkReadSize < needToReadSize then
        let next := { rb with tailPos := (rb.tailPos + chunkReadSize) % rb.capacity }
        (readLoop fuel next (needToReadSize - chunkReadSize)).map fun result =>
          (load rb.buffer rb.tailPos chunkReadSize.toNat ++ result.1, result.2)
      else some (load rb.buffer rb.tailPos needToReadSize.toNat,
        { rb with tailPos := (rb.tailPos + needToReadSize) % rb.capacity })

/-- A call of `ReadBuffer` that has returned. -/
structure ReadResult (β : Type*) where
  /-- The result. -/
  result : Bool
  /-- The bytes copied to `destData`. -/
  destData : List β
  /-- The buffer. -/
  ringBuffer : RingBuffer β

/-- Take the oldest bytes, or refuse as a whole. -/
def readBuffer (fuel : ℕ) (rb : RingBuffer β) (readSize : ℤ) : Option (ReadResult β) :=
  if rb.getDataSize < readSize then some ⟨false, [], rb⟩
  else (readLoop fuel rb readSize).map fun read =>
    ⟨true, read.1, { read.2 with size := read.2.size - readSize }⟩

section Reading

variable {rb : RingBuffer β} {n : ℤ}

/-- The bytes taken first are the oldest ones. -/
theorem contents_take (h : n ≤ rb.size) :
    rb.contents.take n.toNat = load (cyclic rb.buffer rb.capacity) rb.tailPos n.toNat :=
  take_load _ _ (by omega)

/-- The chunk loop copies the oldest bytes around the end of the buffer, unless head
and tail meet on stored data. -/
theorem readLoop_eq (wf : rb.WellFormed) (h0 : 0 ≤ n) (h1 : n ≤ rb.size)
    (hfull : n = 0 ∨ rb.size < rb.capacity) :
    readLoop (n.toNat + 1) rb n = some (rb.contents.take n.toNat,
      { rb with tailPos := (rb.tailPos + n) % rb.capacity }) := by
  have hcases := wf.head_cases
  have ht := wf.tail_nonneg
  have htl := wf.tail_lt
  rw [contents_take h1, readLoop]
  by_cases hn : n ≤ 0
  · obtain rfl : n = 0 := by omega
    rw [if_pos le_rfl, add_zero, Int.emod_eq_of_lt ht htl]
    rfl
  · rw [if_neg hn]
    dsimp only
    by_cases hchunk : rb.getChunkReadSize < n
    · -- the bytes pass the end: the rest starts at the front, below the head
      have hlt : rb.headPos < rb.tailPos := by
        by_contra hge
        rw [getChunkReadSize, if_pos (by omega)] at hchunk
        omega
      have hvalue : rb.getChunkReadSize = rb.capacity - rb.tailPos := by
        rw [getChunkReadSize, if_neg (by omega)]
      rw [hvalue] at hchunk ⊢
      have hend : (rb.tailPos + (rb.capacity - rb.tailPos)) % rb.capacity = 0 := by
        rw [add_sub_cancel, Int.emod_self]
      obtain ⟨fuel, hfuel⟩ := Nat.exists_eq_succ_of_ne_zero (by omega : n.toNat ≠ 0)
      have hsecond : ¬ ({ rb with tailPos := 0 } : RingBuffer β).getChunkReadSize <
          n - (rb.capacity - rb.tailPos) := by
        rw [getChunkReadSize, if_pos (by dsimp only; omega)]
        dsimp only
        omega
      have hsplit : load (cyclic rb.buffer rb.capacity) rb.tailPos n.toNat =
          load rb.buffer rb.tailPos (rb.capacity - rb.tailPos).toNat ++
            load rb.buffer 0 (n - (rb.capacity - rb.tailPos)).toNat := by
        have hwrap := load_cyclic_wrap (c := rb.capacity) (a := (rb.capacity - rb.tailPos).toNat)
          (b := (n - (rb.capacity - rb.tailPos)).toNat) rb.buffer ht (by omega) (by omega)
        rw [← hwrap]
        congr 1
        omega
      have htail : (0 + (n - (rb.capacity - rb.tailPos))) % rb.capacity =
          (rb.tailPos + n) % rb.capacity := by
        rw [zero_add, ← Int.add_emod_right]
        congr 1
        ring
      rw [if_pos hchunk, hend, hfuel, readLoop, if_neg (by omega)]
      dsimp only
      rw [if_neg hsecond, Option.map_some, htail, ← hfuel, hsplit]
    · -- the bytes are in one piece
      rw [if_neg hchunk, load_cyclic_of_le _ ht]
      rw [getChunkReadSize] at hchunk
      split at hchunk <;> omega

/-- Where head and tail meet, the chunk loop never copies anything. -/
theorem readLoop_hangs (ht : 0 ≤ rb.tailPos) (htl : rb.tailPos < rb.capacity)
    (hmeet : rb.headPos = rb.tailPos) (hn : 0 < n) (fuel : ℕ) : readLoop fuel rb n = none := by
  have hchunk : rb.getChunkReadSize = 0 := by
    rw [getChunkReadSize, if_pos (by omega), hmeet, sub_self]
  have hstay : ({ rb with tailPos := (rb.tailPos + 0) % rb.capacity } : RingBuffer β) = rb := by
    rw [add_zero, Int.emod_eq_of_lt ht htl]
  induction fuel with
  | zero => rfl
  | succ fuel ih =>
    rw [readLoop, if_neg (by omega)]
    dsimp only
    rw [hchunk, if_pos hn, hstay, sub_zero, ih, Option.map_none]

/-- More bytes than there are stored are refused, and nothing changes. -/
theorem readBuffer_refused (fuel : ℕ) (h : rb.size < n) :
    readBuffer fuel rb n = some ⟨false, [], rb⟩ := by
  rw [readBuffer, getDataSize, if_pos h]

/-- What is read is the oldest bytes. -/
theorem readBuffer_eq (wf : rb.WellFormed) (h0 : 0 ≤ n) (h1 : n ≤ rb.size)
    (hfull : n = 0 ∨ rb.size < rb.capacity) :
    readBuffer (n.toNat + 1) rb n =
      some ⟨true, rb.contents.take n.toNat, rb.advanceTail n⟩ := by
  rw [readBuffer, getDataSize, if_neg (by omega), readLoop_eq wf h0 h1 hfull]
  rfl

/-- In a full buffer head and tail meet. -/
theorem WellFormed.meet_of_full (wf : rb.WellFormed) (h : rb.size = rb.capacity) :
    rb.headPos = rb.tailPos := by
  rw [wf.head_eq, h, Int.add_emod_right, Int.emod_eq_of_lt wf.tail_nonneg wf.tail_lt]

/-- A read from a full buffer does not return. -/
theorem readBuffer_hangs (wf : rb.WellFormed) (hfull : rb.size = rb.capacity) (h0 : 0 < n)
    (h1 : n ≤ rb.size) (fuel : ℕ) : readBuffer fuel rb n = none := by
  rw [readBuffer, getDataSize, if_neg (by omega),
    readLoop_hangs wf.tail_nonneg wf.tail_lt (wf.meet_of_full hfull) h0, Option.map_none]

end Reading

/-- `ReadBuffer` is right: it returns, with the oldest bytes in order and the others
left, or with a refusal that changes nothing. -/
structure ReadsOldest (rb : RingBuffer β) (readSize : ℤ) : Prop where
  /-- Bytes that are stored are read. -/
  read : readSize ≤ rb.getDataSize → ∃ fuel rb',
    readBuffer fuel rb readSize = some ⟨true, rb.contents.take readSize.toNat, rb'⟩ ∧
      rb'.contents = rb.contents.drop readSize.toNat
  /-- More than that is refused. -/
  refused : rb.getDataSize < readSize → ∃ fuel, readBuffer fuel rb readSize = some ⟨false, [], rb⟩

/-- A well-formed buffer is read rightly exactly if it is not asked for bytes while it
is full. -/
theorem readsOldest_iff {rb : RingBuffer β} (wf : rb.WellFormed) {n : ℤ} (h0 : 0 ≤ n) :
    ReadsOldest rb n ↔ ¬ (rb.size = rb.capacity ∧ 0 < n ∧ n ≤ rb.size) := by
  constructor
  · rintro h ⟨hfull, hpos, hle⟩
    obtain ⟨fuel, rb', hread, -⟩ := h.read hle
    rw [readBuffer_hangs wf hfull hpos hle] at hread
    cases hread
  · intro h
    have hs := wf.size_le
    refine ⟨fun hle => ?_, fun hlt => ⟨0, readBuffer_refused 0 hlt⟩⟩
    rw [getDataSize] at hle
    exact ⟨n.toNat + 1, rb.advanceTail n, readBuffer_eq wf h0 hle (by omega),
      contents_advanceTail_eq h0 hle⟩

end RioIocpServer.RingBuffer
