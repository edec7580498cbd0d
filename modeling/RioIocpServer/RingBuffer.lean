import RioIocpServer.CyclicMemory

/-!
# The ring buffer of the sessions

The fields are those of the source, with the bytes as an integer-indexed
memory; `int` values are integers and `%` meets nonnegative operands only.
The write loop carries the data still to be written and a fuel of one more
than the data length; `none` is a loop that is still running then. The stored
bytes are read cyclically from the tail, and a well-formed buffer knows its
head from its tail and its size.
-/

namespace RioIocpServer

open CyclicMemory

/-- The fields of the ring buffer. -/
structure RingBuffer (β : Type*) where
  /-- Number of bytes of the buffer. -/
  capacity : ℤ
  /-- Number of bytes stored. -/
  size : ℤ
  /-- The bytes at their offsets. -/
  buffer : ℤ → β
  /-- Write position. -/
  headPos : ℤ
  /-- Read position. -/
  tailPos : ℤ

namespace RingBuffer

variable {β : Type*}

/-- The constructor: an empty buffer over the given memory. -/
def new (buffer : ℤ → β) (capacity : ℤ) : RingBuffer β := ⟨capacity, 0, buffer, 0, 0⟩

/-- Size of the data stored. -/
def getDataSize (rb : RingBuffer β) : ℤ := rb.size

/-- Size of the data that can be stored. -/
def getFreeSize (rb : RingBuffer β) : ℤ := rb.capacity - rb.size

/-- Offset of the next byte written. -/
def getWriteOffset (rb : RingBuffer β) : ℤ := rb.headPos

/-- Offset of the next byte read. -/
def getReadOffset (rb : RingBuffer β) : ℤ := rb.tailPos

/-- Size that can be written at one time. -/
def getChunkWriteSize (rb : RingBuffer β) : ℤ :=
  if rb.headPos ≥ rb.tailPos then rb.capacity - rb.headPos else rb.tailPos - rb.headPos

/-- Block copy inside the buffer, of the bytes as they were before. -/
def memcpy (m : ℤ → β) (dst src n : ℤ) : ℤ → β := store m dst (load m src n.toNat)

/-- The chunk loop of `writeBuffer`; the list is what is left of the data. -/
def writeLoop : ℕ → RingBuffer β → List β → Option (RingBuffer β)
  | 0, _, _ => none
  | fuel + 1, rb, data =>
    if data.length = 0 then some rb
    else
      let chunkWriteSize := rb.getChunkWriteSize
      if chunkWriteSize < data.length then
        let written := data.take chunkWriteSize.toNat
        writeLoop fuel { rb with
          buffer := store rb.buffer rb.headPos written
          headPos := (rb.headPos + chunkWriteSize) % rb.capacity }
          (data.drop chunkWriteSize.toNat)
      else some { rb with
        buffer := store rb.buffer rb.headPos data
        headPos := (rb.headPos + data.length) % rb.capacity }

/-- Write data behind the head, or refuse it as a whole. -/
def writeBuffer (rb : RingBuffer β) (data : List β) : Option (Bool × RingBuffer β) :=
  if rb.getFreeSize < data.length then some (false, rb)
  else (writeLoop (data.length + 1) rb data).map fun rb' =>
    (true, { rb' with size := rb'.size + data.length })

/-- Account for data written in place. -/
def onWriteBuffer (rb : RingBuffer β) (writeSize : ℤ) : Bool × RingBuffer β :=
  if rb.getFreeSize < writeSize then (false, rb)
  else (true, { rb with
    headPos := (rb.headPos + writeSize) % rb.capacity
    size := rb.size + writeSize })

/-- Account for data consumed in place. -/
def onReadBuffer (rb : RingBuffer β) (readSize : ℤ) : Bool × RingBuffer β :=
  if rb.getDataSize < readSize then (false, rb)
  else (true, { rb with
    tailPos := (rb.tailPos + readSize) % rb.capacity
    size := rb.size - readSize })

/-- Move the stored data to the front when little room is left behind it. -/
def adjustPos (rb : RingBuffer β) : RingBuffer β :=
  if rb.headPos ≥ rb.tailPos then
    let dataSize := rb.getDataSize
    if rb.headPos = rb.tailPos then { rb with headPos := 0, tailPos := 0 }
    else if rb.getChunkWriteSize < rb.capacity / 3 then { rb with
      buffer := memcpy rb.buffer 0 rb.tailPos dataSize
      tailPos := 0
      headPos := dataSize }
    else rb
  else
    let rDataSize := rb.capacity - rb.tailPos
    let lDataSize := rb.headPos
    let moved := memcpy rb.buffer rDataSize 0 lDataSize
    { rb with
      buffer := memcpy moved 0 rb.tailPos rDataSize
      tailPos := 0
      headPos := rDataSize + lDataSize }

/-- The buffer with `n` more bytes stored behind the head. -/
def advanceHead (rb : RingBuffer β) (n : ℤ) : RingBuffer β :=
  { rb with headPos := (rb.headPos + n) % rb.capacity, size := rb.size + n }

/-- The buffer with the `n` oldest bytes dropped. -/
def advanceTail (rb : RingBuffer β) (n : ℤ) : RingBuffer β :=
  { rb with tailPos := (rb.tailPos + n) % rb.capacity, size := rb.size - n }

/-- The buffer over another memory. -/
def withMemory (rb : RingBuffer β) (buffer : ℤ → β) : RingBuffer β := { rb with buffer := buffer }

/-- The stored bytes, the oldest one first. -/
def contents (rb : RingBuffer β) : List β :=
  load (cyclic rb.buffer rb.capacity) rb.tailPos rb.size.toNat

/-- The positions are inside the buffer and differ by the size. -/
structure WellFormed (rb : RingBuffer β) : Prop where
  /-- The size is not negative. -/
  size_nonneg : 0 ≤ rb.size
  /-- The size fits the capacity. -/
  size_le : rb.size ≤ rb.capacity
  /-- The tail is not negative. -/
  tail_nonneg : 0 ≤ rb.tailPos
  /-- The tail is inside the buffer. -/
  tail_lt : rb.tailPos < rb.capacity
  /-- The head is the tail advanced by the size. -/
  head_eq : rb.headPos = (rb.tailPos + rb.size) % rb.capacity

section Positions

variable {rb : RingBuffer β}

/-- The constructor builds a well-formed buffer. -/
theorem new_wellFormed (buffer : ℤ → β) {capacity : ℤ} (h : 0 < capacity) :
    (new buffer capacity).WellFormed := by
  constructor <;> dsimp only [new]
  · omega
  · omega
  · omega
  · exact h
  · simp

/-- The head wrapped past the end or did not. -/
theorem WellFormed.head_cases (wf : rb.WellFormed) :
    rb.headPos = rb.tailPos + rb.size ∧ rb.tailPos + rb.size < rb.capacity ∨
      rb.headPos = rb.tailPos + rb.size - rb.capacity ∧ rb.capacity ≤ rb.tailPos + rb.size := by
  obtain ⟨h0, h1, h2, h3, h4⟩ := wf
  rw [emod_of_lt_two_mul (by omega) (by omega)] at h4
  split at h4 <;> omega

/-- The head is inside the buffer. -/
theorem WellFormed.head_bounds (wf : rb.WellFormed) :
    0 ≤ rb.headPos ∧ rb.headPos < rb.capacity := by
  have h := wf.head_cases
  obtain ⟨h0, h1, h2, h3, h4⟩ := wf
  omega

/-- There is always a chunk to write to, even in a full buffer. -/
theorem WellFormed.chunkWriteSize_pos (wf : rb.WellFormed) : 0 < rb.getChunkWriteSize := by
  have h := wf.head_bounds
  unfold getChunkWriteSize
  split <;> omega

@[simp] theorem contents_length (rb : RingBuffer β) : rb.contents.length = rb.size.toNat := by
  simp [contents]

/-- Accounting for written data advances the head. -/
theorem onWriteBuffer_eq {n : ℤ} (h : n ≤ rb.getFreeSize) :
    rb.onWriteBuffer n = (true, rb.advanceHead n) := by
  rw [onWriteBuffer, if_neg (by omega), advanceHead]

/-- Accounting for consumed data advances the tail. -/
theorem onReadBuffer_eq {n : ℤ} (h : n ≤ rb.size) :
    rb.onReadBuffer n = (true, rb.advanceTail n) := by
  rw [onReadBuffer, if_neg (by rw [getDataSize]; omega), advanceTail]

/-- The memory plays no part in the positions. -/
theorem WellFormed.withMemory (wf : rb.WellFormed) (buffer : ℤ → β) :
    (rb.withMemory buffer).WellFormed :=
  ⟨wf.size_nonneg, wf.size_le, wf.tail_nonneg, wf.tail_lt, wf.head_eq⟩

/-- A head advanced inside the free room keeps the buffer well-formed. -/
theorem WellFormed.advanceHead (wf : rb.WellFormed) {n : ℤ} (h0 : 0 ≤ n)
    (h1 : n ≤ rb.getFreeSize) : (rb.advanceHead n).WellFormed := by
  rw [getFreeSize] at h1
  constructor <;> dsimp only [RingBuffer.advanceHead]
  · have := wf.size_nonneg
    omega
  · omega
  · exact wf.tail_nonneg
  · exact wf.tail_lt
  · rw [wf.head_eq, Int.emod_add_emod, add_assoc]

/-- A tail advanced over stored data keeps the buffer well-formed. -/
theorem WellFormed.advanceTail (wf : rb.WellFormed) {n : ℤ} (h0 : 0 ≤ n) (h1 : n ≤ rb.size) :
    (rb.advanceTail n).WellFormed := by
  have hc : 0 < rb.capacity := wf.tail_nonneg.trans_lt wf.tail_lt
  constructor <;> dsimp only [RingBuffer.advanceTail]
  · omega
  · have := wf.size_le
    omega
  · exact Int.emod_nonneg _ (by omega)
  · exact Int.emod_lt_of_pos _ hc
  · rw [wf.head_eq, Int.emod_add_emod]
    congr 1
    ring

end Positions

section Writing

variable {rb : RingBuffer β} {data : List β}

/-- Refused data changes nothing. -/
theorem writeBuffer_refused (h : rb.getFreeSize < data.length) :
    rb.writeBuffer data = some (false, rb) := by
  rw [writeBuffer, if_pos h]

/-- Data that does not fit the first chunk passes the end of the buffer. -/
theorem WellFormed.chunkWriteSize_of_lt (wf : rb.WellFormed) {n : ℤ} (h : n ≤ rb.getFreeSize)
    (hchunk : rb.getChunkWriteSize < n) :
    rb.tailPos ≤ rb.headPos ∧ rb.getChunkWriteSize = rb.capacity - rb.headPos := by
  have hcases := wf.head_cases
  have hs := wf.size_nonneg
  rw [getFreeSize] at h
  have hge : rb.headPos ≥ rb.tailPos := by
    by_contra hlt
    rw [getChunkWriteSize, if_neg hlt] at hchunk
    omega
  exact ⟨hge, by rw [getChunkWriteSize, if_pos hge]⟩

/-- The chunk found from the front, with the size still stale, has room for the rest. -/
theorem WellFormed.rest_le_chunkWriteSize (wf : rb.WellFormed) {n : ℤ} (h : n ≤ rb.getFreeSize)
    (buffer : ℤ → β) :
    n - (rb.capacity - rb.headPos) ≤
      ({ rb with buffer := buffer, headPos := 0 } : RingBuffer β).getChunkWriteSize := by
  have hcases := wf.head_cases
  have hh := wf.head_bounds
  have hs := wf.size_nonneg
  have ht := wf.tail_nonneg
  rw [getFreeSize] at h
  rw [getChunkWriteSize]
  dsimp only
  split <;> omega

/-- The chunk loop ends after at most two chunks and has written the data
around the end of the buffer. -/
theorem writeLoop_eq (wf : rb.WellFormed) (h : (data.length : ℤ) ≤ rb.getFreeSize) :
    writeLoop (data.length + 1) rb data = some { rb with
      buffer := storeCyclic rb.buffer rb.capacity rb.headPos data
      headPos := (rb.headPos + data.length) % rb.capacity } := by
  have hh := wf.head_bounds
  have hcases := wf.head_cases
  have hs := wf.size_nonneg
  have ht := wf.tail_nonneg
  have htl := wf.tail_lt
  rw [writeLoop]
  by_cases hn : data.length = 0
  · obtain rfl := List.length_eq_zero_iff.mp hn
    rw [if_pos hn, storeCyclic_of_le _ hh.1 (by simp; omega), store_nil, List.length_nil,
      Nat.cast_zero, add_zero, Int.emod_eq_of_lt hh.1 hh.2]
  · rw [if_neg hn]
    dsimp only
    by_cases hchunk : rb.getChunkWriteSize < data.length
    · -- the data passes the end: the rest goes to the front, below the tail
      obtain ⟨-, hvalue⟩ := wf.chunkWriteSize_of_lt h hchunk
      rw [hvalue] at hchunk ⊢
      obtain ⟨fuel, hfuel⟩ := Nat.exists_eq_succ_of_ne_zero hn
      have hend : (rb.headPos + (rb.capacity - rb.headPos)) % rb.capacity = 0 := by
        rw [add_sub_cancel, Int.emod_self]
      have hdrop : ((data.drop (rb.capacity - rb.headPos).toNat).length : ℤ) =
          data.length - (rb.capacity - rb.headPos) := by
        rw [List.length_drop]
        omega
      have htake : ((data.take (rb.capacity - rb.headPos).toNat).length : ℤ) =
          rb.capacity - rb.headPos := by
        rw [List.length_take]
        omega
      rw [if_pos hchunk, hend, hfuel, writeLoop, if_neg (by omega)]
      dsimp only
      have hsecond := wf.rest_le_chunkWriteSize h
        (store rb.buffer rb.headPos (data.take (rb.capacity - rb.headPos).toNat))
      have hend' : rb.headPos + (data.take (rb.capacity - rb.headPos).toNat).length =
          rb.capacity := by omega
      rw [if_neg (by omega), store_store_eq_storeCyclic _ hh.1 hend' (by
        rw [getFreeSize] at h
        omega), List.take_append_drop, hdrop, zero_add]
      congr 2
      rw [← hfuel, show rb.headPos + (data.length : ℤ) =
        (data.length - (rb.capacity - rb.headPos)) + rb.capacity by ring, Int.add_emod_right]
    · rw [if_neg hchunk, storeCyclic_of_le _ hh.1]
      rw [getFreeSize] at h
      rw [getChunkWriteSize] at hchunk
      split at hchunk <;> omega

/-- Accepted data is written around the end of the buffer. -/
theorem writeBuffer_eq (wf : rb.WellFormed) (h : (data.length : ℤ) ≤ rb.getFreeSize) :
    rb.writeBuffer data = some (true,
      (rb.withMemory (storeCyclic rb.buffer rb.capacity rb.headPos data)).advanceHead
        data.length) := by
  rw [writeBuffer, if_neg (by omega), writeLoop_eq wf h]
  rfl

end Writing

section InPlace

variable {rb : RingBuffer β}

/-- Data that does not pass the end is read in one piece. -/
theorem contents_of_le (h0 : 0 ≤ rb.size) (h1 : 0 ≤ rb.tailPos)
    (h : rb.tailPos + rb.size ≤ rb.capacity) :
    rb.contents = load rb.buffer rb.tailPos rb.size.toNat :=
  load_cyclic_of_le _ h1 (by omega)

/-- Compaction of data that does not pass the end and leaves room: the data is
the same and the head is right behind it. -/
structure Compacted (rb rb' : RingBuffer β) : Prop where
  /-- The result is well-formed. -/
  wellFormed : rb'.WellFormed
  /-- The capacity is that of the buffer. -/
  capacity_eq : rb'.capacity = rb.capacity
  /-- No byte is gained or lost. -/
  size_eq : rb'.size = rb.size
  /-- The free room starts right behind the data. -/
  head_eq : rb'.headPos = rb'.tailPos + rb'.size
  /-- The data is the same. -/
  contents_eq : rb'.contents = rb.contents

/-- Moving the data to the front compacts the buffer. -/
theorem compacted_move (wf : rb.WellFormed) (h : rb.tailPos + rb.size ≤ rb.capacity)
    (hfree : rb.size < rb.capacity) : Compacted rb { rb with
      buffer := memcpy rb.buffer 0 rb.tailPos rb.size
      tailPos := 0
      headPos := rb.size } := by
  have hs := wf.size_nonneg
  have hl := load_store rb.buffer 0 (load rb.buffer rb.tailPos rb.size.toNat)
  rw [load_length] at hl
  refine ⟨⟨hs, wf.size_le, le_refl 0, by dsimp only; omega, ?_⟩, rfl, rfl, ?_, ?_⟩
  · dsimp only
    rw [zero_add, Int.emod_eq_of_lt hs hfree]
  · dsimp only
    rw [zero_add]
  · rw [contents_of_le hs wf.tail_nonneg h, ← hl]
    exact contents_of_le hs (le_refl (0 : ℤ)) (by rw [zero_add]; exact wf.size_le)

/-- All three branches of `adjustPos` compact data that does not pass the end. -/
theorem adjustPos_compacted (wf : rb.WellFormed) (h : rb.tailPos + rb.size ≤ rb.capacity)
    (hfree : rb.size < rb.capacity) : Compacted rb rb.adjustPos := by
  have hs := wf.size_nonneg
  have ht := wf.tail_nonneg
  unfold adjustPos
  rcases wf.head_cases with ⟨hhead, hlt⟩ | ⟨hhead, hge⟩
  · rw [if_pos (by omega)]
    dsimp only
    by_cases hempty : rb.headPos = rb.tailPos
    · have hz : rb.size = 0 := by omega
      rw [if_pos hempty]
      refine ⟨⟨hs, wf.size_le, le_refl 0, by dsimp only; omega, ?_⟩, rfl, rfl, ?_, ?_⟩
      · simp [hz]
      · simp [hz]
      · simp [contents, hz]
    · rw [if_neg hempty]
      by_cases hchunk : rb.getChunkWriteSize < rb.capacity / 3
      · rw [if_pos hchunk]
        exact compacted_move wf h hfree
      · rw [if_neg hchunk]
        exact ⟨wf, rfl, rfl, hhead, rfl⟩
  · -- the data ends exactly at the end of the buffer and the head wrapped to 0
    have hz : rb.headPos = 0 := by omega
    have hr : rb.capacity - rb.tailPos = rb.size := by omega
    have hm : memcpy rb.buffer rb.size 0 0 = rb.buffer := by simp [memcpy]
    rw [if_neg (by omega)]
    dsimp only
    rw [hz, hr, add_zero, hm]
    exact compacted_move wf h hfree

/-- Bytes received behind the data and accounted for extend it. -/
theorem contents_received (wf : rb.WellFormed) (hhead : rb.headPos = rb.tailPos + rb.size)
    (xs : List β) (h : rb.headPos + xs.length ≤ rb.capacity) :
    ((rb.withMemory (store rb.buffer rb.headPos xs)).advanceHead xs.length).contents =
      rb.contents ++ xs := by
  have hs := wf.size_nonneg
  have ht := wf.tail_nonneg
  have hn : (rb.size + xs.length).toNat = rb.size.toNat + xs.length := by omega
  have hp : rb.tailPos + (rb.size.toNat : ℤ) = rb.headPos := by omega
  simp only [contents, withMemory, advanceHead]
  rw [load_cyclic_of_le _ ht (by omega), load_cyclic_of_le _ ht (by omega), hn, load_add, hp,
    load_store, load_store_of_disjoint _ (by omega)]

/-- Advancing the tail drops the oldest bytes, wrapped around or not. -/
theorem contents_advanceTail_eq {n : ℤ} (h0 : 0 ≤ n) (h1 : n ≤ rb.size) :
    (rb.advanceTail n).contents = rb.contents.drop n.toNat := by
  simp only [contents, advanceTail]
  rw [drop_load _ _ (by omega), load_cyclic_emod]
  congr 1 <;> omega

/-- Consuming bytes of data that does not pass the end drops them. -/
theorem contents_advanceTail (wf : rb.WellFormed) (h : rb.tailPos + rb.size ≤ rb.capacity) {k : ℤ}
    (h0 : 0 ≤ k) (h1 : k ≤ rb.size) :
    (rb.advanceTail k).contents = rb.contents.drop k.toNat ∧
      (rb.advanceTail k).tailPos + (rb.advanceTail k).size ≤ rb.capacity := by
  have ht := wf.tail_nonneg
  have hc := wf.tail_lt
  refine ⟨contents_advanceTail_eq h0 h1, ?_⟩
  simp only [advanceTail]
  rw [emod_of_lt_two_mul (by omega) (by omega)]
  split <;> omega

end InPlace

end RingBuffer

end RioIocpServer
