import RioIocpServer.RingBuffer

/-!
# Writing to the ring buffer

`WriteBuffer` appends: the data follows the bytes stored before, and every other cell
keeps its value. The block copies of the chunk loop are listed beside it; they are one
or two, inside the buffer and the data, and made one after the other they are what
the loop does to the memory.
-/

namespace RioIocpServer

open CyclicMemory

/-- The arguments of a block copy. -/
structure BlockCopy where
  /-- Offset of the destination. -/
  dst : ℤ
  /-- Offset of the source. -/
  src : ℤ
  /-- Number of bytes. -/
  size : ℤ
  deriving DecidableEq

/-- A block copy between memories of the given lengths that touches nothing else. -/
structure BlockCopy.Inside (copy : BlockCopy) (dstLen srcLen : ℤ) : Prop where
  /-- The size is not negative. -/
  size_nonneg : 0 ≤ copy.size
  /-- The destination starts inside. -/
  dst_nonneg : 0 ≤ copy.dst
  /-- The destination ends inside. -/
  dst_le : copy.dst + copy.size ≤ dstLen
  /-- The source starts inside. -/
  src_nonneg : 0 ≤ copy.src
  /-- The source ends inside. -/
  src_le : copy.src + copy.size ≤ srcLen

/-- The memory behind some block copies of data, made in order. -/
def BlockCopy.replay {β : Type*} (data : List β) (m : ℤ → β) (copies : List BlockCopy) : ℤ → β :=
  copies.foldl (fun m copy => store m copy.dst ((data.drop copy.src.toNat).take copy.size.toNat)) m

namespace RingBuffer

variable {β : Type*}

/-- The block copies of `writeLoop`; `currentWritePos` is the offset in the data. -/
def writeCopies : ℕ → RingBuffer β → ℤ → List β → List BlockCopy
  | 0, _, _, _ => []
  | fuel + 1, rb, currentWritePos, data =>
    if data.length = 0 then []
    else
      let chunkWriteSize := rb.getChunkWriteSize
      if chunkWriteSize < data.length then
        let written := data.take chunkWriteSize.toNat
        ⟨rb.headPos, currentWritePos, chunkWriteSize⟩ :: writeCopies fuel { rb with
          buffer := store rb.buffer rb.headPos written
          headPos := (rb.headPos + chunkWriteSize) % rb.capacity }
          (currentWritePos + chunkWriteSize) (data.drop chunkWriteSize.toNat)
      else [⟨rb.headPos, currentWritePos, data.length⟩]

section Copies

variable {rb : RingBuffer β} {data : List β}

/-- The data is copied in one piece, or up to the end of the buffer and on from the
front. -/
theorem writeCopies_eq (wf : rb.WellFormed) (h : (data.length : ℤ) ≤ rb.getFreeSize) :
    writeCopies (data.length + 1) rb 0 data =
      if data.length = 0 then []
      else if rb.getChunkWriteSize < data.length then
        [⟨rb.headPos, 0, rb.capacity - rb.headPos⟩,
          ⟨0, rb.capacity - rb.headPos, data.length - (rb.capacity - rb.headPos)⟩]
      else [⟨rb.headPos, 0, data.length⟩] := by
  rw [writeCopies]
  by_cases hn : data.length = 0
  · rw [if_pos hn, if_pos hn]
  · rw [if_neg hn, if_neg hn]
    dsimp only
    by_cases hchunk : rb.getChunkWriteSize < data.length
    · obtain ⟨-, hvalue⟩ := wf.chunkWriteSize_of_lt h hchunk
      have hh := wf.head_bounds
      rw [hvalue] at hchunk ⊢
      obtain ⟨fuel, hfuel⟩ := Nat.exists_eq_succ_of_ne_zero hn
      have hend : (rb.headPos + (rb.capacity - rb.headPos)) % rb.capacity = 0 := by
        rw [add_sub_cancel, Int.emod_self]
      have hdrop : ((data.drop (rb.capacity - rb.headPos).toNat).length : ℤ) =
          data.length - (rb.capacity - rb.headPos) := by
        rw [List.length_drop]
        omega
      have hsecond := wf.rest_le_chunkWriteSize h
        (store rb.buffer rb.headPos (data.take (rb.capacity - rb.headPos).toNat))
      rw [if_pos hchunk, if_pos hchunk, hend, hfuel, writeCopies, if_neg (by omega)]
      dsimp only
      rw [if_neg (by omega), hdrop, zero_add, ← hfuel]
    · rw [if_neg hchunk, if_neg hchunk]

/-- No copy of the loop leaves the buffer or the data. -/
theorem writeCopies_inside (wf : rb.WellFormed) (h : (data.length : ℤ) ≤ rb.getFreeSize) :
    ∀ copy ∈ writeCopies (data.length + 1) rb 0 data, copy.Inside rb.capacity data.length := by
  have hh := wf.head_bounds
  have hs := wf.size_nonneg
  have hfree := h
  rw [getFreeSize] at hfree
  rw [writeCopies_eq wf h]
  split
  · simp
  · split
    · rename_i hchunk
      obtain ⟨-, hvalue⟩ := wf.chunkWriteSize_of_lt h hchunk
      rw [hvalue] at hchunk
      intro copy hmem
      rcases List.mem_pair.mp hmem with rfl | rfl
      · constructor <;> dsimp only <;> omega
      · constructor <;> dsimp only <;> omega
    · rename_i hchunk
      intro copy hmem
      obtain rfl := List.mem_singleton.mp hmem
      have htl := wf.tail_lt
      rw [getChunkWriteSize] at hchunk
      split at hchunk <;> constructor <;> dsimp only <;> omega

/-- The copies made one after the other are what the loop does to the memory. -/
theorem replay_writeCopies (wf : rb.WellFormed) (h : (data.length : ℤ) ≤ rb.getFreeSize) :
    BlockCopy.replay data rb.buffer (writeCopies (data.length + 1) rb 0 data) =
      storeCyclic rb.buffer rb.capacity rb.headPos data := by
  have hh := wf.head_bounds
  have hs := wf.size_nonneg
  have hfree := h
  rw [getFreeSize] at hfree
  rw [writeCopies_eq wf h]
  split
  · rename_i hn
    obtain rfl := List.length_eq_zero_iff.mp hn
    rw [storeCyclic_of_le _ hh.1 (by simp; omega), store_nil]
    rfl
  · split
    · rename_i hchunk
      obtain ⟨-, hvalue⟩ := wf.chunkWriteSize_of_lt h hchunk
      rw [hvalue] at hchunk
      have htake : ((data.take (rb.capacity - rb.headPos).toNat).length : ℤ) =
          rb.capacity - rb.headPos := by
        rw [List.length_take]
        omega
      have hdrop : ((data.drop (rb.capacity - rb.headPos).toNat).length : ℤ) =
          data.length - (rb.capacity - rb.headPos) := by
        rw [List.length_drop]
        omega
      have hall : (data.drop (rb.capacity - rb.headPos).toNat).take
          (data.length - (rb.capacity - rb.headPos)).toNat =
          data.drop (rb.capacity - rb.headPos).toNat :=
        List.take_of_length_le (by omega)
      have hend : rb.headPos + (data.take (rb.capacity - rb.headPos).toNat).length =
          rb.capacity := by omega
      simp only [BlockCopy.replay, List.foldl_cons, List.foldl_nil, Int.toNat_zero, List.drop_zero,
        hall]
      rw [store_store_eq_storeCyclic _ hh.1 hend (by omega), List.take_append_drop]
    · rename_i hchunk
      have htl := wf.tail_lt
      simp only [BlockCopy.replay, List.foldl_cons, List.foldl_nil, Int.toNat_zero, List.drop_zero,
        Int.toNat_natCast, List.take_length]
      rw [storeCyclic_of_le _ hh.1]
      rw [getChunkWriteSize] at hchunk
      split at hchunk <;> omega

end Copies

section Appending

variable {rb : RingBuffer β} {data : List β}

/-- Data written around the end behind the head follows the stored bytes. -/
theorem contents_written (wf : rb.WellFormed) (h : (data.length : ℤ) ≤ rb.getFreeSize) :
    ((rb.withMemory (storeCyclic rb.buffer rb.capacity rb.headPos data)).advanceHead
      data.length).contents = rb.contents ++ data := by
  have hs := wf.size_nonneg
  have hsize : (rb.size + data.length).toNat = rb.size.toNat + data.length := by omega
  have hpos : rb.tailPos + (rb.size.toNat : ℤ) = rb.tailPos + rb.size := by omega
  rw [getFreeSize] at h
  simp only [contents, advanceHead, withMemory]
  rw [hsize, load_add, hpos, wf.head_eq, storeCyclic_emod]
  congr 1
  · exact load_congr fun i hi => cyclic_storeCyclic_miss _ (by omega) (by omega)
  · exact load_eq_of_getElem fun i hi => cyclic_storeCyclic_hit _ _ (by omega) hi

/-- A cell that no value written around the end goes to keeps its value. -/
theorem storeCyclic_unchanged (m : ℤ → β) {c pos i : ℤ}
    (h : ∀ j : ℕ, j < data.length → i ≠ (pos + j) % c) : storeCyclic m c pos data i = m i := by
  unfold storeCyclic
  split
  · rename_i hi
    by_cases hin : ((i - pos) % c).toNat < data.length
    · have hnonneg : 0 ≤ (i - pos) % c := Int.emod_nonneg _ (by omega)
      refine absurd ?_ (h _ hin)
      rw [Int.toNat_of_nonneg hnonneg, Int.add_emod_emod, add_sub_cancel,
        Int.emod_eq_of_lt hi.1 hi.2]
    · rw [List.getElem?_eq_none (by omega), Option.getD_none]
  · rfl

/-- The data was appended. -/
structure Appended (rb : RingBuffer β) (data : List β) (rb' : RingBuffer β) : Prop where
  /-- The result is well-formed. -/
  wellFormed : rb'.WellFormed
  /-- The data follows the bytes stored before. -/
  contents_eq : rb'.contents = rb.contents ++ data
  /-- Every cell outside the range written keeps its value. -/
  unchanged : ∀ i, (∀ j : ℕ, j < data.length → i ≠ (rb.headPos + j) % rb.capacity) →
    rb'.buffer i = rb.buffer i
  /-- The copies of the loop stay inside the buffer and the data. -/
  copies_inside : ∀ copy ∈ writeCopies (data.length + 1) rb 0 data,
    copy.Inside rb.capacity data.length
  /-- They are what changes the memory. -/
  replay_copies :
    rb'.buffer = BlockCopy.replay data rb.buffer (writeCopies (data.length + 1) rb 0 data)

/-- For every well-formed buffer, wherever head and tail are, and every data:
`WriteBuffer` returns, and either there is room and the data is appended, or there is
none and nothing changes. -/
theorem writeBuffer_appends (rb : RingBuffer β) (wf : rb.WellFormed) (data : List β) :
    ((data.length : ℤ) ≤ rb.getFreeSize →
      ∃ rb', rb.writeBuffer data = some (true, rb') ∧ Appended rb data rb') ∧
    (rb.getFreeSize < data.length → rb.writeBuffer data = some (false, rb)) := by
  refine ⟨fun h => ⟨_, writeBuffer_eq wf h, ?_⟩, writeBuffer_refused⟩
  exact
    { wellFormed := (wf.withMemory _).advanceHead (Int.natCast_nonneg _) h
      contents_eq := contents_written wf h
      unchanged := fun i hi => storeCyclic_unchanged rb.buffer hi
      copies_inside := writeCopies_inside wf h
      replay_copies := (replay_writeCopies wf h).symm }

/-- Five cells with two bytes in the last ones. -/
def lastTwo : RingBuffer ℕ := ⟨5, 2, fun i => i.toNat, 0, 3⟩

/-- Three more bytes fill the buffer. -/
theorem lastTwo_appends : ∃ rb', lastTwo.writeBuffer [7, 8, 9] = some (true, rb') ∧
    Appended lastTwo [7, 8, 9] rb' :=
  (writeBuffer_appends lastTwo ⟨by decide, by decide, by decide, by decide, by decide⟩
    [7, 8, 9]).1 (by decide)

end Appending

end RingBuffer

end RioIocpServer
