import RioIocpServer.RingBuffer

/-!
# The send buffer of the RIO sessions

A third cursor runs between tail and head: what lies between it and the head is
written and not yet posted. The three cursors are known modulo the capacity
only. Counted from the start of the session they are the numbers of bytes
completed, posted and written, and the buffer holds the bytes written since the
last completion.
-/

namespace RioIocpServer

open CyclicMemory

/-- The ring buffer with a send position. -/
structure RioBuffer (β : Type*) extends RingBuffer β where
  /-- Position of the first byte not yet posted. -/
  sendPos : ℤ

/-- A posted part of the buffer, with its bytes when it was posted. -/
structure Chunk (β : Type*) where
  /-- Offset in the buffer. -/
  offset : ℤ
  /-- Number of bytes. -/
  length : ℤ
  /-- The bytes posted. -/
  bytes : List β
  deriving DecidableEq

namespace RioBuffer

variable {β : Type*}

/-- The constructor over the allocated memory. -/
def new (buffer : ℤ → β) (bufferSize : ℤ) : RioBuffer β := ⟨RingBuffer.new buffer bufferSize, 0⟩

/-- Size of the data that can be sent at one time. -/
def getChunkSendSize (rb : RioBuffer β) : ℤ :=
  if rb.headPos ≥ rb.sendPos then rb.headPos - rb.sendPos else rb.capacity - rb.sendPos

/-- Size of the data that should be sent. -/
def getSendDataSize (rb : RioBuffer β) : ℤ :=
  if rb.headPos ≥ rb.sendPos then rb.headPos - rb.sendPos
  else rb.capacity - rb.sendPos + rb.headPos

/-- Offset of the next byte sent. -/
def getSendOffset (rb : RioBuffer β) : ℤ := rb.sendPos

/-- Account for posted data. -/
def onSendBuffer (rb : RioBuffer β) (sendSize : ℤ) : Bool × RioBuffer β :=
  if rb.getSendDataSize < sendSize then (false, rb)
  else (true, { rb with sendPos := (rb.sendPos + sendSize) % rb.capacity })

/-- The cursors after `written` was written, of which `posted` bytes were posted
and `completed` bytes were completed. -/
structure Cursors (rb : RioBuffer β) (written : List β) (posted completed : ℕ) : Prop where
  /-- Only posted bytes are completed. -/
  completed_le : completed ≤ posted
  /-- Only written bytes are posted. -/
  posted_le : posted ≤ written.length
  /-- The buffer is not degenerate. -/
  capacity_pos : 0 < rb.capacity
  /-- Bytes are stored until they are completed. -/
  size_eq : rb.size = written.length - completed
  /-- The stored bytes fit. -/
  size_le : rb.size ≤ rb.capacity
  /-- The head is behind the bytes written. -/
  head_eq : rb.headPos = written.length % rb.capacity
  /-- The send position is behind the bytes posted. -/
  send_eq : rb.sendPos = posted % rb.capacity
  /-- The tail is behind the bytes completed. -/
  tail_eq : rb.tailPos = completed % rb.capacity
  /-- Every byte not completed is in its cell. -/
  stored : ∀ (i : ℕ) (hi : i < written.length), completed ≤ i →
    cyclic rb.buffer rb.capacity i = written[i]

section Cursors

variable {rb : RioBuffer β} {written : List β} {posted completed : ℕ}

/-- A fresh buffer has all cursors at the start. -/
theorem new_cursors (buffer : ℤ → β) {bufferSize : ℤ} (h : 0 < bufferSize) :
    Cursors (new buffer bufferSize) [] 0 0 := by
  constructor <;> simp [new, RingBuffer.new]
  all_goals omega

/-- The ring buffer below is well-formed. -/
theorem Cursors.wellFormed (cur : Cursors rb written posted completed) :
    rb.toRingBuffer.WellFormed := by
  have hsize := cur.size_eq
  have hle := cur.completed_le.trans cur.posted_le
  have hc := cur.capacity_pos
  refine ⟨by omega, cur.size_le, ?_, ?_, ?_⟩
  · rw [cur.tail_eq]
    exact Int.emod_nonneg _ (by omega)
  · rw [cur.tail_eq]
    exact Int.emod_lt_of_pos _ hc
  · rw [cur.head_eq, cur.tail_eq, hsize, Int.emod_add_emod]
    congr 1
    ring

/-- The send position is inside the buffer. -/
theorem Cursors.send_bounds (cur : Cursors rb written posted completed) :
    0 ≤ rb.sendPos ∧ rb.sendPos < rb.capacity := by
  have hc := cur.capacity_pos
  rw [cur.send_eq]
  exact ⟨Int.emod_nonneg _ (by omega), Int.emod_lt_of_pos _ hc⟩

/-- The bytes written and not posted are part of the bytes stored. -/
theorem Cursors.unsent_le (cur : Cursors rb written posted completed) :
    (written.length : ℤ) - posted ≤ rb.size := by
  have h := cur.size_eq
  have hle := cur.completed_le
  omega

/-- The head seen from the send position. -/
theorem Cursors.head_cases (cur : Cursors rb written posted completed) :
    rb.headPos = rb.sendPos + (written.length - posted) ∧
        rb.sendPos + (written.length - posted) < rb.capacity ∨
      rb.headPos = rb.sendPos + (written.length - posted) - rb.capacity ∧
        rb.capacity ≤ rb.sendPos + (written.length - posted) := by
  have hb := cur.send_bounds
  have hu := cur.unsent_le
  have hs := cur.size_le
  have hp := cur.posted_le
  have hhead : rb.headPos = (rb.sendPos + (written.length - posted)) % rb.capacity := by
    rw [cur.head_eq, cur.send_eq, Int.emod_add_emod]
    congr 1
    ring
  rw [emod_of_lt_two_mul (by omega) (by omega)] at hhead
  split at hhead <;> omega

/-- `getSendDataSize` is the number of bytes written and not posted, except
that it answers zero when these fill the buffer. -/
theorem Cursors.sendDataSize_eq (cur : Cursors rb written posted completed) :
    rb.getSendDataSize = if (written.length : ℤ) - posted = rb.capacity then 0
      else (written.length : ℤ) - posted := by
  have hb := cur.send_bounds
  have hu := cur.unsent_le
  have hs := cur.size_le
  have hp := cur.posted_le
  have hcases := cur.head_cases
  rw [getSendDataSize]
  split <;> split <;> omega

/-- A chunk is posted only where there is data; it does not pass the end. -/
theorem Cursors.chunk_bounds (cur : Cursors rb written posted completed)
    (h : 0 < rb.getSendDataSize) : 0 < rb.getChunkSendSize ∧
      rb.sendPos + rb.getChunkSendSize ≤ rb.capacity ∧
      rb.getChunkSendSize ≤ rb.getSendDataSize ∧
      rb.getChunkSendSize ≤ written.length - posted := by
  have hb := cur.send_bounds
  have hcases := cur.head_cases
  have hp := cur.posted_le
  have hh := cur.wellFormed.head_bounds
  rw [getSendDataSize] at h ⊢
  rw [getChunkSendSize]
  split at h <;> omega

/-- The bytes stored from the offset of a byte not completed, short of the end. -/
theorem Cursors.load_eq (cur : Cursors rb written posted completed) {start n : ℕ} {offset : ℤ}
    (hoffset : offset = start % rb.capacity) (hstart : completed ≤ start)
    (hn : start + n ≤ written.length) (hend : offset + n ≤ rb.capacity) :
    load rb.buffer offset n = (written.drop start).take n := by
  have hc := cur.capacity_pos
  have h0 : 0 ≤ offset := by
    rw [hoffset]
    exact Int.emod_nonneg _ (by omega)
  rw [← load_cyclic_of_le rb.buffer h0 hend, hoffset, load_cyclic_emod]
  apply List.ext_getElem
  · rw [load_length, List.length_take, List.length_drop]
    omega
  · intro i hi hi'
    rw [load_length] at hi
    rw [getElem_load, List.getElem_take, List.getElem_drop]
    exact cur.stored (start + i) (by omega) (by omega)

/-- Accepted data is written behind the bytes written so far. -/
theorem Cursors.write (cur : Cursors rb written posted completed) {data : List β}
    (h : (data.length : ℤ) ≤ rb.getFreeSize) :
    ∃ ring, rb.writeBuffer data = some (true, ring) ∧
      Cursors { rb with toRingBuffer := ring } (written ++ data) posted completed ∧
      ring.capacity = rb.capacity := by
  refine ⟨_, RingBuffer.writeBuffer_eq cur.wellFormed h, ?_, rfl⟩
  have hsize := cur.size_eq
  have hcl := cur.completed_le.trans cur.posted_le
  rw [RingBuffer.getFreeSize] at h
  refine ⟨cur.completed_le, ?_, cur.capacity_pos, ?_, ?_, ?_, cur.send_eq, cur.tail_eq, ?_⟩
  · have := cur.posted_le
    rw [List.length_append]
    omega
  · simp only [RingBuffer.advanceHead, RingBuffer.withMemory, List.length_append, Nat.cast_add]
    omega
  · simp only [RingBuffer.advanceHead, RingBuffer.withMemory]
    omega
  · simp only [RingBuffer.advanceHead, RingBuffer.withMemory, List.length_append, Nat.cast_add]
    rw [cur.head_eq, Int.emod_add_emod]
  · intro i hi hle
    simp only [RingBuffer.advanceHead, RingBuffer.withMemory]
    rw [cur.head_eq, storeCyclic_emod]
    by_cases hold : i < written.length
    · have hmiss := cyclic_storeCyclic_miss rb.buffer (by omega : (i : ℤ) < written.length)
        (by omega : (written.length : ℤ) + data.length ≤ i + rb.capacity)
      rw [hmiss, List.getElem_append_left hold]
      exact cur.stored i hold hle
    · rw [List.length_append] at hi
      obtain ⟨j, rfl⟩ := Nat.exists_eq_add_of_le (not_lt.mp hold)
      have hhit := cyclic_storeCyclic_hit rb.buffer written.length
        (by omega : (data.length : ℤ) ≤ rb.capacity) (by omega : j < data.length)
      rw [Nat.cast_add, hhit, List.getElem_append_right (Nat.le_add_right _ _)]
      congr 1
      omega

/-- Accounting for a posted chunk moves the send position over it. -/
theorem Cursors.send (cur : Cursors rb written posted completed) {n : ℕ}
    (h : (n : ℤ) ≤ rb.getSendDataSize) (hn : (n : ℤ) ≤ written.length - posted) :
    ∃ rb', rb.onSendBuffer n = (true, rb') ∧ rb'.toRingBuffer = rb.toRingBuffer ∧
      Cursors rb' written (posted + n) completed := by
  refine ⟨{ rb with sendPos := (rb.sendPos + n) % rb.capacity }, ?_, rfl, ?_⟩
  · rw [onSendBuffer, if_neg (by omega)]
  · have hle := cur.completed_le
    refine ⟨by omega, by omega, cur.capacity_pos, cur.size_eq, cur.size_le, cur.head_eq, ?_,
      cur.tail_eq, cur.stored⟩
    dsimp only
    rw [cur.send_eq, Int.emod_add_emod, Nat.cast_add]

/-- Accounting for a completed chunk moves the tail over it. -/
theorem Cursors.read (cur : Cursors rb written posted completed) {n : ℕ}
    (h : completed + n ≤ posted) :
    ∃ ring, rb.onReadBuffer n = (true, ring) ∧
      Cursors { rb with toRingBuffer := ring } written posted (completed + n) ∧
      ring.capacity = rb.capacity := by
  have hsize := cur.size_eq
  have hsize' := cur.size_le
  have hp := cur.posted_le
  refine ⟨_, RingBuffer.onReadBuffer_eq (by omega), ?_, rfl⟩
  refine ⟨h, hp, cur.capacity_pos, ?_, ?_, cur.head_eq, cur.send_eq, ?_,
    fun i hi hle => cur.stored i hi (by omega)⟩
  · simp only [RingBuffer.advanceTail]
    omega
  · simp only [RingBuffer.advanceTail]
    omega
  · simp only [RingBuffer.advanceTail]
    rw [cur.tail_eq, Int.emod_add_emod, Nat.cast_add]

/-- The cells `WriteBuffer` may write to hold no byte that is not completed. -/
theorem Cursors.free_cells (cur : Cursors rb written posted completed) {start n : ℕ} {offset : ℤ}
    (hoffset : offset = start % rb.capacity) (hstart : completed ≤ start)
    (hn : start + n ≤ written.length) {k : ℕ} (hk : k < rb.getFreeSize) :
    (rb.headPos + k) % rb.capacity < offset ∨
      offset + n ≤ (rb.headPos + k) % rb.capacity := by
  have hc := cur.capacity_pos
  have hsize := cur.size_eq
  rw [RingBuffer.getFreeSize] at hk
  by_contra hcell
  obtain ⟨hlo, hhi⟩ := not_or.mp hcell
  -- the cell `offset + j` would be reached from the head within one turn
  obtain ⟨j, hj⟩ := Int.eq_ofNat_of_zero_le
    (by omega : 0 ≤ (rb.headPos + k) % rb.capacity - offset)
  have hcong : (written.length + k - (start + j) : ℤ) % rb.capacity = 0 := by
    rw [cur.head_eq, Int.emod_add_emod, hoffset] at hj
    have h1 : (written.length + k : ℤ) % rb.capacity =
        (start % rb.capacity + j) % rb.capacity := by
      rw [← Int.emod_emod, ← hj]
      congr 1
      omega
    rw [Int.emod_add_emod] at h1
    exact Int.emod_eq_zero_of_dvd (Int.ModEq.dvd h1.symm)
  have hlt : (written.length + k - (start + j) : ℤ) < rb.capacity := by omega
  rw [Int.emod_eq_of_lt (by omega) hlt] at hcong
  omega

end Cursors

section Layout

variable {capacity : ℤ} {written : List β} {start : ℕ}

/-- The chunk holds the bytes written from `start` on, at their place. -/
structure ChunkAt (capacity : ℤ) (written : List β) (start : ℕ) (c : Chunk β) : Prop where
  /-- It starts in the cell of its first byte. -/
  offset_eq : c.offset = start % capacity
  /-- It is not empty. -/
  length_pos : 0 < c.length
  /-- It does not pass the end of the buffer. -/
  end_le : c.offset + c.length ≤ capacity
  /-- Its length is the number of its bytes. -/
  length_eq : c.length = c.bytes.length
  /-- Its bytes are those written. -/
  bytes_written : c.bytes <+: written.drop start

/-- The chunks hold consecutive bytes from `start` on. -/
def Laid (capacity : ℤ) (written : List β) : ℕ → List (Chunk β) → Prop
  | _, [] => True
  | start, c :: cs => ChunkAt capacity written start c ∧
      Laid capacity written (start + c.bytes.length) cs

/-- The bytes of the chunks one after the other. -/
def chunkBytes (cs : List (Chunk β)) : List β := (cs.map Chunk.bytes).flatten

@[simp] theorem chunkBytes_nil : chunkBytes ([] : List (Chunk β)) = [] := rfl

@[simp] theorem chunkBytes_cons (c : Chunk β) (cs : List (Chunk β)) :
    chunkBytes (c :: cs) = c.bytes ++ chunkBytes cs := rfl

@[simp] theorem chunkBytes_append (cs ds : List (Chunk β)) :
    chunkBytes (cs ++ ds) = chunkBytes cs ++ chunkBytes ds := by
  simp [chunkBytes]

/-- A chunk lies inside the bytes written. -/
theorem ChunkAt.end_le_length {c : Chunk β} (h : ChunkAt capacity written start c) :
    start + c.bytes.length ≤ written.length := by
  have hle := h.bytes_written.length_le
  have hpos := h.length_pos
  have heq := h.length_eq
  rw [List.length_drop] at hle
  omega

/-- Writing more bytes leaves a chunk where it is. -/
theorem ChunkAt.extend {c : Chunk β} (h : ChunkAt capacity written start c) (data : List β) :
    ChunkAt capacity (written ++ data) start c := by
  have hle := h.end_le_length
  refine ⟨h.offset_eq, h.length_pos, h.end_le, h.length_eq, ?_⟩
  rw [List.drop_append_of_le_length (by omega)]
  exact h.bytes_written.trans (List.prefix_append _ _)

/-- Chunks laid in two groups. -/
theorem laid_append {cs ds : List (Chunk β)} : Laid capacity written start (cs ++ ds) ↔
    Laid capacity written start cs ∧
      Laid capacity written (start + (chunkBytes cs).length) ds := by
  induction cs generalizing start with
  | nil => simp [Laid]
  | cons c cs ih =>
    simp only [List.cons_append, Laid, ih, chunkBytes_cons, List.length_append, and_assoc,
      Nat.add_assoc]

/-- Writing more bytes leaves the chunks where they are. -/
theorem Laid.extend {cs : List (Chunk β)} (h : Laid capacity written start cs) (data : List β) :
    Laid capacity (written ++ data) start cs := by
  induction cs generalizing start with
  | nil => trivial
  | cons c cs ih => exact ⟨h.1.extend data, ih h.2⟩

/-- Laid chunks hold the bytes written from their start on. -/
theorem Laid.bytes_written {cs : List (Chunk β)} (h : Laid capacity written start cs) :
    chunkBytes cs <+: written.drop start := by
  induction cs generalizing start with
  | nil => exact List.nil_prefix
  | cons c cs ih =>
    obtain ⟨t, ht⟩ := h.1.bytes_written
    have hrest := ih h.2
    rw [← List.drop_drop, ← ht, List.drop_left] at hrest
    rw [chunkBytes_cons, ← ht]
    exact (List.prefix_append_right_inj c.bytes).mpr hrest

/-- Every laid chunk has its place. -/
theorem Laid.mem {cs : List (Chunk β)} (h : Laid capacity written start cs) {c : Chunk β}
    (hc : c ∈ cs) : ∃ pos, start ≤ pos ∧ ChunkAt capacity written pos c := by
  induction cs generalizing start with
  | nil => cases hc
  | cons d ds ih =>
    rcases List.mem_cons.mp hc with rfl | hmem
    · exact ⟨start, le_rfl, h.1⟩
    · obtain ⟨pos, hpos, hat⟩ := ih h.2 hmem
      exact ⟨pos, by omega, hat⟩

/-- A chunk posted and not completed is still in the buffer. -/
theorem Cursors.chunk_kept {rb : RioBuffer β} {posted completed pos : ℕ} {c : Chunk β}
    (cur : Cursors rb written posted completed) (h : ChunkAt rb.capacity written pos c)
    (hpos : completed ≤ pos) : load rb.buffer c.offset c.bytes.length = c.bytes := by
  have hend := h.end_le
  rw [h.length_eq] at hend
  rw [cur.load_eq h.offset_eq hpos h.end_le_length hend]
  exact (List.prefix_iff_eq_take.mp h.bytes_written).symm

end Layout

end RioBuffer

end RioIocpServer
