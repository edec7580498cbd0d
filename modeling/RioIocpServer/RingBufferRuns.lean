import RioIocpServer.TransitionSystem
import RioIocpServer.RingBufferRead
import RioIocpServer.RingBufferWrite

/-!
# Sequences of ring buffer operations

The operations of a ring buffer in any order from its constructor on, and whatever
its user stores in the memory in between. A `ReadBuffer` that does not return and a
sum of a position and a size that no `int` holds, which has no defined value, are
not performed. Every state reached is well-formed; only a full buffer is not read
from rightly.
-/

namespace RioIocpServer.RingBuffer

open CyclicMemory TransitionSystem

variable {β : Type*}

/-- The greatest `int`. -/
def intMax : ℤ := 2 ^ 31 - 1

/-- A use of a ring buffer. -/
inductive Operation (β : Type*) where
  /-- `WriteBuffer`. -/
  | writeBuffer (data : List β)
  /-- `OnWriteBuffer`. -/
  | onWriteBuffer (writeSize : ℕ)
  /-- `ReadBuffer`. -/
  | readBuffer (readSize : ℕ)
  /-- `OnReadBuffer`. -/
  | onReadBuffer (readSize : ℕ)
  /-- `AdjustPos`. -/
  | adjustPos
  /-- The user changes the memory. -/
  | store (memory : ℤ → β)

/-- The operation and what it returns, `true` where it returns nothing. -/
def call (rb : RingBuffer β) : Operation β → Option (Bool × RingBuffer β)
  | .writeBuffer data => rb.writeBuffer data
  | .onWriteBuffer writeSize =>
    if writeSize ≤ rb.getFreeSize ∧ intMax < rb.headPos + writeSize then none
    else some (rb.onWriteBuffer writeSize)
  | .readBuffer readSize =>
    (readBuffer (readSize + 1) rb readSize).map fun read => (read.result, read.ringBuffer)
  | .onReadBuffer readSize =>
    if readSize ≤ rb.getDataSize ∧ intMax < rb.tailPos + readSize then none
    else some (rb.onReadBuffer readSize)
  | .adjustPos => some (true, rb.adjustPos)
  | .store memory => some (true, rb.withMemory memory)

/-- The buffer behind an operation. -/
def step (rb : RingBuffer β) (op : Operation β) : Option (RingBuffer β) :=
  (rb.call op).map Prod.snd

section Operations

variable {rb rb' : RingBuffer β} {op : Operation β}

/-- Whatever the branch, `AdjustPos` leaves the data from the tail on without a wrap and
the head at its end. -/
theorem adjustPos_positions (wf : rb.WellFormed) : rb.adjustPos.WellFormed ∧
    rb.adjustPos.capacity = rb.capacity ∧ rb.adjustPos.size = rb.size ∧
    rb.adjustPos.tailPos + rb.adjustPos.size ≤ rb.adjustPos.capacity := by
  have hs := wf.size_nonneg
  have hle := wf.size_le
  have ht := wf.tail_nonneg
  have htl := wf.tail_lt
  have hcases := wf.head_cases
  have hfront : ∀ (buffer : ℤ → β) (head : ℤ), head = rb.size % rb.capacity →
      (⟨rb.capacity, rb.size, buffer, head, 0⟩ : RingBuffer β).WellFormed := by
    intro buffer head hhead
    exact ⟨hs, hle, le_rfl, ht.trans_lt htl, by rw [zero_add]; exact hhead⟩
  unfold adjustPos
  split
  · dsimp only
    split
    · -- head and tail meet: the buffer is empty or full
      refine ⟨hfront _ 0 ?_, rfl, rfl, by dsimp only; omega⟩
      obtain hz | hfull : rb.size = 0 ∨ rb.size = rb.capacity := by omega
      · rw [hz, Int.zero_emod]
      · rw [hfull, Int.emod_self]
    · split
      · refine ⟨hfront _ _ ?_, rfl, rfl, by dsimp only; omega⟩
        exact (Int.emod_eq_of_lt hs (by omega)).symm
      · exact ⟨wf, rfl, rfl, by omega⟩
  · -- the two parts make up the size
    dsimp only
    have hparts : rb.capacity - rb.tailPos + rb.headPos = rb.size := by omega
    rw [hparts]
    exact ⟨hfront _ _ (Int.emod_eq_of_lt hs (by omega)).symm, rfl, rfl, by omega⟩

/-- A read that returns took bytes that were there, or changes nothing. -/
theorem readBuffer_cases (wf : rb.WellFormed) {n : ℕ} {read : ReadResult β}
    (h : readBuffer (n + 1) rb n = some read) :
    read.result = true ∧ (n : ℤ) ≤ rb.size ∧ read.ringBuffer = rb.advanceTail n ∨
      read.result = false ∧ read.ringBuffer = rb := by
  by_cases hle : (n : ℤ) ≤ rb.size
  · by_cases hfull : (n : ℤ) = 0 ∨ rb.size < rb.capacity
    · have heq := readBuffer_eq wf (Int.natCast_nonneg n) hle hfull
      rw [Int.toNat_natCast] at heq
      rw [heq] at h
      cases h
      exact .inl ⟨rfl, hle, rfl⟩
    · have hs := wf.size_le
      rw [readBuffer_hangs wf (by omega) (by omega) hle] at h
      cases h
  · rw [readBuffer_refused _ (by omega)] at h
    cases h
    exact .inr ⟨rfl, rfl⟩

/-- What an operation does that is not refused. -/
inductive Performed (rb : RingBuffer β) : Operation β → RingBuffer β → Prop where
  /-- The data is written around the end. -/
  | writeBuffer {data : List β} (h : (data.length : ℤ) ≤ rb.getFreeSize) :
      Performed rb (.writeBuffer data)
        ((rb.withMemory (storeCyclic rb.buffer rb.capacity rb.headPos data)).advanceHead
          data.length)
  /-- The head advances. -/
  | onWriteBuffer {n : ℕ} (h : n ≤ rb.getFreeSize) :
      Performed rb (.onWriteBuffer n) (rb.advanceHead n)
  /-- The tail advances over the bytes read. -/
  | readBuffer {n : ℕ} (h : n ≤ rb.size) : Performed rb (.readBuffer n) (rb.advanceTail n)
  /-- The tail advances. -/
  | onReadBuffer {n : ℕ} (h : n ≤ rb.size) : Performed rb (.onReadBuffer n) (rb.advanceTail n)
  /-- The positions are adjusted. -/
  | adjustPos : Performed rb .adjustPos rb.adjustPos
  /-- The memory is another one. -/
  | store (memory : ℤ → β) : Performed rb (.store memory) (rb.withMemory memory)

/-- An operation that returns was performed, or was refused and changed nothing. -/
theorem call_cases (wf : rb.WellFormed) {result : Bool} (h : rb.call op = some (result, rb')) :
    result = true ∧ Performed rb op rb' ∨ result = false ∧ rb' = rb := by
  have hdata : rb.getDataSize = rb.size := rfl
  cases op with
  | writeBuffer data =>
    simp only [call] at h
    by_cases hfree : (data.length : ℤ) ≤ rb.getFreeSize
    · rw [writeBuffer_eq wf hfree] at h
      cases h
      exact .inl ⟨rfl, .writeBuffer hfree⟩
    · rw [writeBuffer_refused (by omega)] at h
      cases h
      exact .inr ⟨rfl, rfl⟩
  | onWriteBuffer n =>
    simp only [call] at h
    split at h
    · cases h
    · by_cases hfree : (n : ℤ) ≤ rb.getFreeSize
      · rw [onWriteBuffer_eq hfree] at h
        cases h
        exact .inl ⟨rfl, .onWriteBuffer hfree⟩
      · rw [onWriteBuffer, if_pos (by omega)] at h
        cases h
        exact .inr ⟨rfl, rfl⟩
  | readBuffer n =>
    simp only [call, Option.map_eq_some_iff] at h
    obtain ⟨⟨result', destData, next⟩, hread, heq⟩ := h
    cases heq
    rcases readBuffer_cases wf hread with ⟨hr, hle, hrb⟩ | ⟨hr, hrb⟩
    · cases hrb
      exact .inl ⟨hr, .readBuffer hle⟩
    · exact .inr ⟨hr, hrb⟩
  | onReadBuffer n =>
    simp only [call] at h
    split at h
    · cases h
    · by_cases hle : (n : ℤ) ≤ rb.size
      · rw [onReadBuffer_eq hle] at h
        cases h
        exact .inl ⟨rfl, .onReadBuffer hle⟩
      · rw [onReadBuffer, if_pos (by omega)] at h
        cases h
        exact .inr ⟨rfl, rfl⟩
  | adjustPos =>
    cases h
    exact .inl ⟨rfl, .adjustPos⟩
  | store memory =>
    cases h
    exact .inl ⟨rfl, .store memory⟩

/-- Every operation performed keeps the buffer well-formed and its capacity. -/
theorem Performed.wellFormed (h : Performed rb op rb') (wf : rb.WellFormed) :
    rb'.WellFormed ∧ rb'.capacity = rb.capacity := by
  cases h with
  | writeBuffer h => exact ⟨(wf.withMemory _).advanceHead (Int.natCast_nonneg _) h, rfl⟩
  | onWriteBuffer h => exact ⟨wf.advanceHead (Int.natCast_nonneg _) h, rfl⟩
  | readBuffer h => exact ⟨wf.advanceTail (Int.natCast_nonneg _) h, rfl⟩
  | onReadBuffer h => exact ⟨wf.advanceTail (Int.natCast_nonneg _) h, rfl⟩
  | adjustPos => exact ⟨(adjustPos_positions wf).1, (adjustPos_positions wf).2.1⟩
  | store memory => exact ⟨wf.withMemory memory, rfl⟩

/-- An operation that returns `false` changes nothing. -/
theorem call_refused (wf : rb.WellFormed) (h : rb.call op = some (false, rb')) : rb' = rb := by
  rcases call_cases wf h with ⟨hr, -⟩ | ⟨-, hrb⟩
  · cases hr
  · exact hrb

/-- Up to a capacity of 2^30 every operation is performed or refused but a read from a
full buffer. -/
theorem call_isSome (wf : rb.WellFormed) (hcap : rb.capacity ≤ 2 ^ 30)
    (hread : ∀ n : ℕ, op = .readBuffer n → ¬ (rb.size = rb.capacity ∧ 0 < n ∧ n ≤ rb.size)) :
    (rb.call op).isSome = true := by
  have hs := wf.size_nonneg
  have hle := wf.size_le
  have ht := wf.tail_lt
  have hh := wf.head_bounds
  have hmax : intMax = 2 ^ 31 - 1 := rfl
  have hfree : rb.getFreeSize = rb.capacity - rb.size := rfl
  have hdata : rb.getDataSize = rb.size := rfl
  cases op with
  | writeBuffer data =>
    simp only [call]
    by_cases hfits : (data.length : ℤ) ≤ rb.getFreeSize
    · rw [writeBuffer_eq wf hfits, Option.isSome_some]
    · rw [writeBuffer_refused (by omega), Option.isSome_some]
  | onWriteBuffer n =>
    simp only [call]
    rw [if_neg (by omega), Option.isSome_some]
  | readBuffer n =>
    have hnot := hread n rfl
    simp only [call]
    by_cases hn : (n : ℤ) ≤ rb.size
    · have heq := readBuffer_eq wf (Int.natCast_nonneg n) hn (by omega)
      rw [Int.toNat_natCast] at heq
      rw [heq]
      rfl
    · rw [readBuffer_refused _ (by omega)]
      rfl
  | onReadBuffer n =>
    simp only [call]
    rw [if_neg (by omega), Option.isSome_some]
  | adjustPos => rfl
  | store memory => rfl

end Operations

section Runs

variable {rb : RingBuffer β} {memory : ℤ → β} {capacity : ℤ}

/-- A well-formed ring buffer of the given capacity. -/
structure Inv (capacity : ℤ) (rb : RingBuffer β) : Prop where
  /-- The buffer is well-formed. -/
  wellFormed : rb.WellFormed
  /-- The capacity is the one given to the constructor. -/
  capacity_eq : rb.capacity = capacity

/-- Every operation keeps the invariant. -/
theorem inv_step (inv : Inv capacity rb) {op : Operation β} {rb' : RingBuffer β}
    (h : rb.step op = some rb') : Inv capacity rb' := by
  obtain ⟨⟨result, next⟩, hcall, rfl⟩ := Option.map_eq_some_iff.mp h
  rcases call_cases inv.wellFormed hcall with ⟨-, hperf⟩ | ⟨-, hsame⟩
  · obtain ⟨wf, hc⟩ := hperf.wellFormed inv.wellFormed
    exact ⟨wf, hc.trans inv.capacity_eq⟩
  · cases hsame
    exact inv

/-- Every state a ring buffer comes to is well-formed. -/
theorem inv_reachable (hcap : 0 < capacity) (h : Reachable step (new memory capacity) rb) :
    Inv capacity rb :=
  h.invariant ⟨new_wellFormed memory hcap, rfl⟩ fun _ _ _ inv hs => inv_step inv hs

/-- What holds of a ring buffer in every state. -/
structure Sound (capacity : ℤ) (rb : RingBuffer β) : Prop where
  /-- The capacity is the one given to the constructor. -/
  capacity_eq : rb.capacity = capacity
  /-- The size is that of bytes that fit. -/
  size_bounds : 0 ≤ rb.size ∧ rb.size ≤ rb.capacity
  /-- The head is inside the buffer. -/
  head_bounds : 0 ≤ rb.headPos ∧ rb.headPos < rb.capacity
  /-- The tail is inside the buffer. -/
  tail_bounds : 0 ≤ rb.tailPos ∧ rb.tailPos < rb.capacity
  /-- The head is the tail advanced by the size. -/
  head_eq : rb.headPos = (rb.tailPos + rb.size) % rb.capacity
  /-- An operation that returns `false` leaves the fields and the memory as they are. -/
  refused : ∀ op rb', rb.call op = some (false, rb') → rb' = rb

/-- For every capacity and every sequence of operations, the positions and the size
agree in every state reached, and a refused operation changes nothing. An operation in
which the sum of two `int`s overflows is no step; up to a capacity of 2^30 there is none
(`call_isSome`). -/
theorem ringBuffer_sound (memory : ℤ → β) {capacity : ℤ} (hcap : 0 < capacity) (rb : RingBuffer β)
    (h : Reachable step (new memory capacity) rb) : Sound capacity rb := by
  obtain ⟨wf, hc⟩ := inv_reachable hcap h
  exact
    { capacity_eq := hc
      size_bounds := ⟨wf.size_nonneg, wf.size_le⟩
      head_bounds := wf.head_bounds
      tail_bounds := ⟨wf.tail_nonneg, wf.tail_lt⟩
      head_eq := wf.head_eq
      refused := fun _ _ => call_refused wf }

/-- For every capacity and every state reached by any operations, a read is right
exactly if it does not ask a full buffer for bytes. -/
theorem reachable_readsOldest_iff (memory : ℤ → β) {capacity : ℤ} (hcap : 0 < capacity)
    (rb : RingBuffer β) (h : Reachable step (new memory capacity) rb) {n : ℤ} (h0 : 0 ≤ n) :
    ReadsOldest rb n ↔ ¬ (rb.size = rb.capacity ∧ 0 < n ∧ n ≤ rb.size) :=
  readsOldest_iff (inv_reachable hcap h).wellFormed h0

end Runs

/-- Four cells that four bytes were written to. -/
def fullBuffer : RingBuffer ℕ :=
  ((new (fun _ => 0) 4).withMemory (storeCyclic (fun _ => 0) 4 0 [1, 2, 3, 4])).advanceHead 4

/-- One call of `WriteBuffer` leads there. -/
theorem fullBuffer_reachable : Reachable step (new (fun _ => 0) 4) fullBuffer := by
  have hwrite : (new (fun _ => 0) 4).writeBuffer [1, 2, 3, 4] = some (true, fullBuffer) :=
    writeBuffer_eq (new_wellFormed _ (by decide)) (by decide)
  refine ⟨[.writeBuffer [1, 2, 3, 4]], ?_⟩
  rw [run_cons, step, call, hwrite]
  rfl

/-- It is sound. -/
theorem fullBuffer_sound : Sound 4 fullBuffer :=
  ringBuffer_sound (fun _ => 0) (by decide) fullBuffer fullBuffer_reachable

/-- A read of five bytes from it is refused rightly. -/
theorem fullBuffer_refuses : ReadsOldest fullBuffer 5 :=
  (reachable_readsOldest_iff (fun _ => 0) (by decide) fullBuffer fullBuffer_reachable
    (by decide)).mpr (by decide)

/-- A read of one byte from it does not return. -/
theorem fullBuffer_not_read : Reachable step (new (fun _ => 0) 4) fullBuffer ∧
    (∀ fuel, readBuffer fuel fullBuffer 1 = none) ∧ ¬ ReadsOldest fullBuffer 1 := by
  have wf := (inv_reachable (by decide) fullBuffer_reachable).wellFormed
  have hhang : ∀ fuel, readBuffer fuel fullBuffer 1 = none :=
    readBuffer_hangs wf (by decide) (by decide) (by decide)
  refine ⟨fullBuffer_reachable, hhang, fun h => ?_⟩
  obtain ⟨fuel, rb', hread, -⟩ := h.read (by decide)
  rw [hhang] at hread
  cases hread

end RioIocpServer.RingBuffer
