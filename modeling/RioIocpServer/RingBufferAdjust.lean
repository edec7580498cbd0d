import RioIocpServer.RingBufferRuns

/-!
# Adjusting the positions of a ring buffer

`AdjustPos` moves the stored bytes to the front. Whatever the state, they do not pass
the end afterwards. They are the same bytes unless the buffer was full with its data
starting inside, where only the positions are reset, or the data passed the end and
was longer than the room in front of its tail, where the first of the two copies
writes over bytes the second one moves.
-/

namespace RioIocpServer.RingBuffer

open CyclicMemory TransitionSystem

section Branches

variable {β : Type*} {rb : RingBuffer β}

/-- Data that passes the end is read in two pieces. -/
theorem contents_wrapped (wf : rb.WellFormed) (h : rb.headPos < rb.tailPos) :
    rb.contents = load rb.buffer rb.tailPos (rb.capacity - rb.tailPos).toNat ++
      load rb.buffer 0 rb.headPos.toNat := by
  have hcases := wf.head_cases
  have hs := wf.size_nonneg
  have htl := wf.tail_lt
  have hh := wf.head_bounds
  have hsize : rb.size.toNat = (rb.capacity - rb.tailPos).toNat + rb.headPos.toNat := by omega
  rw [contents, hsize, load_cyclic_wrap rb.buffer wf.tail_nonneg (by omega) (by omega)]

/-- The data behind both copies: its second piece is what it was, its first piece is
read over the copied second one. -/
theorem contents_adjustPos_wrapped (wf : rb.WellFormed) (h : rb.headPos < rb.tailPos) :
    rb.adjustPos.contents =
      load (memcpy rb.buffer (rb.capacity - rb.tailPos) 0 rb.headPos) rb.tailPos
        (rb.capacity - rb.tailPos).toNat ++ load rb.buffer 0 rb.headPos.toNat := by
  have hcases := wf.head_cases
  have hs := wf.size_nonneg
  have htl := wf.tail_lt
  have hh := wf.head_bounds
  have hsize : rb.size.toNat = (rb.capacity - rb.tailPos).toNat + rb.headPos.toNat := by omega
  have hfirst : (0 : ℤ) + ((rb.capacity - rb.tailPos).toNat : ℤ) = rb.capacity - rb.tailPos := by
    omega
  have hcell := load_store (memcpy rb.buffer (rb.capacity - rb.tailPos) 0 rb.headPos) 0
    (load (memcpy rb.buffer (rb.capacity - rb.tailPos) 0 rb.headPos) rb.tailPos
      (rb.capacity - rb.tailPos).toNat)
  have hmoved := load_store rb.buffer (rb.capacity - rb.tailPos)
    (load rb.buffer 0 rb.headPos.toNat)
  rw [load_length] at hcell hmoved
  have hadjust : rb.adjustPos.contents = load (cyclic (memcpy (memcpy rb.buffer
      (rb.capacity - rb.tailPos) 0 rb.headPos) 0 rb.tailPos (rb.capacity - rb.tailPos))
      rb.capacity) 0 rb.size.toNat := by
    simp only [contents, adjustPos]
    rw [if_neg (by omega)]
  rw [hadjust, load_cyclic_of_le _ le_rfl (by omega), hsize, load_add, hfirst]
  congr 1
  rw [memcpy, load_store_of_disjoint _ (.inr (by rw [load_length]; omega))]
  exact hmoved

/-- Where head and tail meet only the positions change. -/
theorem adjustPos_of_meet (h : rb.headPos = rb.tailPos) :
    rb.adjustPos = { rb with headPos := 0, tailPos := 0 } := by
  rw [adjustPos, if_pos (by omega)]
  exact if_pos h

/-- The positions are such that no byte is lost: a full buffer starts at the front, and
data that passes the end fits in front of its tail. -/
structure Survives (rb : RingBuffer β) : Prop where
  /-- Where head and tail meet nothing is stored, or they are at the front. -/
  meet : rb.headPos = rb.tailPos → rb.size = 0 ∨ rb.tailPos = 0
  /-- Data that passes the end is all behind its tail, or fits in front of it. -/
  wrapped : rb.headPos < rb.tailPos → rb.headPos = 0 ∨ rb.size ≤ rb.tailPos

/-- `AdjustPos` keeps the data and leaves it in one piece from its tail on. -/
structure Preserved (rb : RingBuffer β) : Prop where
  /-- The data is the same. -/
  contents_eq : rb.adjustPos.contents = rb.contents
  /-- It does not pass the end. -/
  unwrapped : rb.adjustPos.tailPos + rb.adjustPos.size ≤ rb.adjustPos.capacity

/-- In such positions the data is the same afterwards, whatever it is. -/
theorem Survives.contents_adjustPos (h : rb.Survives) (wf : rb.WellFormed) :
    rb.adjustPos.contents = rb.contents := by
  have hcases := wf.head_cases
  have hs := wf.size_nonneg
  have hfit := wf.size_le
  have ht := wf.tail_nonneg
  rcases lt_trichotomy rb.headPos rb.tailPos with hlt | heq | hgt
  · rw [contents_adjustPos_wrapped wf hlt, contents_wrapped wf hlt]
    congr 1
    rcases h.wrapped hlt with hz | hle
    · rw [hz, memcpy, Int.toNat_zero, load_zero, store_nil]
    · exact load_store_of_disjoint _ (.inr (by rw [load_length]; omega))
  · rw [adjustPos_of_meet heq]
    rcases h.meet heq with hz | hz
    · simp [contents, hz]
    · simp [contents, hz]
  · exact (adjustPos_compacted wf (by omega) (by omega)).contents_eq

end Branches

section Loss

variable {rb : RingBuffer UInt8}

/-- A memory with a 1 in one cell. -/
def mark (cell : ℤ) : ℤ → UInt8 := fun i => if i = cell then 1 else 0

/-- A full buffer whose data starts inside is read from another byte on. -/
theorem not_preserved_of_meet (wf : rb.WellFormed) (heq : rb.headPos = rb.tailPos)
    (hs : rb.size ≠ 0) (ht : rb.tailPos ≠ 0) : ¬ (rb.withMemory (mark 0)).Preserved := by
  intro h
  have hnonneg := wf.size_nonneg
  have htl := wf.tail_lt
  have htn := wf.tail_nonneg
  have hadjust : (rb.withMemory (mark 0)).adjustPos =
      { rb.withMemory (mark 0) with headPos := 0, tailPos := 0 } := adjustPos_of_meet heq
  have hkept := congrArg List.head? h.contents_eq
  rw [hadjust] at hkept
  obtain ⟨n, hn⟩ := Nat.exists_eq_succ_of_ne_zero (by omega : rb.size.toNat ≠ 0)
  simp only [contents, withMemory, hn, load, List.range_succ_eq_map, List.map_cons,
    List.head?_cons, cyclic, mark, Nat.cast_zero, add_zero, Int.zero_emod, Int.emod_eq_of_lt htn htl,
    if_neg ht, if_true] at hkept
  exact absurd hkept (by decide)

/-- Wrapped data longer than the room in front of its tail loses a byte. -/
theorem not_preserved_of_wrapped (wf : rb.WellFormed) (hlt : rb.headPos < rb.tailPos)
    (hhead : rb.headPos ≠ 0) (hsize : rb.tailPos < rb.size) :
    ∃ cell, ¬ (rb.withMemory (mark cell)).Preserved := by
  have hcases := wf.head_cases
  have htl := wf.tail_lt
  have hh := wf.head_bounds
  -- the first cell of the data's first piece that the copied second piece covers
  refine ⟨max rb.tailPos (rb.capacity - rb.tailPos), fun h => ?_⟩
  generalize hcell : max rb.tailPos (rb.capacity - rb.tailPos) = cell at h
  obtain ⟨i, hi⟩ := Int.eq_ofNat_of_zero_le (by omega : 0 ≤ cell - (rb.capacity - rb.tailPos))
  obtain ⟨j, hj⟩ := Int.eq_ofNat_of_zero_le (by omega : 0 ≤ cell - rb.tailPos)
  have wf' : (rb.withMemory (mark cell)).WellFormed := wf.withMemory (mark cell)
  have hkept := h.contents_eq
  rw [contents_adjustPos_wrapped wf' hlt, contents_wrapped wf' hlt, List.append_left_inj] at hkept
  have hbyte := congrArg (fun xs : List UInt8 => xs[j]?) hkept
  have hold : (load (rb.withMemory (mark cell)).buffer rb.tailPos
      (rb.capacity - rb.tailPos).toNat)[j]? = some 1 := by
    rw [List.getElem?_eq_getElem (by rw [load_length]; omega), getElem_load]
    simp [withMemory, mark]
    omega
  have hnew : (load (memcpy (rb.withMemory (mark cell)).buffer (rb.capacity - rb.tailPos) 0
      rb.headPos) rb.tailPos (rb.capacity - rb.tailPos).toNat)[j]? = some 0 := by
    have hpos : rb.tailPos + (j : ℤ) = rb.capacity - rb.tailPos + (i : ℤ) := by omega
    rw [List.getElem?_eq_getElem (by rw [load_length]; omega), getElem_load, memcpy, hpos,
      store_hit _ _ _ (by rw [load_length]; omega), getElem_load]
    simp [withMemory, mark]
    omega
  exact absurd (hnew.symm.trans (hbyte.trans hold)) (by decide)

/-- For every capacity and every state a ring buffer comes to: `AdjustPos` keeps the data,
whatever its bytes are, exactly if a full buffer starts at the front and data that passes
the end fits in front of its tail. It never leaves data that passes the end. -/
theorem adjustPos_preserved_iff (memory : ℤ → UInt8) {capacity : ℤ} (hcap : 0 < capacity)
    (rb : RingBuffer UInt8) (h : Reachable step (new memory capacity) rb) :
    (∀ bytes, (rb.withMemory bytes).Preserved) ↔ rb.Survives := by
  have wf := (inv_reachable hcap h).wellFormed
  constructor
  · intro hall
    refine ⟨fun heq => ?_, fun hlt => ?_⟩
    · by_contra hnot
      exact not_preserved_of_meet wf heq (fun hz => hnot (.inl hz)) (fun hz => hnot (.inr hz))
        (hall _)
    · by_contra hnot
      obtain ⟨cell, hcell⟩ := not_preserved_of_wrapped wf hlt (fun hz => hnot (.inl hz))
        (lt_of_not_ge fun hle => hnot (.inr hle))
      exact hcell (hall _)
  · intro hsurvives bytes
    have wf' := wf.withMemory bytes
    have hsurvives' : (rb.withMemory bytes).Survives := ⟨hsurvives.meet, hsurvives.wrapped⟩
    exact ⟨hsurvives'.contents_adjustPos wf', (adjustPos_positions wf').2.2.2⟩

end Loss

/-- Five cells behind some operations. -/
def fiveCells (ops : List (Operation UInt8)) : RingBuffer UInt8 :=
  (run step (new (fun _ => 0) 5) ops).getD (new (fun _ => 0) 5)

/-- Operations that are all performed lead there. -/
theorem fiveCells_reachable {ops : List (Operation UInt8)}
    (h : (run step (new (fun _ => 0) 5) ops).isSome = true) :
    Reachable step (new (fun _ => 0) 5) (fiveCells ops) := by
  obtain ⟨rb, hrun⟩ := Option.isSome_iff_exists.mp h
  exact ⟨ops, by rw [fiveCells, hrun, Option.getD_some]⟩

/-- The bytes 3 and 4 behind two cells that were read. -/
def behind : RingBuffer UInt8 := fiveCells [.writeBuffer [1, 2, 3, 4], .readBuffer 2]

/-- They are kept. -/
theorem behind_preserved : behind.Preserved :=
  (adjustPos_preserved_iff (fun _ => 0) (by decide) behind (fiveCells_reachable (by decide))).mpr
    ⟨fun h => absurd h (by decide), fun h => absurd h (by decide)⟩ behind.buffer

/-- The bytes 3 to 6, the last of which is at the front. -/
def overtaken : RingBuffer UInt8 :=
  fiveCells [.writeBuffer [1, 2, 3, 4], .readBuffer 2, .writeBuffer [5, 6]]

/-- The bytes 3 to 7, which fill the buffer from its third cell on. -/
def turned : RingBuffer UInt8 :=
  fiveCells [.writeBuffer [1, 2, 3, 4], .readBuffer 2, .writeBuffer [5, 6, 7]]

/-- The data of the one becomes 3, 6, 5, 6, that of the other starts at 6. -/
theorem overtaken_turned_not_preserved :
    (Reachable step (new (fun _ => 0) 5) overtaken ∧ overtaken.contents = [3, 4, 5, 6] ∧
      overtaken.adjustPos.contents = [3, 6, 5, 6] ∧ ¬ overtaken.Preserved) ∧
    (Reachable step (new (fun _ => 0) 5) turned ∧ turned.contents = [3, 4, 5, 6, 7] ∧
      turned.adjustPos.contents = [6, 7, 3, 4, 5] ∧ ¬ turned.Preserved) :=
  ⟨⟨fiveCells_reachable (by decide), by decide, by decide,
      fun h => absurd h.contents_eq (by decide)⟩,
    ⟨fiveCells_reachable (by decide), by decide, by decide,
      fun h => absurd h.contents_eq (by decide)⟩⟩

end RioIocpServer.RingBuffer
