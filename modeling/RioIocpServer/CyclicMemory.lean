import Mathlib.Data.Int.ModEq
import Mathlib.Data.List.Range
import Mathlib.Tactic.Ring
import Mathlib.Tactic.Linarith

/-!
# Byte memory, linear and cyclic

A memory maps an integer offset to the value stored there. `load` and `store`
are the linear accesses of a block copy. The first `c` cells of a memory, read
around as often as needed, form a periodic memory; a ring buffer is such a
memory seen between two positions that are only ever known modulo `c`. Linear
and cyclic accesses agree as long as no position passes the end.
-/

namespace RioIocpServer.CyclicMemory

variable {β : Type*}

/-- The `n` values from `pos` on. -/
def load (m : ℤ → β) (pos : ℤ) (n : ℕ) : List β := (List.range n).map fun i : ℕ => m (pos + i)

/-- The memory with the values written from `pos` on. -/
def store (m : ℤ → β) (pos : ℤ) (xs : List β) : ℤ → β := fun i =>
  if pos ≤ i then (xs[(i - pos).toNat]?).getD (m i) else m i

/-- The periodic memory that repeats the cells `0` to `c - 1`. -/
def cyclic (m : ℤ → β) (c : ℤ) : ℤ → β := fun i => m (i % c)

/-- The memory with the values written from `pos` on around the end `c`. -/
def storeCyclic (m : ℤ → β) (c pos : ℤ) (xs : List β) : ℤ → β := fun i =>
  if 0 ≤ i ∧ i < c then (xs[((i - pos) % c).toNat]?).getD (m i) else m i

@[simp] theorem load_length (m : ℤ → β) (pos : ℤ) (n : ℕ) : (load m pos n).length = n := by
  simp [load]

@[simp] theorem load_zero (m : ℤ → β) (pos : ℤ) : load m pos 0 = [] := rfl

/-- A loaded value is the one stored at its offset. -/
theorem getElem_load (m : ℤ → β) (pos : ℤ) {n i : ℕ} (h : i < (load m pos n).length) :
    (load m pos n)[i] = m (pos + i) := by
  simp [load]

/-- Two lists of loaded values agree where the memories do. -/
theorem load_congr {m m' : ℤ → β} {pos pos' : ℤ} {n : ℕ}
    (h : ∀ i : ℕ, i < n → m (pos + i) = m' (pos' + i)) : load m pos n = load m' pos' n := by
  apply List.map_congr_left
  intro i hi
  exact h i (List.mem_range.mp hi)

/-- A shifted memory is loaded from the shifted offset. -/
theorem load_shift (m : ℤ → β) (pos : ℤ) (n : ℕ) : load (fun i => m (pos + i)) 0 n = load m pos n :=
  load_congr fun i _ => by rw [zero_add]

/-- Loading in two parts. -/
theorem load_add (m : ℤ → β) (pos : ℤ) (a b : ℕ) :
    load m pos (a + b) = load m pos a ++ load m (pos + a) b := by
  unfold load
  rw [List.range_add, List.map_append, List.map_map]
  congr 1
  apply List.map_congr_left
  intro i _
  simp only [Function.comp_apply, Nat.cast_add]
  congr 1
  ring

/-- The first values of a load are a shorter load. -/
theorem take_load (m : ℤ → β) (pos : ℤ) {k n : ℕ} (h : k ≤ n) :
    (load m pos n).take k = load m pos k := by
  obtain ⟨b, rfl⟩ := Nat.exists_eq_add_of_le h
  rw [load_add, List.take_left' (load_length m pos k)]

/-- The remaining values of a load are a later load. -/
theorem drop_load (m : ℤ → β) (pos : ℤ) {k n : ℕ} (h : k ≤ n) :
    (load m pos n).drop k = load m (pos + k) (n - k) := by
  obtain ⟨b, rfl⟩ := Nat.exists_eq_add_of_le h
  rw [load_add, List.drop_left' (load_length m pos k), Nat.add_sub_cancel_left]

/-- A load is known from its values. -/
theorem load_eq_of_getElem {m : ℤ → β} {pos : ℤ} {xs : List β}
    (h : ∀ (i : ℕ) (hi : i < xs.length), m (pos + i) = xs[i]) : load m pos xs.length = xs := by
  apply List.ext_getElem (load_length _ _ _)
  intro i _ hi
  rw [getElem_load, h i hi]

/-- A stored value is found at its offset. -/
theorem store_hit (m : ℤ → β) (pos : ℤ) (xs : List β) {i : ℕ} (hi : i < xs.length) :
    store m pos xs (pos + i) = xs[i] := by
  simp [store, hi]

/-- Cells outside the written block keep their value. -/
theorem store_miss (m : ℤ → β) (pos : ℤ) (xs : List β) {j : ℤ}
    (h : j < pos ∨ pos + xs.length ≤ j) : store m pos xs j = m j := by
  unfold store
  split
  · rw [List.getElem?_eq_none (by omega), Option.getD_none]
  · rfl

/-- What was stored is loaded again. -/
theorem load_store (m : ℤ → β) (pos : ℤ) (xs : List β) :
    load (store m pos xs) pos xs.length = xs :=
  load_eq_of_getElem fun _ hi => store_hit m pos xs hi

/-- Storing elsewhere does not change what is loaded. -/
theorem load_store_of_disjoint (m : ℤ → β) {pos pos' : ℤ} {xs : List β} {n : ℕ}
    (h : pos' + n ≤ pos ∨ pos + xs.length ≤ pos') :
    load (store m pos xs) pos' n = load m pos' n :=
  load_congr fun i hi => store_miss m pos xs (by omega)

/-- Storing nothing changes nothing. -/
@[simp] theorem store_nil (m : ℤ → β) (pos : ℤ) : store m pos [] = m := by
  funext j
  simp [store]

/-- A sum of two positions wraps at most once. -/
theorem emod_of_lt_two_mul {a c : ℤ} (h0 : 0 ≤ a) (h1 : a < 2 * c) :
    a % c = if a < c then a else a - c := by
  split
  · exact Int.emod_eq_of_lt h0 ‹_›
  · rw [← Int.emod_eq_of_lt (by omega : 0 ≤ a - c) (by omega : a - c < c), Int.sub_emod_right]

/-- The periodic memory is read the same from congruent positions. -/
theorem load_cyclic_emod (m : ℤ → β) (c pos : ℤ) (n : ℕ) :
    load (cyclic m c) (pos % c) n = load (cyclic m c) pos n := by
  apply load_congr
  intro i _
  simp only [cyclic, Int.emod_add_emod]

/-- Short of the end, reading around is plain reading. -/
theorem load_cyclic_of_le (m : ℤ → β) {c pos : ℤ} {n : ℕ} (h0 : 0 ≤ pos) (h1 : pos + n ≤ c) :
    load (cyclic m c) pos n = load m pos n := by
  apply load_congr
  intro i hi
  rw [cyclic, Int.emod_eq_of_lt (by omega) (by omega)]

/-- Reading around the end is reading up to it and on from the start. -/
theorem load_cyclic_wrap (m : ℤ → β) {c pos : ℤ} {a b : ℕ} (h0 : 0 ≤ pos) (ha : pos + a = c)
    (hb : (b : ℤ) ≤ c) : load (cyclic m c) pos (a + b) = load m pos a ++ load m 0 b := by
  have hback : load (cyclic m c) (pos + a) b = load (cyclic m c) 0 b := by
    rw [← load_cyclic_emod m c (pos + a), ha, Int.emod_self]
  rw [load_add, hback, load_cyclic_of_le m h0 (by omega), load_cyclic_of_le m le_rfl (by omega)]

/-- Writing around depends on the position modulo `c` only. -/
theorem storeCyclic_emod (m : ℤ → β) (c pos : ℤ) (xs : List β) :
    storeCyclic m c (pos % c) xs = storeCyclic m c pos xs := by
  funext i
  simp only [storeCyclic, Int.sub_emod_emod]

/-- The cells the written values went to hold them, however far around. -/
theorem cyclic_storeCyclic_hit (m : ℤ → β) {c : ℤ} (pos : ℤ) {xs : List β}
    (hc : (xs.length : ℤ) ≤ c) {i : ℕ} (hi : i < xs.length) :
    cyclic (storeCyclic m c pos xs) c (pos + i) = xs[i] := by
  have hpos : 0 < c := by omega
  have he : ((pos + i) % c - pos) % c = i := by
    rw [Int.emod_sub_emod, add_sub_cancel_left]
    exact Int.emod_eq_of_lt (by omega) (by omega)
  rw [cyclic, storeCyclic, if_pos ⟨Int.emod_nonneg _ (by omega), Int.emod_lt_of_pos _ hpos⟩, he]
  simp [hi]

/-- The cells up to a whole turn before the written block keep their value. -/
theorem cyclic_storeCyclic_miss (m : ℤ → β) {c pos j : ℤ} {xs : List β}
    (h0 : j < pos) (h1 : pos + xs.length ≤ j + c) :
    cyclic (storeCyclic m c pos xs) c j = cyclic m c j := by
  have hpos : 0 < c := by omega
  have he : (j % c - pos) % c = j - pos + c := by
    rw [Int.emod_sub_emod, ← Int.add_emod_right]
    exact Int.emod_eq_of_lt (by omega) (by omega)
  rw [cyclic, storeCyclic, if_pos ⟨Int.emod_nonneg _ (by omega), Int.emod_lt_of_pos _ hpos⟩, he,
    List.getElem?_eq_none (by omega), Option.getD_none, cyclic]

/-- Short of the end, writing around is plain writing. -/
theorem storeCyclic_of_le (m : ℤ → β) {c pos : ℤ} {xs : List β} (h0 : 0 ≤ pos)
    (h1 : pos + xs.length ≤ c) : storeCyclic m c pos xs = store m pos xs := by
  funext i
  unfold storeCyclic store
  by_cases hi : 0 ≤ i ∧ i < c
  · rw [if_pos hi]
    by_cases hp : pos ≤ i
    · rw [if_pos hp, Int.emod_eq_of_lt (by omega) (by omega)]
    · rw [if_neg hp, ← Int.add_emod_right, Int.emod_eq_of_lt (by omega) (by omega),
        List.getElem?_eq_none (by omega), Option.getD_none]
  · rw [if_neg hi]
    split
    · rw [List.getElem?_eq_none (by omega), Option.getD_none]
    · rfl

/-- Writing up to the end and the rest from the start is writing around. -/
theorem store_store_eq_storeCyclic (m : ℤ → β) {c pos : ℤ} {xs ys : List β} (h0 : 0 ≤ pos)
    (hx : pos + xs.length = c) (hy : (ys.length : ℤ) ≤ pos) :
    store (store m pos xs) 0 ys = storeCyclic m c pos (xs ++ ys) := by
  funext i
  unfold storeCyclic store
  by_cases hi : 0 ≤ i ∧ i < c
  · rw [if_pos hi, if_pos hi.1, sub_zero]
    by_cases hp : pos ≤ i
    · rw [if_pos hp, Int.emod_eq_of_lt (by omega) (by omega), List.getElem?_append_left (by omega),
        List.getElem?_eq_none (l := ys) (by omega), Option.getD_none]
    · have he : (i - pos) % c = i - pos + c := by
        rw [← Int.add_emod_right]
        exact Int.emod_eq_of_lt (by omega) (by omega)
      rw [if_neg hp, he, List.getElem?_append_right (by omega)]
      congr 2
      omega
  · rw [if_neg hi]
    by_cases h : 0 ≤ i
    · rw [if_pos h, List.getElem?_eq_none (l := ys) (by omega), Option.getD_none]
      split
      · rw [List.getElem?_eq_none (by omega), Option.getD_none]
      · rfl
    · rw [if_neg h, if_neg (by omega)]

end RioIocpServer.CyclicMemory
