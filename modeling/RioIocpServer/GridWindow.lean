import Mathlib.Algebra.Order.Floor.Ring
import Mathlib.Algebra.Order.Ring.Abs
import Mathlib.Data.List.Nodup
import Mathlib.Tactic.Linarith
import Mathlib.Tactic.FieldSimp
import Mathlib.Tactic.Ring

/-!
# Windows of a clamped grid

A plane is cut into cells of equal width that start at an integer origin, and
everything beyond the border belongs to the cells at the border. Coordinates are
converted to integers by truncation toward zero, which is not the floor on the
negative side. Two points whose truncated coordinates are closer than `k` widths
are nevertheless at most `k` cells apart, so that the window of radius `k`
around the cell of one point contains the cell of the other.
-/

namespace RioIocpServer.GridWindow

section Truncation

variable {α : Type*} [Ring α] [LinearOrder α] [IsStrictOrderedRing α] [FloorRing α] {a b : α}
  {n : ℤ}

/-- Truncation toward zero. -/
def trunc (a : α) : ℤ := if 0 ≤ a then ⌊a⌋ else ⌈a⌉

/-- Truncation keeps integers. -/
theorem trunc_intCast (n : ℤ) : trunc (n : α) = n := by
  rw [trunc]
  split
  · exact Int.floor_intCast n
  · exact Int.ceil_intCast n

omit [IsStrictOrderedRing α] in
/-- Truncation is monotone. -/
theorem trunc_mono (h : a ≤ b) : trunc a ≤ trunc b := by
  simp only [trunc]
  by_cases ha : 0 ≤ a
  · rw [if_pos ha, if_pos (ha.trans h)]
    exact Int.floor_mono h
  · rw [if_neg ha]
    by_cases hb : 0 ≤ b
    · rw [if_pos hb]
      have hceil : ⌈a⌉ ≤ 0 := Int.ceil_le.mpr (by simpa using (not_le.mp ha).le)
      have hfloor : 0 ≤ ⌊b⌋ := Int.floor_nonneg.mpr hb
      exact hceil.trans hfloor
    · rw [if_neg hb]
      exact Int.ceil_mono h

/-- A number at or above an integer is truncated to at least that integer. -/
theorem le_trunc (h : (n : α) ≤ a) : n ≤ trunc a := by
  rw [← trunc_intCast (α := α) n]
  exact trunc_mono h

/-- A number at or below an integer is truncated to at most that integer. -/
theorem trunc_le (h : a ≤ (n : α)) : trunc a ≤ n := by
  rw [← trunc_intCast (α := α) n]
  exact trunc_mono h

/-- A number that is truncated to less than an integer is below it. -/
theorem lt_of_trunc_lt (h : trunc a < n) : a < (n : α) := by
  by_contra hle
  have hn := le_trunc (not_lt.mp hle)
  omega

/-- A number that is truncated to at least a positive integer is at or above
it. -/
theorem le_of_le_trunc (hn : 0 < n) (h : n ≤ trunc a) : (n : α) ≤ a := by
  have hpos : 0 ≤ a := by
    by_contra hneg
    have hzero : trunc a ≤ 0 := trunc_le (by simpa using (not_le.mp hneg).le)
    omega
  rw [trunc, if_pos hpos] at h
  exact Int.le_floor.mp h

end Truncation

section Cells

/-- An index moved to the nearest one from `0` to `size - 1`. -/
def clamp (size c : ℤ) : ℤ := if c < 0 then 0 else if size ≤ c then size - 1 else c

/-- A clamped index is one of the grid. -/
theorem clamp_mem {size : ℤ} (hsize : 0 < size) (c : ℤ) :
    0 ≤ clamp size c ∧ clamp size c < size := by
  rw [clamp]
  split
  · omega
  · split <;> omega

/-- A clamped index above the first is not above the index itself. -/
theorem clamp_le_of_pos {size c : ℤ} (h : 0 < clamp size c) : clamp size c ≤ c := by
  rw [clamp] at h ⊢
  split at h
  · omega
  · split <;> omega

/-- A clamped index below the last is not below the index itself. -/
theorem le_clamp_of_lt {size c : ℤ} (h : clamp size c < size - 1) : c ≤ clamp size c := by
  rw [clamp] at h ⊢
  split at h
  · omega
  · split <;> omega

variable {α : Type*} [Field α] [LinearOrder α] [IsStrictOrderedRing α] [FloorRing α] {a b : α}
  {origin width size k : ℤ}

/-- The cell of a coordinate: its distance from the origin in widths, truncated
and clamped. -/
def cell (origin width size : ℤ) (a : α) : ℤ := clamp size (trunc ((a - origin) / width))

omit [IsStrictOrderedRing α] in
/-- Every coordinate has a cell of the grid. -/
theorem cell_mem (hsize : 0 < size) (a : α) :
    0 ≤ cell origin width size a ∧ cell origin width size a < size :=
  clamp_mem hsize _

/-- A coordinate whose cell is not the last lies below the end of its cell. -/
theorem lt_of_cell_lt (hw : 0 < width) (h : cell origin width size a < size - 1) :
    a < ((origin + width * (cell origin width size a + 1) : ℤ) : α) := by
  have htrunc : trunc ((a - origin) / (width : α)) ≤ cell origin width size a := le_clamp_of_lt h
  have hlt : (a - origin) / (width : α) < ((cell origin width size a + 1 : ℤ) : α) :=
    lt_of_trunc_lt (by omega)
  have hpos : (0 : α) < width := by exact_mod_cast hw
  rw [div_lt_iff₀ hpos] at hlt
  push_cast at hlt ⊢
  linarith

/-- A coordinate whose cell is not the first lies at or above the start of its
cell. -/
theorem le_of_cell_pos (hw : 0 < width) (h : 0 < cell origin width size a) :
    ((origin + width * cell origin width size a : ℤ) : α) ≤ a := by
  have htrunc : cell origin width size a ≤ trunc ((a - origin) / (width : α)) := clamp_le_of_pos h
  have hle : ((cell origin width size a : ℤ) : α) ≤ (a - origin) / (width : α) :=
    le_of_le_trunc h htrunc
  have hpos : (0 : α) < width := by exact_mod_cast hw
  rw [le_div_iff₀ hpos] at hle
  push_cast at hle ⊢
  linarith

/-- A coordinate less than `k` widths above another one after truncation is at
most `k` cells above it. The ends of the cells are integers, so truncation moves
no coordinate across one of them. -/
theorem cell_le_add (hw : 0 < width) (hsize : 0 < size) (hk : 0 ≤ k)
    (h : trunc b - trunc a < k * width) :
    cell origin width size b ≤ cell origin width size a + k := by
  by_contra hlt
  have ha : 0 ≤ cell origin width size a := (cell_mem hsize a).1
  have hb : cell origin width size b < size := (cell_mem hsize b).2
  have hlast : cell origin width size a < size - 1 := by omega
  have hfirst : 0 < cell origin width size b := by omega
  have hupper := trunc_le (lt_of_cell_lt hw hlast).le
  have hlower := le_trunc (le_of_cell_pos hw hfirst)
  have hcells : cell origin width size a + 1 + k ≤ cell origin width size b := by omega
  have hwidths := mul_le_mul_of_nonneg_left hcells hw.le
  have hsplit : width * (cell origin width size a + 1 + k) =
      width * (cell origin width size a + 1) + k * width := by ring
  omega

/-- Coordinates closer than `k` widths after truncation are at most `k` cells
apart. -/
theorem abs_cell_sub_le (hw : 0 < width) (hsize : 0 < size) (hk : 0 ≤ k)
    (h : |trunc a - trunc b| < k * width) :
    |cell origin width size b - cell origin width size a| ≤ k := by
  obtain ⟨hab, hba⟩ := abs_lt.mp h
  have hle : cell origin width size b ≤ cell origin width size a + k :=
    cell_le_add hw hsize hk (by omega)
  have hge : cell origin width size a ≤ cell origin width size b + k :=
    cell_le_add hw hsize hk (by omega)
  exact abs_le.mpr ⟨by omega, by omega⟩

end Cells

section Windows

variable {k : ℕ} {sizeY sizeX : ℤ} {c n : ℤ × ℤ}

/-- A cell, if it is one of the grid. -/
def place (sizeY sizeX ny nx : ℤ) : Option (ℤ × ℤ) :=
  if nx < 0 ∨ sizeX ≤ nx ∨ ny < 0 ∨ sizeY ≤ ny then none else some (ny, nx)

theorem place_eq_some {ny nx : ℤ} : place sizeY sizeX ny nx = some n ↔
    (0 ≤ n.1 ∧ n.1 < sizeY) ∧ (0 ≤ n.2 ∧ n.2 < sizeX) ∧ n.1 = ny ∧ n.2 = nx := by
  obtain ⟨y, x⟩ := n
  rw [place]
  split
  · constructor
    · intro h
      cases h
    · rintro ⟨hy, hx, rfl, rfl⟩
      omega
  · simp only [Option.some.injEq, Prod.mk.injEq]
    omega

/-- The cells of the grid at most `k` rows and `k` columns from a cell, the
highest row first. -/
def window (k : ℕ) (sizeY sizeX : ℤ) (c : ℤ × ℤ) : List (ℤ × ℤ) :=
  (List.range (2 * k + 1)).flatMap fun (i : ℕ) =>
    (List.range (2 * k + 1)).filterMap fun (j : ℕ) =>
      place sizeY sizeX (c.1 + (k - i)) (c.2 + (j - k))

/-- What a window contains. -/
theorem mem_window : n ∈ window k sizeY sizeX c ↔ (0 ≤ n.1 ∧ n.1 < sizeY) ∧
    (0 ≤ n.2 ∧ n.2 < sizeX) ∧ |n.1 - c.1| ≤ k ∧ |n.2 - c.2| ≤ k := by
  simp only [window, List.mem_flatMap, List.mem_filterMap, List.mem_range, place_eq_some]
  constructor
  · rintro ⟨i, hi, j, hj, hy, hx, hny, hnx⟩
    exact ⟨hy, hx, abs_le.mpr ⟨by omega, by omega⟩, abs_le.mpr ⟨by omega, by omega⟩⟩
  · rintro ⟨hy, hx, hdy, hdx⟩
    obtain ⟨hdy, hdy'⟩ := abs_le.mp hdy
    obtain ⟨hdx, hdx'⟩ := abs_le.mp hdx
    exact ⟨(c.1 + k - n.1).toNat, by omega, (n.2 - c.2 + k).toNat, by omega, hy, hx, by omega,
      by omega⟩

/-- A window contains no cell twice. -/
theorem nodup_window : (window k sizeY sizeX c).Nodup := by
  rw [window, List.nodup_flatMap]
  constructor
  · intro i hi
    refine List.Nodup.filterMap ?_ List.nodup_range
    intro j j' n hn hn'
    have hj := place_eq_some.mp hn
    have hj' := place_eq_some.mp hn'
    omega
  · refine List.Pairwise.imp_of_mem ?_ (List.nodup_range (n := 2 * k + 1))
    intro i i' hi hi' hne n hn hn'
    obtain ⟨j, -, hj⟩ := List.mem_filterMap.mp hn
    obtain ⟨j', -, hj'⟩ := List.mem_filterMap.mp hn'
    have hrow := place_eq_some.mp hj
    have hrow' := place_eq_some.mp hj'
    omega

/-- Sides of a right triangle are shorter than a bound on the hypotenuse. -/
theorem abs_lt_of_sq_add_lt {dx dy d : ℤ} (hd : 0 ≤ d) (h : dx * dx + dy * dy < d * d) :
    |dx| < d ∧ |dy| < d := by
  have hx := mul_self_nonneg dx
  have hy := mul_self_nonneg dy
  exact ⟨abs_lt_of_sq_lt_sq (by rw [sq, sq]; omega) hd, abs_lt_of_sq_lt_sq (by rw [sq, sq]; omega) hd⟩

end Windows

end RioIocpServer.GridWindow
