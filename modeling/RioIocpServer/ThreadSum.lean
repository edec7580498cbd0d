import Mathlib.Algebra.BigOperators.Group.Finset.Basic
import Mathlib.Algebra.Order.BigOperators.Group.Finset
import Mathlib.Data.Fintype.Basic

/-!
# Counting over the threads of a system

A step of an interleaved system changes the local state of one thread. A sum
over all threads then changes by the difference at that thread only, whatever
the number of threads is. A sum that never exceeds one names at most one thread.
Where a single thread is away from where all others are, it is named as well.
-/

namespace RioIocpServer.ThreadSum

section Alone

variable {T β : Type*} {g : T → β} {t u : T} {b : β}

/-- A thread that is away where only one is, is that one. -/
theorem eq_of_alone (halone : ∀ u, u ≠ t → g u = b) (haway : g u ≠ b) : u = t := by
  by_contra hne
  exact haway (halone u hne)

/-- When the only thread that is away comes back, nobody is away. -/
theorem update_alone [DecidableEq T] (halone : ∀ u, u ≠ t → g u = b) (u : T) :
    Function.update g t b u = b := by
  by_cases h : u = t
  · rw [h, Function.update_self]
  · rw [Function.update_of_ne h, halone u h]

end Alone

variable {T β : Type*} [Fintype T]

/-- Updating one thread exchanges its old contribution for the new one. -/
theorem sum_update [DecidableEq T] (f : β → ℕ) (g : T → β) (t : T) (b : β) :
    ∑ u, f (Function.update g t b u) + f (g t) = ∑ u, f (g u) + f b := by
  rw [← Finset.add_sum_erase _ _ (Finset.mem_univ t), ← Finset.add_sum_erase Finset.univ
    (fun u => f (g u)) (Finset.mem_univ t), Function.update_self]
  have hrest : ∑ u ∈ Finset.univ.erase t, f (Function.update g t b u) =
      ∑ u ∈ Finset.univ.erase t, f (g u) := by
    apply Finset.sum_congr rfl
    intro u hu
    rw [Function.update_of_ne (Finset.ne_of_mem_erase hu)]
  rw [hrest]
  omega

/-- So does a thread that contributes to two sums. -/
theorem sum_update_add [DecidableEq T] (f f' : β → ℕ) (g : T → β) (t : T) (b : β) :
    ∑ u, f (Function.update g t b u) + ∑ u, f' (Function.update g t b u) +
        (f (g t) + f' (g t)) =
      ∑ u, f (g u) + ∑ u, f' (g u) + (f b + f' b) := by
  have hf := sum_update f g t b
  have hf' := sum_update f' g t b
  omega

/-- One thread's contribution is part of the sum. -/
theorem le_sum (f : β → ℕ) (g : T → β) (t : T) : f (g t) ≤ ∑ u, f (g u) :=
  Finset.single_le_sum (f := fun u => f (g u)) (fun _ _ => Nat.zero_le _) (Finset.mem_univ t)

/-- The contributions of two threads are both part of the sum. -/
theorem add_le_sum [DecidableEq T] (f : β → ℕ) (g : T → β) {t u : T} (h : t ≠ u) :
    f (g t) + f (g u) ≤ ∑ v, f (g v) := by
  rw [← Finset.sum_pair (f := fun v => f (g v)) h]
  exact Finset.sum_le_sum_of_subset (Finset.subset_univ _)

/-- A sum of at most one has at most one contributing thread. -/
theorem eq_of_sum_le_one [DecidableEq T] {f : β → ℕ} {g : T → β} {t u : T}
    (hsum : ∑ v, f (g v) ≤ 1) (ht : 0 < f (g t)) (hu : 0 < f (g u)) : t = u := by
  by_contra hne
  have hle := add_le_sum f g hne
  omega

/-- A positive sum has a contributing thread. -/
theorem exists_pos_of_sum_pos {f : β → ℕ} {g : T → β} (h : 0 < ∑ v, f (g v)) :
    ∃ t, 0 < f (g t) := by
  by_contra hno
  have hz : ∑ v, f (g v) = 0 := by
    apply Finset.sum_eq_zero
    intro v _
    by_contra hv
    exact hno ⟨v, Nat.pos_of_ne_zero hv⟩
  omega

end RioIocpServer.ThreadSum
