import RioIocpServer.TransitionSystem

/-!
# Bracketed traces

A trace of marks is bracketed when it is a prefix of repetitions of one block:
an opening mark, any number of inside marks, a closing mark. An automaton with
one bit, whether a block is open, accepts exactly the bracketed traces, and it
reads a trace piece by piece.
-/

namespace RioIocpServer.Bracketing

open TransitionSystem

/-- The marks of a trace. -/
inductive Mark where
  /-- Begins a block. -/
  | opening
  /-- Continues it. -/
  | inside
  /-- Ends it. -/
  | closing
  deriving DecidableEq

/-- One block with `n` inside marks. -/
def block (n : ℕ) : List Mark := .opening :: (List.replicate n .inside ++ [.closing])

/-- A prefix of repetitions of blocks. -/
def Bracketed (marks : List Mark) : Prop := ∃ blocks : List ℕ, marks <+: blocks.flatMap block

/-- Read one mark; the bit says whether a block is open. -/
def accept : Bool → Mark → Option Bool
  | false, .opening => some true
  | true, .inside => some true
  | true, .closing => some false
  | _, _ => none

/-- Inside marks keep a block open. -/
theorem run_inside (n : ℕ) : run accept true (List.replicate n .inside) = some true := by
  induction n with
  | zero => rfl
  | succ n ih =>
    rw [List.replicate_succ, run_cons]
    exact ih

/-- A block is read to its end. -/
theorem run_block (n : ℕ) : run accept false (block n) = some false := by
  rw [block, run_cons]
  exact run_append_eq_some.mpr ⟨true, run_inside n, rfl⟩

/-- So are repetitions of blocks. -/
theorem run_blocks (blocks : List ℕ) : run accept false (blocks.flatMap block) = some false := by
  induction blocks with
  | nil => rfl
  | cons n blocks ih =>
    rw [List.flatMap_cons]
    exact run_append_eq_some.mpr ⟨false, run_block n, ih⟩

/-- The traces that may follow: behind the rest of the open block if there is
one, repetitions of blocks. -/
def Completes : Bool → List Mark → Prop
  | false, marks => Bracketed marks
  | true, marks => ∃ (n : ℕ) (blocks : List ℕ),
      marks <+: List.replicate n .inside ++ .closing :: blocks.flatMap block

/-- What is read from a state may follow there. -/
theorem completes_of_run {marks : List Mark} {isOpen last : Bool}
    (h : run accept isOpen marks = some last) : Completes isOpen marks := by
  induction marks generalizing isOpen with
  | nil =>
    cases isOpen
    · exact ⟨[], List.nil_prefix⟩
    · exact ⟨0, [], List.nil_prefix⟩
  | cons m marks ih =>
    obtain ⟨next, hm, hrest⟩ := run_cons_eq_some.mp h
    have hind := ih hrest
    cases isOpen <;> cases m <;> cases hm
    · obtain ⟨n, blocks, hpre⟩ := hind
      refine ⟨n :: blocks, ?_⟩
      rw [List.flatMap_cons, block, List.cons_append, List.append_assoc]
      exact (List.prefix_cons_inj _).mpr hpre
    · obtain ⟨n, blocks, hpre⟩ := hind
      refine ⟨n + 1, blocks, ?_⟩
      rw [List.replicate_succ, List.cons_append]
      exact (List.prefix_cons_inj _).mpr hpre
    · obtain ⟨blocks, hpre⟩ := hind
      exact ⟨0, blocks, (List.prefix_cons_inj _).mpr hpre⟩

/-- The automaton accepts exactly the bracketed traces. -/
theorem bracketed_iff {marks : List Mark} :
    Bracketed marks ↔ ∃ last, run accept false marks = some last := by
  constructor
  · rintro ⟨blocks, rest, hrest⟩
    have hblocks := run_blocks blocks
    rw [← hrest] at hblocks
    obtain ⟨last, hlast, -⟩ := run_append_eq_some.mp hblocks
    exact ⟨last, hlast⟩
  · rintro ⟨last, h⟩
    exact completes_of_run h

instance (marks : List Mark) : Decidable (Bracketed marks) :=
  decidable_of_iff ((run accept false marks).isSome = true)
    (Option.isSome_iff_exists.trans bracketed_iff.symm)

/-- A trace read with a block open goes on with anything but an opening mark. -/
theorem not_bracketed_of_reopened {marks : List Mark}
    (h : run accept false marks = some true) : ¬ Bracketed (marks ++ [.opening]) := by
  intro hb
  obtain ⟨last, hlast⟩ := bracketed_iff.mp hb
  obtain ⟨m, hm, hstep⟩ := run_concat_eq_some.mp hlast
  cases h.symm.trans hm
  cases hstep

end RioIocpServer.Bracketing
