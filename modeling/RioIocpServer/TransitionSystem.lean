import Mathlib.Data.List.Basic

/-!
# Runs of labelled partial steps

A system is a partial step function: an action is performed in a state or is
not enabled there. Everything a system leaves open, which thread moves next and
what the environment answers, is part of the action, so a list of actions is a
schedule and determines its run. Invariants are proved of one step and hold of
every run; a condition on the single steps restricts the runs spoken about.
-/

namespace RioIocpServer.TransitionSystem

variable {σ α : Type*}

/-- Perform the actions of a schedule in order. The run is undefined as soon
as an action is not enabled in the state reached before it. -/
def run (step : σ → α → Option σ) (s : σ) : List α → Option σ
  | [] => some s
  | a :: as => (step s a).bind fun s' => run step s' as

/-- A state at the end of some run from `init`. -/
def Reachable (step : σ → α → Option σ) (init s : σ) : Prop :=
  ∃ as, run step init as = some s

/-- Each action of the schedule meets `ok` in the state it is performed in. -/
def StepsMeet (step : σ → α → Option σ) (ok : σ → α → Prop) (s : σ) : List α → Prop
  | [] => True
  | a :: as => ok s a ∧ ∀ s', step s a = some s' → StepsMeet step ok s' as

/-- Every state a schedule leads through has the property `P`. -/
def Always (step : σ → α → Option σ) (P : σ → Prop) (s : σ) : List α → Prop
  | [] => P s
  | a :: as => P s ∧ ∀ s', step s a = some s' → Always step P s' as

/-- A state at the end of some run from `init` whose steps all meet `ok`. -/
def ReachableVia (step : σ → α → Option σ) (ok : σ → α → Prop) (init s : σ) : Prop :=
  ∃ as, run step init as = some s ∧ StepsMeet step ok init as

/-- Perform the actions of a schedule that are enabled and skip the others. -/
def follow (step : σ → α → Option σ) (s : σ) : List α → σ
  | [] => s
  | a :: as => follow step ((step s a).getD s) as

/-- A condition that can be decided of a step can be decided of a schedule. -/
instance decidableStepsMeet {step : σ → α → Option σ} {ok : σ → α → Prop}
    [∀ s a, Decidable (ok s a)] : ∀ s as, Decidable (StepsMeet step ok s as)
  | _, [] => isTrue trivial
  | s, a :: as =>
    match h : step s a with
    | none => decidable_of_iff (ok s a) (by simp [StepsMeet, h])
    | some s' =>
      have : Decidable (StepsMeet step ok s' as) := decidableStepsMeet s' as
      decidable_of_iff (ok s a ∧ StepsMeet step ok s' as) (by simp [StepsMeet, h])

section Runs

variable {step : σ → α → Option σ} {ok : σ → α → Prop} {s s' : σ} {a : α} {as bs : List α}

@[simp] theorem run_nil : run step s [] = some s := rfl

theorem run_cons : run step s (a :: as) = (step s a).bind fun s' => run step s' as := rfl

/-- A nonempty run splits after its first action. -/
theorem run_cons_eq_some : run step s (a :: as) = some s' ↔
    ∃ m, step s a = some m ∧ run step m as = some s' := by
  simp only [run_cons, Option.bind_eq_some_iff]

/-- A run of two schedules one after the other splits between them. -/
theorem run_append_eq_some : run step s (as ++ bs) = some s' ↔
    ∃ m, run step s as = some m ∧ run step m bs = some s' := by
  induction as generalizing s with
  | nil => simp
  | cons a as ih =>
    simp only [List.cons_append, run_cons_eq_some, ih]
    constructor
    · rintro ⟨m, hm, n, hn, hb⟩
      exact ⟨n, ⟨m, hm, hn⟩, hb⟩
    · rintro ⟨n, ⟨m, hm, hn⟩, hb⟩
      exact ⟨m, hm, n, hn, hb⟩

/-- A run that ends with a given action splits before it. -/
theorem run_concat_eq_some : run step s (as ++ [a]) = some s' ↔
    ∃ m, run step s as = some m ∧ step m a = some s' := by
  simp only [run_append_eq_some, run_cons_eq_some, run_nil, Option.some.injEq, exists_eq_right]

/-- What every step that meets `ok` preserves holds at the end of every run
whose steps all meet `ok`. -/
theorem run_preserves {inv : σ → Prop}
    (hstep : ∀ s a s', inv s → ok s a → step s a = some s' → inv s')
    (hs : inv s) (hok : StepsMeet step ok s as) (hr : run step s as = some s') : inv s' := by
  induction as generalizing s with
  | nil =>
    cases hr
    exact hs
  | cons a as ih =>
    obtain ⟨m, hm, hrest⟩ := run_cons_eq_some.mp hr
    exact ih (hstep s a m hs hok.1 hm) (hok.2 m hm) hrest

/-- What one action of a schedule establishes and all steps keep holds at the end. -/
theorem run_establishes {inv P : σ → Prop}
    (hinv : ∀ s b s', inv s → ok s b → step s b = some s' → inv s')
    (hkept : ∀ s b s', inv s → ok s b → P s → step s b = some s' → P s')
    (hdone : ∀ s s', inv s → ok s a → step s a = some s' → P s')
    (hs : inv s) (ha : a ∈ as) (hok : StepsMeet step ok s as) (hr : run step s as = some s') :
    P s' := by
  induction as generalizing s with
  | nil => exact (List.not_mem_nil ha).elim
  | cons b as ih =>
    obtain ⟨m, hm, hrest⟩ := run_cons_eq_some.mp hr
    have hinvm := hinv s b m hs hok.1 hm
    rcases List.mem_cons.mp ha with rfl | hlater
    · have hboth : ∀ s b s', inv s ∧ P s → ok s b → step s b = some s' → inv s' ∧ P s' := by
        rintro s b s' ⟨hi, hp⟩ hb h
        exact ⟨hinv s b s' hi hb h, hkept s b s' hi hb hp h⟩
      exact (run_preserves hboth ⟨hinvm, hdone s m hs hok.1 hm⟩ (hok.2 m hm) hrest).2
    · exact ih hinvm hlater (hok.2 m hm) hrest

/-- A schedule of actions that are enabled wherever an invariant holds has a run. -/
theorem exists_run {inv : σ → Prop} {allowed : α → Prop}
    (hstep : ∀ s a, inv s → allowed a → ∃ s', step s a = some s' ∧ inv s')
    (hs : inv s) (has : ∀ a ∈ as, allowed a) : ∃ s', run step s as = some s' := by
  induction as generalizing s with
  | nil => exact ⟨s, rfl⟩
  | cons a as ih =>
    obtain ⟨m, hm, hinv⟩ := hstep s a hs (has a List.mem_cons_self)
    obtain ⟨s', hr⟩ := ih hinv fun b hb => has b (List.mem_cons_of_mem a hb)
    exact ⟨s', run_cons_eq_some.mpr ⟨m, hm, hr⟩⟩

/-- What follows from an invariant of the steps that meet `ok` holds all along. -/
theorem always_of_stepsMeet {inv P : σ → Prop}
    (hstep : ∀ s a s', inv s → ok s a → step s a = some s' → inv s')
    (hP : ∀ s, inv s → P s) (hs : inv s) (hok : StepsMeet step ok s as) : Always step P s as := by
  induction as generalizing s with
  | nil => exact hP s hs
  | cons a as ih => exact ⟨hP s hs, fun m hm => ih (hstep s a m hs hok.1 hm) (hok.2 m hm)⟩

/-- Where a step keeps a property exactly if it meets `ok`, a run keeps the
property exactly if its steps all meet `ok`. The steps of the run may be known
to meet a condition `pre` that does not depend on the property, and the invariant
need only be kept as long as the property is. -/
theorem always_iff_stepsMeet_of_kept {inv P : σ → Prop} {pre : σ → α → Prop}
    (hinv : ∀ s a s', inv s → P s → pre s a → ok s a → step s a = some s' → inv s')
    (hstep : ∀ s a s', inv s → P s → pre s a → step s a = some s' → (P s' ↔ ok s a))
    (hs : inv s) (hP : P s) (hpre : StepsMeet step pre s as) (hr : run step s as = some s') :
    Always step P s as ↔ StepsMeet step ok s as := by
  induction as generalizing s with
  | nil => exact ⟨fun _ => trivial, fun _ => hP⟩
  | cons a as ih =>
    obtain ⟨m, hm, hrest⟩ := run_cons_eq_some.mp hr
    have hiff := hstep s a m hs hP hpre.1 hm
    have hnext := fun hok => ih (hinv s a m hs hP hpre.1 hok hm) (hiff.mpr hok) (hpre.2 m hm) hrest
    constructor
    · rintro ⟨-, halways⟩
      have hrun := halways m hm
      have hPm : P m := by
        cases as with
        | nil => exact hrun
        | cons b bs => exact hrun.1
      refine ⟨hiff.mp hPm, fun n hn => ?_⟩
      cases hm.symm.trans hn
      exact (hnext (hiff.mp hPm)).mp hrun
    · rintro ⟨hok, hmeet⟩
      refine ⟨hP, fun n hn => ?_⟩
      cases hm.symm.trans hn
      exact (hnext hok).mpr (hmeet m hm)

/-- The same for an invariant that does not depend on the property. -/
theorem always_iff_stepsMeet {inv P : σ → Prop} {pre : σ → α → Prop}
    (hinv : ∀ s a s', inv s → pre s a → step s a = some s' → inv s')
    (hstep : ∀ s a s', inv s → P s → pre s a → step s a = some s' → (P s' ↔ ok s a))
    (hs : inv s) (hP : P s) (hpre : StepsMeet step pre s as) (hr : run step s as = some s') :
    Always step P s as ↔ StepsMeet step ok s as :=
  always_iff_stepsMeet_of_kept (fun s a s' hi _ hp _ h => hinv s a s' hi hp h) hstep hs hP hpre hr

/-- Where a step leads to `P` exactly if it comes from `P` and meets `ok`, a run leads
to `P` exactly if it comes from `P` and its steps all meet `ok`. -/
theorem run_iff_stepsMeet {P : σ → Prop}
    (hstep : ∀ s a s', step s a = some s' → (P s' ↔ P s ∧ ok s a))
    (hr : run step s as = some s') : P s' ↔ P s ∧ StepsMeet step ok s as := by
  induction as generalizing s with
  | nil =>
    cases hr
    exact ⟨fun h => ⟨h, trivial⟩, And.left⟩
  | cons a as ih =>
    obtain ⟨m, hm, hrest⟩ := run_cons_eq_some.mp hr
    rw [ih hrest, hstep s a m hm]
    constructor
    · rintro ⟨⟨hs, hok⟩, hmeet⟩
      refine ⟨hs, hok, fun n hn => ?_⟩
      cases hm.symm.trans hn
      exact hmeet
    · rintro ⟨hs, hok, hmeet⟩
      exact ⟨⟨hs, hok⟩, hmeet m hm⟩

/-- A condition that holds of the actions in any state holds of the steps. -/
theorem stepsMeet_of_forall (h : ∀ a ∈ as, ∀ s, ok s a) : StepsMeet step ok s as := by
  induction as generalizing s with
  | nil => trivial
  | cons a as ih =>
    exact ⟨h a List.mem_cons_self s, fun _ _ => ih fun b hb => h b (List.mem_cons_of_mem a hb)⟩

/-- An unrestricted run meets the trivial condition. -/
theorem stepsMeet_true : StepsMeet step (fun _ _ => True) s as :=
  stepsMeet_of_forall fun _ _ _ => trivial

/-- Two conditions on the steps are one. -/
theorem StepsMeet.and {ok' : σ → α → Prop} (h : StepsMeet step ok s as)
    (h' : StepsMeet step ok' s as) : StepsMeet step (fun s a => ok s a ∧ ok' s a) s as := by
  induction as generalizing s with
  | nil => trivial
  | cons a as ih => exact ⟨⟨h.1, h'.1⟩, fun m hm => ih (h.2 m hm) (h'.2 m hm)⟩

/-- Steps that meet a condition meet what follows from it. -/
theorem StepsMeet.mono {ok' : σ → α → Prop} (himp : ∀ s a, ok s a → ok' s a)
    (h : StepsMeet step ok s as) : StepsMeet step ok' s as := by
  induction as generalizing s with
  | nil => trivial
  | cons a as ih => exact ⟨himp s a h.1, fun s' hs => ih (h.2 s' hs)⟩

/-- Where every step that fails to meet `ok` leads to a state that is bad from then
on, a run meets `ok` throughout or ends in a bad state. -/
theorem stepsMeet_or_of_kept {inv bad : σ → Prop}
    (hinv : ∀ s a s', inv s → step s a = some s' → inv s')
    (hnot : ∀ s a s', inv s → ¬ ok s a → step s a = some s' → bad s')
    (hbad : ∀ s a s', inv s → bad s → step s a = some s' → bad s')
    (hs : inv s) (hr : run step s as = some s') : StepsMeet step ok s as ∨ bad s' := by
  induction as generalizing s with
  | nil => exact .inl trivial
  | cons a as ih =>
    obtain ⟨m, hm, hrest⟩ := run_cons_eq_some.mp hr
    have hinvm := hinv s a m hs hm
    by_cases hok : ok s a
    · refine (ih hinvm hrest).imp_left fun hmeet => ⟨hok, fun n hn => ?_⟩
      cases hm.symm.trans hn
      exact hmeet
    · have hboth : ∀ s a s', inv s ∧ bad s → True → step s a = some s' → inv s' ∧ bad s' := by
        rintro s a s' ⟨hi, hb⟩ - h
        exact ⟨hinv s a s' hi h, hbad s a s' hi hb h⟩
      exact .inr (run_preserves hboth ⟨hinvm, hnot s a m hs hok hm⟩ stepsMeet_true hrest).2

/-- Where every counted step uses up a unit of a potential that no step raises, a run
has no more counted steps than it uses up. -/
theorem countP_add_le {inv : σ → Prop} {potential : σ → ℕ} {counted : α → Bool}
    (hinv : ∀ s a s', inv s → ok s a → step s a = some s' → inv s')
    (hstep : ∀ s a s', inv s → ok s a → step s a = some s' →
      potential s' + (if counted a = true then 1 else 0) ≤ potential s)
    (hs : inv s) (hok : StepsMeet step ok s as) (hr : run step s as = some s') :
    as.countP counted + potential s' ≤ potential s := by
  induction as generalizing s with
  | nil =>
    cases hr
    simp
  | cons a as ih =>
    obtain ⟨m, hm, hrest⟩ := run_cons_eq_some.mp hr
    have hfirst := hstep s a m hs hok.1 hm
    have hlater := ih (hinv s a m hs hok.1 hm) (hok.2 m hm) hrest
    rw [List.countP_cons]
    omega

/-- An invariant holds in every reachable state. -/
theorem Reachable.invariant {inv : σ → Prop} {init : σ} (hi : inv init)
    (hstep : ∀ s a s', inv s → step s a = some s' → inv s')
    (h : Reachable step init s) : inv s := by
  obtain ⟨as, hr⟩ := h
  exact run_preserves (fun s a s' hs _ => hstep s a s' hs) hi stepsMeet_true hr

/-- An invariant of the steps that meet `ok` holds wherever they lead. -/
theorem ReachableVia.invariant {inv : σ → Prop} {init : σ} (hi : inv init)
    (hstep : ∀ s a s', inv s → ok s a → step s a = some s' → inv s')
    (h : ReachableVia step ok init s) : inv s := by
  obtain ⟨as, hr, hok⟩ := h
  exact run_preserves hstep hi hok hr

@[simp] theorem follow_nil : follow step s [] = s := rfl

/-- An enabled action is performed. -/
theorem follow_cons (h : step s a = some s') : follow step s (a :: as) = follow step s' as := by
  rw [follow, h, Option.getD_some]

/-- Two schedules are followed one after the other. -/
theorem follow_append : follow step s (as ++ bs) = follow step (follow step s as) bs := by
  induction as generalizing s with
  | nil => rfl
  | cons a as ih => exact ih

/-- What the steps of some actions preserve is left as it is by a schedule of them. -/
theorem follow_preserves {inv : σ → Prop} {allowed : α → Prop}
    (hstep : ∀ s a s', inv s → allowed a → step s a = some s' → inv s')
    (hs : inv s) (has : ∀ a ∈ as, allowed a) : inv (follow step s as) := by
  induction as generalizing s with
  | nil => exact hs
  | cons a as ih =>
    refine ih ?_ fun b hb => has b (List.mem_cons_of_mem a hb)
    cases hm : step s a with
    | none => exact hs
    | some m => exact hstep s a m hs (has a List.mem_cons_self) hm

/-- Reachability extends by one enabled action. -/
theorem Reachable.next {init : σ} (h : Reachable step init s) (hs : step s a = some s') :
    Reachable step init s' := by
  obtain ⟨as, hr⟩ := h
  exact ⟨as ++ [a], run_concat_eq_some.mpr ⟨s, hr, hs⟩⟩

end Runs

end RioIocpServer.TransitionSystem
