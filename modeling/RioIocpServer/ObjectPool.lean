import RioIocpServer.TransitionSystem
import RioIocpServer.ThreadSum
import Mathlib.Data.List.Count

/-!
# The pool of event objects

`operator new` of a `Poolable` class takes an object from an interlocked list or, when
the list is empty, from `_aligned_malloc`; `operator delete` puts it back. Each
interlocked operation on the list, each allocation and each update of the two counters
is one step, and any number of threads take steps in any order. An allocation answers
with memory that is not in use, or with `nullptr`. A caller deletes an object it was
given, once. The objects allocated and those given to callers, the failed allocations,
how many `new` are going on and how many objects were ever wanted at a time are history.
-/

namespace RioIocpServer.ObjectPool

open TransitionSystem

/-- Where a thread stands in `new` or `delete`. -/
inductive Pc (A : Type*) where
  /-- Outside. -/
  | idle
  /-- `Pop` found the list empty; at `_aligned_malloc`. -/
  | empty
  /-- At `m_allocCount.fetch_add`. -/
  | allocated (object : Option A)
  /-- At `m_useCount.fetch_add`. -/
  | taken (object : Option A)
  /-- `Push` has put the object on the list; at `m_useCount.fetch_sub`. -/
  | pushed
  deriving DecidableEq

/-- A pool and the threads that use it. -/
structure State (T A : Type*) where
  /-- `m_header`, the object pushed last first. -/
  header : List A
  /-- `m_useCount`. -/
  useCount : ℤ
  /-- `m_allocCount`. -/
  allocCount : ℤ
  /-- The threads. -/
  threads : T → Pc A
  /-- History: the objects given to callers and not deleted. -/
  held : List A
  /-- History: the objects allocated. -/
  objects : List A
  /-- History: texts given to `HandleError`. -/
  errors : List String
  /-- History: allocations that answered `nullptr`. -/
  failures : ℕ
  /-- History: `new` calls going on. -/
  requests : ℕ
  /-- History: the most objects that were held or asked for at a time. -/
  peak : ℕ

/-- The pool of a class nobody has made an object of. -/
def init {T A : Type*} : State T A where
  header := []
  useCount := 0
  allocCount := 0
  threads _ := .idle
  held := []
  objects := []
  errors := []
  failures := 0
  requests := 0
  peak := 0

/-- The steps of a thread. -/
inductive Action (A : Type*) where
  /-- `new`, up to `InterlockedPopEntrySList`. -/
  | pop
  /-- `_aligned_malloc` with its answer. -/
  | malloc (answer : Option A)
  /-- `m_allocCount.fetch_add(1)`. -/
  | countAlloc
  /-- `m_useCount.fetch_add(1)`, and the return of `new`. -/
  | countUse
  /-- `delete`, up to `InterlockedPushEntrySList`. -/
  | push (object : A)
  /-- `m_useCount.fetch_sub(1)`. -/
  | countFree

section System

variable {T A : Type*} [DecidableEq T] [DecidableEq A]

/-- One step of a thread. -/
def step (s : State T A) : T × Action A → Option (State T A)
  | (t, .pop) =>
    match s.threads t, s.header with
    | .idle, object :: rest => some { s with
        header := rest
        threads := Function.update s.threads t (.taken (some object))
        requests := s.requests + 1
        peak := max s.peak (s.held.length + s.requests + 1) }
    | .idle, [] => some { s with
        threads := Function.update s.threads t .empty
        requests := s.requests + 1
        peak := max s.peak (s.held.length + s.requests + 1) }
    | _, _ => none
  | (t, .malloc answer) =>
    match s.threads t with
    | .empty =>
      if ∀ object ∈ answer, object ∉ s.objects then some { s with
        threads := Function.update s.threads t (.allocated answer)
        objects := answer.toList ++ s.objects
        failures := if answer = none then s.failures + 1 else s.failures }
      else none
    | _ => none
  | (t, .countAlloc) =>
    match s.threads t with
    | .allocated object => some { s with
        allocCount := s.allocCount + 1
        threads := Function.update s.threads t (.taken object) }
    | _ => none
  | (t, .countUse) =>
    match s.threads t with
    | .taken (some object) => some { s with
        useCount := s.useCount + 1
        threads := Function.update s.threads t .idle
        held := object :: s.held
        requests := s.requests - 1 }
    | .taken none => some { s with
        useCount := s.useCount + 1
        threads := Function.update s.threads t .idle
        errors := s.errors ++ ["Poolable::new"]
        requests := s.requests - 1 }
    | _ => none
  | (t, .push object) =>
    match s.threads t with
    | .idle =>
      if object ∈ s.held then some { s with
        header := object :: s.header
        threads := Function.update s.threads t .pushed
        held := s.held.erase object }
      else none
    | _ => none
  | (t, .countFree) =>
    match s.threads t with
    | .pushed => some { s with
        useCount := s.useCount - 1
        threads := Function.update s.threads t .idle }
    | _ => none

/-- What one step can do, with what it has tested. -/
inductive Moves (s : State T A) (t : T) : State T A → Prop
  | popped (object : A) (rest : List A) (ht : s.threads t = .idle)
      (hheader : s.header = object :: rest) : Moves s t { s with
      header := rest
      threads := Function.update s.threads t (.taken (some object))
      requests := s.requests + 1
      peak := max s.peak (s.held.length + s.requests + 1) }
  | foundEmpty (ht : s.threads t = .idle) (hheader : s.header = []) : Moves s t { s with
      threads := Function.update s.threads t .empty
      requests := s.requests + 1
      peak := max s.peak (s.held.length + s.requests + 1) }
  | allocated (object : A) (ht : s.threads t = .empty) (hfresh : object ∉ s.objects) :
      Moves s t { s with
      threads := Function.update s.threads t (.allocated (some object))
      objects := object :: s.objects }
  | failed (ht : s.threads t = .empty) : Moves s t { s with
      threads := Function.update s.threads t (.allocated none)
      failures := s.failures + 1 }
  | countedAlloc (object : Option A) (ht : s.threads t = .allocated object) : Moves s t { s with
      allocCount := s.allocCount + 1
      threads := Function.update s.threads t (.taken object) }
  | given (object : A) (ht : s.threads t = .taken (some object)) : Moves s t { s with
      useCount := s.useCount + 1
      threads := Function.update s.threads t .idle
      held := object :: s.held
      requests := s.requests - 1 }
  | refused (ht : s.threads t = .taken none) : Moves s t { s with
      useCount := s.useCount + 1
      threads := Function.update s.threads t .idle
      errors := s.errors ++ ["Poolable::new"]
      requests := s.requests - 1 }
  | pushed (object : A) (ht : s.threads t = .idle) (hheld : object ∈ s.held) : Moves s t { s with
      header := object :: s.header
      threads := Function.update s.threads t .pushed
      held := s.held.erase object }
  | freed (ht : s.threads t = .pushed) : Moves s t { s with
      useCount := s.useCount - 1
      threads := Function.update s.threads t .idle }

variable {s s' : State T A} {t u : T} {a : A}

/-- Every enabled step is one of the moves. -/
theorem step_moves {action : Action A} (h : step s (t, action) = some s') : Moves s t s' := by
  cases action with
  | pop =>
    simp only [step] at h
    split at h
    · cases h
      exact .popped _ _ ‹_› ‹_›
    · cases h
      exact .foundEmpty ‹_› ‹_›
    · cases h
  | malloc answer =>
    simp only [step] at h
    split at h
    · split at h
      · cases h
        cases answer with
        | none => exact .failed ‹_›
        | some object =>
          exact .allocated object ‹_› (‹∀ answer ∈ some object, answer ∉ s.objects› object rfl)
      · cases h
    · cases h
  | countAlloc =>
    simp only [step] at h
    split at h <;> cases h
    exact .countedAlloc _ ‹_›
  | countUse =>
    simp only [step] at h
    split at h <;> cases h
    · exact .given _ ‹_›
    · exact .refused ‹_›
  | push object =>
    simp only [step] at h
    split at h
    · split at h <;> cases h
      exact .pushed object ‹_› ‹_›
    · cases h
  | countFree =>
    simp only [step] at h
    split at h <;> cases h
    exact .freed ‹_›

end System

section Numbers

variable {T A : Type*}

/-- The object a thread has taken and not given to its caller yet. -/
def Pc.object : Pc A → Option A
  | .allocated object => object
  | .taken object => object
  | _ => none

/-- A thread has this object. -/
def Pc.has [DecidableEq A] (a : A) (pc : Pc A) : ℕ := if pc.object = some a then 1 else 0

/-- A thread has an object. -/
def Pc.hasAny : Pc A → ℕ
  | .allocated (some _) => 1
  | .taken (some _) => 1
  | _ => 0

/-- A thread waits for an allocation. -/
def Pc.waiting : Pc A → ℕ
  | .empty => 1
  | _ => 0

/-- A thread has an allocation to count. -/
def Pc.uncounted : Pc A → ℕ
  | .allocated _ => 1
  | _ => 0

/-- A thread was answered `nullptr`. -/
def Pc.refused : Pc A → ℕ
  | .allocated none => 1
  | .taken none => 1
  | _ => 0

/-- A thread has put an object back and not counted it. -/
def Pc.freeing : Pc A → ℕ
  | .pushed => 1
  | _ => 0

/-- A thread is in `new`. -/
def Pc.requesting : Pc A → ℕ
  | .idle => 0
  | .pushed => 0
  | _ => 1

end Numbers

section Invariant

variable {T A : Type*} [DecidableEq T] [DecidableEq A] [Fintype T] {s s' : State T A} {t u : T}
  {a : A}

/-- A number of all threads. -/
def State.total (s : State T A) (f : Pc A → ℕ) : ℕ := ∑ t, f (s.threads t)

/-- Every object is at one place. -/
structure Placed (s : State T A) : Prop where
  /-- On the list, with a caller or with a thread. -/
  once : ∀ a, s.header.count a + s.held.count a + s.total (Pc.has a) = s.objects.count a
  /-- No object is allocated twice. -/
  nodup : s.objects.Nodup
  /-- The places hold all objects. -/
  length_eq : s.header.length + s.held.length + s.total Pc.hasAny = s.objects.length

/-- The counters are right, up to updates not made yet. -/
structure Counted (s : State T A) : Prop where
  /-- `m_useCount` is the number of objects in use and of requests refused. -/
  useCount_eq : s.useCount = s.held.length + s.errors.length + s.total Pc.freeing
  /-- `m_allocCount` is the number of allocations. -/
  allocCount_eq : s.allocCount + s.total Pc.uncounted = s.objects.length + s.failures
  /-- A failed allocation is on the way to its caller or has been reported. -/
  failures_eq : s.failures = s.errors.length + s.total Pc.refused
  /-- The requests are the threads in `new`. -/
  requests_eq : s.requests = s.total Pc.requesting

/-- The invariant of the pool. -/
structure Inv (s : State T A) : Prop where
  /-- Every object is at one place. -/
  placed : Placed s
  /-- The counters are right. -/
  counted : Counted s
  /-- There are, and will be, no more objects than were wanted at a time. -/
  objects_le : s.objects.length + s.total Pc.waiting ≤ s.peak

omit [DecidableEq A] in
/-- A step exchanges the number of one thread. -/
theorem total_update (f : Pc A → ℕ) {pc old : Pc A}
    (hthreads : s'.threads = Function.update s.threads t pc) (ht : s.threads t = old) :
    s'.total f + f old = s.total f + f pc := by
  rw [State.total, State.total, hthreads, ← ht]
  exact ThreadSum.sum_update f s.threads t pc

/-- What a step does to all the numbers of threads. -/
structure Exchanged (s s' : State T A) (old pc : Pc A) : Prop where
  has : ∀ a, s'.total (Pc.has a) + old.has a = s.total (Pc.has a) + pc.has a
  hasAny : s'.total Pc.hasAny + old.hasAny = s.total Pc.hasAny + pc.hasAny
  waiting : s'.total Pc.waiting + old.waiting = s.total Pc.waiting + pc.waiting
  uncounted : s'.total Pc.uncounted + old.uncounted = s.total Pc.uncounted + pc.uncounted
  refused : s'.total Pc.refused + old.refused = s.total Pc.refused + pc.refused
  freeing : s'.total Pc.freeing + old.freeing = s.total Pc.freeing + pc.freeing
  requesting : s'.total Pc.requesting + old.requesting = s.total Pc.requesting + pc.requesting

/-- A step exchanges the numbers of one thread. -/
theorem exchanged {pc old : Pc A} (hthreads : s'.threads = Function.update s.threads t pc)
    (ht : s.threads t = old) : Exchanged s s' old pc where
  has a := total_update (Pc.has a) hthreads ht
  hasAny := total_update _ hthreads ht
  waiting := total_update _ hthreads ht
  uncounted := total_update _ hthreads ht
  refused := total_update _ hthreads ht
  freeing := total_update _ hthreads ht
  requesting := total_update _ hthreads ht

omit [DecidableEq T] [DecidableEq A] in
/-- A thread with an object or waiting for one is in `new`. -/
theorem hasAny_add_waiting_le : s.total Pc.hasAny + s.total Pc.waiting ≤ s.total Pc.requesting := by
  rw [State.total, State.total, ← Finset.sum_add_distrib]
  refine Finset.sum_le_sum fun t _ => ?_
  cases s.threads t with
  | allocated object => cases object <;> simp [Pc.hasAny, Pc.waiting, Pc.requesting]
  | taken object => cases object <;> simp [Pc.hasAny, Pc.waiting, Pc.requesting]
  | _ => simp [Pc.hasAny, Pc.waiting, Pc.requesting]

omit [DecidableEq T] in
/-- A pool nobody has used. -/
theorem inv_init : Inv (init : State T A) where
  placed :=
    { once a := by simp [init, State.total, Pc.has, Pc.object]
      nodup := List.nodup_nil
      length_eq := by simp [init, State.total, Pc.hasAny] }
  counted :=
    { useCount_eq := by simp [init, State.total, Pc.freeing]
      allocCount_eq := by simp [init, State.total, Pc.uncounted]
      failures_eq := by simp [init, State.total, Pc.refused]
      requests_eq := by simp [init, State.total, Pc.requesting] }
  objects_le := by simp [init, State.total, Pc.waiting]

/-- Every step leaves every object at one place. -/
theorem placed_step (placed : Placed s) (h : Moves s t s') : Placed s' := by
  have exchange : ∀ {pc old : Pc A}, s'.threads = Function.update s.threads t pc →
      s.threads t = old → Exchanged s s' old pc := exchanged
  obtain ⟨once, nodup, length_eq⟩ := placed
  cases h with
  | popped object rest ht hheader =>
    have ex := exchange rfl ht
    rw [hheader, List.length_cons] at length_eq
    refine ⟨fun a => ?_, nodup, ?_⟩
    · have hnow := ex.has a
      have hbefore := once a
      rw [hheader, List.count_cons] at hbefore
      simp only [Pc.has, Pc.object, Option.some.injEq, beq_iff_eq, reduceCtorEq, if_false]
        at hbefore hnow
      dsimp only
      omega
    · have hany := ex.hasAny
      simp only [Pc.hasAny] at hany
      dsimp only
      omega
  | foundEmpty ht hheader =>
    have ex := exchange rfl ht
    refine ⟨fun a => ?_, nodup, ?_⟩
    · rw [← once a]
      exact congrArg _ (ex.has a)
    · rw [← length_eq]
      exact congrArg _ ex.hasAny
  | allocated object ht hfresh =>
    have ex := exchange rfl ht
    refine ⟨fun a => ?_, List.nodup_cons.mpr ⟨hfresh, nodup⟩, ?_⟩
    · have hnow := ex.has a
      have hbefore := once a
      simp only [Pc.has, Pc.object, Option.some.injEq, reduceCtorEq, if_false] at hnow
      simp only [List.count_cons, beq_iff_eq]
      omega
    · have hany := ex.hasAny
      simp only [Pc.hasAny] at hany
      rw [List.length_cons]
      dsimp only
      omega
  | failed ht =>
    have ex := exchange rfl ht
    refine ⟨fun a => ?_, nodup, ?_⟩
    · rw [← once a]
      exact congrArg _ (ex.has a)
    · rw [← length_eq]
      exact congrArg _ ex.hasAny
  | countedAlloc object ht =>
    have ex := exchange rfl ht
    have hany : (Pc.taken object).hasAny = (Pc.allocated object).hasAny := by cases object <;> rfl
    refine ⟨fun a => ?_, nodup, ?_⟩
    · rw [← once a]
      exact congrArg _ (Nat.add_right_cancel (ex.has a))
    · rw [← length_eq]
      exact congrArg _ (Nat.add_right_cancel (ex.hasAny.trans (congrArg _ hany)))
  | given object ht =>
    have ex := exchange rfl ht
    refine ⟨fun a => ?_, nodup, ?_⟩
    · have hnow := ex.has a
      have hbefore := once a
      simp only [Pc.has, Pc.object, Option.some.injEq, reduceCtorEq, if_false] at hnow
      simp only [List.count_cons, beq_iff_eq]
      omega
    · have hany := ex.hasAny
      simp only [Pc.hasAny] at hany
      rw [List.length_cons]
      dsimp only
      omega
  | refused ht =>
    have ex := exchange rfl ht
    refine ⟨fun a => ?_, nodup, ?_⟩
    · rw [← once a]
      exact congrArg _ (ex.has a)
    · rw [← length_eq]
      exact congrArg _ ex.hasAny
  | pushed object ht hheld =>
    have ex := exchange rfl ht
    refine ⟨fun a => ?_, nodup, ?_⟩
    · have hbefore := once a
      have hpos := List.count_pos_iff.mpr hheld
      have herased : (s.held.erase object).count a = _ := List.count_erase
      have hnow := ex.has a
      simp only [Pc.has, Pc.object, reduceCtorEq, if_false] at hnow
      simp only [List.count_cons, herased, beq_iff_eq]
      by_cases ha : object = a
      · subst ha
        simp only [if_true]
        omega
      · simp only [if_neg ha]
        omega
    · have hlength := List.length_pos_of_mem hheld
      have hany := ex.hasAny
      simp only [Pc.hasAny] at hany
      simp only [List.length_cons, List.length_erase_of_mem hheld]
      omega
  | freed ht =>
    have ex := exchange rfl ht
    refine ⟨fun a => ?_, nodup, ?_⟩
    · rw [← once a]
      exact congrArg _ (ex.has a)
    · rw [← length_eq]
      exact congrArg _ ex.hasAny

/-- Every step keeps the counters right. -/
theorem counted_step (counted : Counted s) (h : Moves s t s') : Counted s' := by
  have exchange : ∀ {pc old : Pc A}, s'.threads = Function.update s.threads t pc →
      s.threads t = old → Exchanged s s' old pc := exchanged
  obtain ⟨useCount_eq, allocCount_eq, failures_eq, requests_eq⟩ := counted
  cases h with
  | countedAlloc object ht =>
    obtain ⟨-, -, -, uncounted, refused, freeing, requesting⟩ := exchange rfl ht
    have href : (Pc.taken object).refused = (Pc.allocated object).refused := by cases object <;> rfl
    simp only [Pc.uncounted, Pc.freeing, Pc.requesting] at uncounted freeing requesting
    constructor <;> dsimp only <;> omega
  | refused ht =>
    obtain ⟨-, -, -, uncounted, refused, freeing, requesting⟩ := exchange rfl ht
    simp only [Pc.uncounted, Pc.refused, Pc.freeing, Pc.requesting]
      at uncounted refused freeing requesting
    constructor <;> simp only [List.length_append, List.length_singleton] <;> omega
  | pushed object ht hheld =>
    obtain ⟨-, -, -, uncounted, refused, freeing, requesting⟩ := exchange rfl ht
    have hlength := List.length_pos_of_mem hheld
    simp only [Pc.uncounted, Pc.refused, Pc.freeing, Pc.requesting]
      at uncounted refused freeing requesting
    constructor <;> simp only [List.length_erase_of_mem hheld] <;> omega
  | _ =>
    obtain ⟨-, -, -, uncounted, refused, freeing, requesting⟩ := exchange rfl ‹_›
    simp only [Pc.uncounted, Pc.refused, Pc.freeing, Pc.requesting]
      at uncounted refused freeing requesting
    constructor <;> simp only [List.length_cons] <;> omega

/-- Every step keeps the objects within those that were wanted at a time: an object is
allocated only while all others are wanted. -/
theorem objects_step (inv : Inv s) (h : Moves s t s') :
    s'.objects.length + s'.total Pc.waiting ≤ s'.peak := by
  have exchange : ∀ {pc old : Pc A}, s'.threads = Function.update s.threads t pc →
      s.threads t = old → Exchanged s s' old pc := exchanged
  have hle := inv.objects_le
  cases h with
  | foundEmpty ht hheader =>
    have waiting := (exchange rfl ht).waiting
    have length_eq := inv.placed.length_eq
    have requests_eq := inv.counted.requests_eq
    have hbusy := hasAny_add_waiting_le (s := s)
    rw [hheader, List.length_nil] at length_eq
    simp only [Pc.waiting] at waiting
    dsimp only
    omega
  | _ =>
    have waiting := (exchange rfl ‹_›).waiting
    simp only [Pc.waiting] at waiting
    simp only [List.length_cons]
    omega

/-- Every step keeps the invariant. -/
theorem inv_step (inv : Inv s) (h : Moves s t s') : Inv s' :=
  ⟨placed_step inv.placed h, counted_step inv.counted h, objects_step inv h⟩

/-- What callers and the counters can rely on. -/
structure Sound (s : State T A) : Prop where
  /-- No object is with two callers, or with a caller and on the list. -/
  nodup : (s.held ++ s.header).Nodup
  /-- An object on its way to a caller is nowhere else. -/
  handing : ∀ t a, (s.threads t).object = some a →
    a ∉ s.held ∧ a ∉ s.header ∧ ∀ u, (s.threads u).object = some a → u = t
  /-- No object is lost. -/
  kept : ∀ a ∈ s.objects, a ∈ s.held ∨ a ∈ s.header ∨ ∃ t, (s.threads t).object = some a
  /-- No more objects were allocated than were wanted at a time. -/
  objects_le : s.objects.length ≤ s.peak
  /-- `m_useCount` is never below the number of objects in use. -/
  held_le : (s.held.length : ℤ) ≤ s.useCount
  /-- While nobody is in `new` or `delete`, the counters count the objects in use and all
  objects, and both the failed allocations. -/
  rest : (∀ t, s.threads t = .idle) → s.useCount = s.held.length + s.errors.length ∧
    s.allocCount = s.useCount + s.header.length

omit [DecidableEq T] [Fintype T] in
/-- An object with a thread is counted. -/
theorem has_pos (h : (s.threads t).object = some a) : 0 < Pc.has a (s.threads t) := by
  rw [Pc.has, if_pos h]
  exact Nat.one_pos

/-- A pool with the invariant is sound. -/
theorem Inv.sound (inv : Inv s) : Sound s := by
  obtain ⟨⟨once, nodup, length_eq⟩, ⟨useCount_eq, allocCount_eq, failures_eq, -⟩, hle⟩ := inv
  have hone : ∀ a, s.header.count a + s.held.count a + s.total (Pc.has a) ≤ 1 := fun a =>
    (once a).trans_le (List.nodup_iff_count_le_one.mp nodup a)
  constructor
  · refine List.nodup_iff_count_le_one.mpr fun a => ?_
    have ha := hone a
    rw [List.count_append]
    omega
  · intro t a ht
    have ha := hone a
    have hpos := has_pos ht
    have hsum : Pc.has a (s.threads t) ≤ s.total (Pc.has a) :=
      ThreadSum.le_sum (Pc.has a) s.threads t
    refine ⟨List.count_eq_zero.mp (by omega), List.count_eq_zero.mp (by omega), fun u hu => ?_⟩
    exact ThreadSum.eq_of_sum_le_one (show s.total (Pc.has a) ≤ 1 by omega) (has_pos hu) hpos
  · intro a ha
    have hcount := once a
    have hpos := List.count_pos_iff.mpr ha
    by_cases hheld : a ∈ s.held
    · exact .inl hheld
    by_cases hheader : a ∈ s.header
    · exact .inr (.inl hheader)
    rw [List.count_eq_zero.mpr hheld, List.count_eq_zero.mpr hheader] at hcount
    obtain ⟨t, ht⟩ := ThreadSum.exists_pos_of_sum_pos (f := Pc.has a) (g := s.threads)
      (show 0 < s.total (Pc.has a) by omega)
    refine .inr (.inr ⟨t, ?_⟩)
    by_contra hnot
    rw [Pc.has, if_neg hnot] at ht
    exact Nat.lt_irrefl 0 ht
  · omega
  · omega
  · intro hidle
    have hzero : ∀ f : Pc A → ℕ, f .idle = 0 → s.total f = 0 := fun f hf =>
      Finset.sum_eq_zero fun t _ => by rw [hidle t, hf]
    have h1 := hzero Pc.hasAny rfl
    have h2 := hzero Pc.freeing rfl
    have h3 := hzero Pc.uncounted rfl
    have h4 := hzero Pc.refused rfl
    omega

end Invariant

/-- However the interlocked operations of any number of threads are interleaved and
whatever the allocations answer: no object is given to two callers at a time, none is
lost, no more are allocated than were wanted at a time, `m_useCount` is never too low, and
both counters are right at rest, but for the allocations that were refused. -/
theorem objectPool_sound {T A : Type*} [DecidableEq T] [DecidableEq A] [Fintype T]
    {s : State T A} (h : Reachable step init s) : Sound s := by
  have inv : Inv s := h.invariant inv_init fun _ _ _ inv hs => inv_step inv (step_moves hs)
  exact inv.sound

/-- Two threads make an object each, of which one is refused; the other one deletes its
own, and the first takes it over before the counter knows. -/
def takeOver : List (Bool × Action ℕ) :=
  [(true, .pop), (false, .pop), (true, .malloc (some 1)), (false, .malloc none),
    (true, .countAlloc), (false, .countAlloc), (true, .countUse), (false, .countUse),
    (true, .push 1), (false, .pop), (false, .countUse), (true, .countFree)]

/-- The object is in use, and the counters count the refusal too. -/
theorem objectPool_sound_takeOver : ∃ s : State Bool ℕ, run step init takeOver = some s ∧
    s.held = [1] ∧ s.useCount = 2 ∧ s.allocCount = 2 ∧ Sound s := by
  have h : ((run step (init : State Bool ℕ) takeOver).any fun s =>
      s.held = [1] ∧ s.useCount = 2 ∧ s.allocCount = 2) = true := by
    decide +kernel
  obtain ⟨s, hr, hview⟩ := (Option.any_eq_true _ _).mp h
  obtain ⟨hheld, huse, halloc⟩ := of_decide_eq_true hview
  exact ⟨s, hr, hheld, huse, halloc, objectPool_sound ⟨_, hr⟩⟩

end RioIocpServer.ObjectPool
