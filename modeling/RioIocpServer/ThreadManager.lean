import RioIocpServer.TransitionSystem
import RioIocpServer.RWLock

/-!
# Thread ids of the thread manager

`CreateThread` starts a thread under `m_lock`; the new thread then increments
`m_threadCnt` and reads it into `LThreadId` in two steps of its own, outside the
lock. `JoinThreads` waits for every thread created and starts the count again.
Whether the last assignment was followed by an increment is history read by no
step.
-/

namespace RioIocpServer.ThreadManager

open TransitionSystem

/-- Where a thread stands. -/
inductive Pc where
  /-- Not created. -/
  | absent
  /-- At `m_threadCnt++`. -/
  | started
  /-- At `LThreadId = m_threadCnt`. -/
  | counted
  /-- Executing its function. -/
  | running (lThreadId : ℕ)
  /-- Returned from its function. -/
  | finished (lThreadId : ℕ)
  deriving DecidableEq

/-- The `LThreadId` of a thread that has executed the assignment. -/
def Pc.lThreadId : Pc → Option ℕ
  | .running lThreadId => some lThreadId
  | .finished lThreadId => some lThreadId
  | _ => none

/-- A thread manager and its threads. -/
structure State (T : Type*) where
  /-- `m_threads`. -/
  created : List T
  /-- `m_threadCnt`. -/
  threadCnt : ℕ
  /-- The threads. -/
  threads : T → Pc
  /-- History: `m_threadCnt` was incremented since the last assignment. -/
  countedSince : Bool

/-- A thread manager that was just constructed. -/
def init {T : Type*} : State T where
  created := []
  threadCnt := 0
  threads _ := .absent
  countedSince := false

/-- The steps of the threads. -/
inductive Action (T : Type*) where
  /-- `CreateThread`, whose thread is `t`. -/
  | createThread (t : T)
  /-- `m_threadCnt++` of a new thread. -/
  | increment (t : T)
  /-- `LThreadId = m_threadCnt` of a new thread. -/
  | assign (t : T)
  /-- The function of a thread returns. -/
  | finish (t : T)
  /-- `JoinThreads` has joined every thread. -/
  | joinThreads

section System

variable {T : Type*} [DecidableEq T]

/-- One step. -/
def step (s : State T) : Action T → Option (State T)
  | .createThread t =>
    match s.threads t with
    | .absent => some { s with
        created := s.created ++ [t]
        threads := Function.update s.threads t .started }
    | _ => none
  | .increment t =>
    match s.threads t with
    | .started => some { s with
        threadCnt := s.threadCnt + 1
        threads := Function.update s.threads t .counted
        countedSince := true }
    | _ => none
  | .assign t =>
    match s.threads t with
    | .counted => some { s with
        threads := Function.update s.threads t (.running s.threadCnt)
        countedSince := false }
    | _ => none
  | .finish t =>
    match s.threads t with
    | .running lThreadId => some { s with
        threads := Function.update s.threads t (.finished lThreadId) }
    | _ => none
  | .joinThreads =>
    if s.created.all (fun t => s.threads t matches .finished _) then
      some { s with
        created := []
        threadCnt := 0
        threads := fun t => if t ∈ s.created then .absent else s.threads t }
    else none

/-- What one step can do, with what it has tested. -/
inductive Moves (s : State T) : Action T → State T → Prop
  | created (t : T) (ht : s.threads t = .absent) : Moves s (.createThread t) { s with
      created := s.created ++ [t]
      threads := Function.update s.threads t .started }
  | incremented (t : T) (ht : s.threads t = .started) : Moves s (.increment t) { s with
      threadCnt := s.threadCnt + 1
      threads := Function.update s.threads t .counted
      countedSince := true }
  | assigned (t : T) (ht : s.threads t = .counted) : Moves s (.assign t) { s with
      threads := Function.update s.threads t (.running s.threadCnt)
      countedSince := false }
  | finished (t : T) (lThreadId : ℕ) (ht : s.threads t = .running lThreadId) :
      Moves s (.finish t) { s with
        threads := Function.update s.threads t (.finished lThreadId) }
  | joined (hfinished : ∀ t ∈ s.created, ∃ lThreadId, s.threads t = .finished lThreadId) :
      Moves s .joinThreads { s with
        created := []
        threadCnt := 0
        threads := fun t => if t ∈ s.created then .absent else s.threads t }

/-- Every enabled step is one of the moves. -/
theorem step_moves {s s' : State T} {a : Action T} (h : step s a = some s') : Moves s a s' := by
  cases a with
  | createThread t =>
    simp only [step] at h
    split at h <;> cases h
    exact .created t ‹_›
  | increment t =>
    simp only [step] at h
    split at h <;> cases h
    exact .incremented t ‹_›
  | assign t =>
    simp only [step] at h
    split at h <;> cases h
    exact .assigned t ‹_›
  | finish t =>
    simp only [step] at h
    split at h <;> cases h
    exact .finished t _ ‹_›
  | joinThreads =>
    simp only [step] at h
    split at h <;> cases h
    refine .joined fun t ht => ?_
    have hall := List.all_eq_true.mp ‹s.created.all _ = true› t ht
    split at hall
    · exact ⟨_, ‹_›⟩
    · cases hall

/-- The `LThreadId` of a thread that has executed the assignment. -/
def State.lThreadId (s : State T) (t : T) : Option ℕ := (s.threads t).lThreadId

/-- Threads that have executed the assignment have different ids. -/
def Distinct (s : State T) : Prop :=
  ∀ t u lThreadId, s.lThreadId t = some lThreadId → s.lThreadId u = some lThreadId → t = u

/-- No thread takes itself for the owner of a write lock held by another: the id
read back from the flag of a writer is that of the writer only. -/
def OwnsAlone (s : State T) : Prop :=
  ∀ t u i j, s.lThreadId t = some i → s.lThreadId u = some j →
    RWLock.lockThreadId (RWLock.desired (BitVec.ofNat 32 i)) = BitVec.ofNat 32 j → t = u

/-- An assignment finds `m_threadCnt` incremented since the previous one. -/
def CountedSince (s : State T) : Action T → Prop
  | .assign _ => s.countedSince = true
  | _ => True

/-- An assignment finds a count that fits the upper half of a lock flag. -/
def FitsFlag (s : State T) : Action T → Prop
  | .assign _ => s.threadCnt ≤ 65535
  | _ => True

/-- The invariant of the thread manager. -/
structure Inv (s : State T) : Prop where
  /-- Every existing thread was created. -/
  mem_created : ∀ t, s.threads t ≠ .absent → t ∈ s.created
  /-- No id exceeds the count, and none equals a count not assigned yet. -/
  bound : ∀ t lThreadId, s.lThreadId t = some lThreadId →
    1 ≤ lThreadId ∧ lThreadId + s.countedSince.toNat ≤ s.threadCnt
  /-- A thread about to read the count finds one not assigned yet, or one that
  was assigned to another thread. -/
  recent : ∀ t, s.threads t = .counted → 1 ≤ s.threadCnt ∧
    (s.countedSince = false → ∃ u, s.lThreadId u = some s.threadCnt)

section Ids

variable {s s' : State T} {t u : T} {a : Action T}

/-- The ids after a step of one thread. -/
theorem lThreadId_update {s' : State T} {pc : Pc}
    (hs : s'.threads = Function.update s.threads t pc) :
    s'.lThreadId u = if u = t then pc.lThreadId else s.lThreadId u := by
  rw [State.lThreadId, hs]
  by_cases hu : u = t
  · rw [if_pos hu, hu, Function.update_self]
  · rw [if_neg hu, Function.update_of_ne hu]
    rfl

/-- A thread that steps without changing its id changes no id. -/
theorem lThreadId_congr {s' : State T} {old : Pc} (pc : Pc) (ht : s.threads t = old)
    (hs : s'.threads = Function.update s.threads t pc) (hpc : pc.lThreadId = old.lThreadId) :
    s'.lThreadId u = s.lThreadId u := by
  rw [lThreadId_update hs]
  by_cases hu : u = t
  · rw [if_pos hu, hu, hpc, ← ht]
    rfl
  · rw [if_neg hu]

/-- A thread at the assignment after a step that brought nobody there was there
before. -/
theorem counted_of_update {pc : Pc} (hpc : pc ≠ .counted)
    (h : Function.update s.threads t pc u = .counted) : s.threads u = .counted := by
  by_cases hu : u = t
  · rw [hu, Function.update_self] at h
    exact (hpc h).elim
  · rwa [Function.update_of_ne hu] at h

omit [DecidableEq T] in
/-- A thread at a position without an id has none. -/
theorem lThreadId_of_pc {pc : Pc} (ht : s.threads t = pc) : s.lThreadId t = pc.lThreadId :=
  congrArg Pc.lThreadId ht

/-- After `JoinThreads` nobody exists. -/
theorem Inv.absent_of_joined (inv : Inv s) (t : T) :
    (if t ∈ s.created then Pc.absent else s.threads t) = .absent := by
  by_cases ht : t ∈ s.created
  · rw [if_pos ht]
  · rw [if_neg ht]
    by_contra hne
    exact ht (inv.mem_created t hne)

/-- Every existing thread stays created. -/
theorem mem_created_step (inv : Inv s) (h : Moves s a s') :
    ∀ u, s'.threads u ≠ .absent → u ∈ s'.created := by
  have hupdate : ∀ {t : T} {pc : Pc} (u : T), s.threads t ≠ .absent →
      Function.update s.threads t pc u ≠ .absent → u ∈ s.created := by
    intro t pc u ht hu
    by_cases hut : u = t
    · exact inv.mem_created u (hut ▸ ht)
    · rw [Function.update_of_ne hut] at hu
      exact inv.mem_created u hu
  intro u hu
  cases h with
  | created t ht =>
    by_cases hut : u = t
    · exact List.mem_append_right _ (List.mem_singleton.mpr hut)
    · have hold : Function.update s.threads t .started u ≠ .absent := hu
      rw [Function.update_of_ne hut] at hold
      exact List.mem_append_left _ (inv.mem_created u hold)
  | incremented t ht => exact hupdate u (by simp [ht]) hu
  | assigned t ht => exact hupdate u (by simp [ht]) hu
  | finished t lThreadId ht => exact hupdate u (by simp [ht]) hu
  | joined hfinished => exact (hu (inv.absent_of_joined u)).elim

/-- The ids stay bounded by the count. -/
theorem bound_step (inv : Inv s) (h : Moves s a s') : ∀ u lThreadId,
    s'.lThreadId u = some lThreadId →
      1 ≤ lThreadId ∧ lThreadId + s'.countedSince.toNat ≤ s'.threadCnt := by
  intro u lThreadId hu
  cases h with
  | created t ht =>
    rw [lThreadId_congr .started ht rfl rfl] at hu
    exact inv.bound u lThreadId hu
  | incremented t ht =>
    rw [lThreadId_congr .counted ht rfl rfl] at hu
    have hbound := inv.bound u lThreadId hu
    show 1 ≤ lThreadId ∧ lThreadId + true.toNat ≤ s.threadCnt + 1
    rw [Bool.toNat_true]
    omega
  | assigned t ht =>
    rw [lThreadId_update rfl] at hu
    show 1 ≤ lThreadId ∧ lThreadId + false.toNat ≤ s.threadCnt
    rw [Bool.toNat_false]
    split at hu
    · cases hu
      exact ⟨(inv.recent t ht).1, le_refl _⟩
    · have hbound := inv.bound u lThreadId hu
      omega
  | finished t n ht =>
    rw [lThreadId_congr (.finished _) ht rfl rfl] at hu
    exact inv.bound u lThreadId hu
  | joined hfinished =>
    rw [lThreadId_of_pc (inv.absent_of_joined u)] at hu
    cases hu

/-- A thread about to read the count finds a new one or a taken one. -/
theorem recent_step (inv : Inv s) (h : Moves s a s') : ∀ u, s'.threads u = .counted →
    1 ≤ s'.threadCnt ∧ (s'.countedSince = false → ∃ v, s'.lThreadId v = some s'.threadCnt) := by
  intro u hu
  cases h with
  | created t ht =>
    have hrecent := inv.recent u (counted_of_update (by simp) hu)
    refine ⟨hrecent.1, fun hf => ?_⟩
    obtain ⟨v, hv⟩ := hrecent.2 hf
    exact ⟨v, (lThreadId_congr .started ht rfl rfl).trans hv⟩
  | incremented t ht => exact ⟨Nat.succ_pos _, fun hf => by cases hf⟩
  | assigned t ht =>
    have hrecent := inv.recent u (counted_of_update (by simp) hu)
    refine ⟨hrecent.1, fun _ => ⟨t, ?_⟩⟩
    rw [lThreadId_update rfl, if_pos rfl]
    rfl
  | finished t n ht =>
    have hrecent := inv.recent u (counted_of_update (by simp) hu)
    refine ⟨hrecent.1, fun hf => ?_⟩
    obtain ⟨v, hv⟩ := hrecent.2 hf
    exact ⟨v, (lThreadId_congr (.finished _) ht rfl rfl).trans hv⟩
  | joined hfinished =>
    have habsent := inv.absent_of_joined u
    cases habsent.symm.trans hu

/-- Every step keeps the invariant. -/
theorem inv_step (inv : Inv s) (h : step s a = some s') : Inv s' := by
  have hm := step_moves h
  exact ⟨mem_created_step inv hm, bound_step inv hm, recent_step inv hm⟩

omit [DecidableEq T] in
/-- A new thread manager has no threads. -/
theorem inv_init : Inv (init : State T) where
  mem_created _ h := (h rfl).elim
  bound _ _ h := by cases h
  recent _ h := by cases h

omit [DecidableEq T] in
/-- Threads that keep their ids stay distinct. -/
theorem Distinct.congr (h : Distinct s) (hids : ∀ u, s'.lThreadId u = s.lThreadId u) :
    Distinct s' := by
  intro t u lThreadId ht hu
  rw [hids] at ht hu
  exact h t u lThreadId ht hu

/-- An assignment keeps the ids distinct exactly if the count was incremented
since the previous one: otherwise the count is the id of another thread. -/
theorem distinct_assign_iff (inv : Inv s) (h : Distinct s) (ht : s.threads t = .counted)
    (hs : s'.threads = Function.update s.threads t (.running s.threadCnt)) :
    Distinct s' ↔ s.countedSince = true := by
  have hself : s'.lThreadId t = some s.threadCnt := by
    rw [lThreadId_update hs, if_pos rfl]
    rfl
  have hothers : ∀ u, u ≠ t → s'.lThreadId u = s.lThreadId u := by
    intro u hu
    rw [lThreadId_update hs, if_neg hu]
  constructor
  · intro hdistinct
    by_contra hf
    obtain ⟨u, hu⟩ := (inv.recent t ht).2 (by simpa using hf)
    have hut : u ≠ t := by
      rintro rfl
      rw [lThreadId_of_pc ht] at hu
      cases hu
    exact hut (hdistinct u t s.threadCnt ((hothers u hut).trans hu) hself)
  · intro hf
    have hfresh : ∀ u, u ≠ t → s'.lThreadId u ≠ some s.threadCnt := by
      intro u hu heq
      have hbound := inv.bound u s.threadCnt ((hothers u hu).symm.trans heq)
      rw [hf, Bool.toNat_true] at hbound
      omega
    intro u v lThreadId hu hv
    by_cases hut : u = t <;> by_cases hvt : v = t
    · rw [hut, hvt]
    · subst hut
      cases hself.symm.trans hu
      exact (hfresh v hvt hv).elim
    · subst hvt
      cases hself.symm.trans hv
      exact (hfresh u hut hu).elim
    · rw [hothers u hut] at hu
      rw [hothers v hvt] at hv
      exact h u v lThreadId hu hv

/-- A step keeps the ids distinct exactly if it is no assignment of a count that
was assigned before. -/
theorem distinct_step_iff (inv : Inv s) (h : Distinct s) (hs : step s a = some s') :
    Distinct s' ↔ CountedSince s a := by
  cases step_moves hs with
  | created t ht =>
    exact ⟨fun _ => trivial, fun _ => h.congr fun u => lThreadId_congr .started ht rfl rfl⟩
  | incremented t ht =>
    exact ⟨fun _ => trivial, fun _ => h.congr fun u => lThreadId_congr .counted ht rfl rfl⟩
  | assigned t ht => exact distinct_assign_iff inv h ht rfl
  | finished t n ht =>
    exact ⟨fun _ => trivial, fun _ => h.congr fun u => lThreadId_congr (.finished n) ht rfl rfl⟩
  | joined hfinished =>
    refine ⟨fun _ => trivial, fun _ t u n ht => ?_⟩
    rw [lThreadId_of_pc (inv.absent_of_joined t)] at ht
    cases ht

/-- Every id fits the upper half of a lock flag. -/
def Fits (s : State T) : Prop :=
  ∀ t lThreadId, s.lThreadId t = some lThreadId → lThreadId ≤ 65535

/-- An assignment of a count that fits keeps the ids fitting. -/
theorem fits_step (inv : Inv s) (h : Fits s) (hok : FitsFlag s a) (hs : step s a = some s') :
    Fits s' := by
  intro u lThreadId hu
  cases step_moves hs with
  | created t ht =>
    rw [lThreadId_congr .started ht rfl rfl] at hu
    exact h u lThreadId hu
  | incremented t ht =>
    rw [lThreadId_congr .counted ht rfl rfl] at hu
    exact h u lThreadId hu
  | assigned t ht =>
    rw [lThreadId_update rfl] at hu
    split at hu
    · cases hu
      exact hok
    · exact h u lThreadId hu
  | finished t n ht =>
    rw [lThreadId_congr (.finished n) ht rfl rfl] at hu
    exact h u lThreadId hu
  | joined hfinished =>
    rw [lThreadId_of_pc (inv.absent_of_joined u)] at hu
    cases hu

omit [DecidableEq T] in
/-- Ids that fit name their thread in a flag exactly if they are distinct. -/
theorem ownsAlone_iff (h : Fits s) : OwnsAlone s ↔ Distinct s := by
  have hflag : ∀ t i, s.lThreadId t = some i →
      RWLock.lockThreadId (RWLock.desired (BitVec.ofNat 32 i)) = BitVec.ofNat 32 i := by
    intro t i ht
    have hle := h t i ht
    exact RWLock.lockThreadId_desired (by rw [BitVec.toNat_ofNat]; omega)
  constructor
  · intro howns t u i ht hu
    exact howns t u i i ht hu (hflag t i ht)
  · intro hdistinct t u i j ht hu heq
    have hi := h t i ht
    have hj := h u j hu
    rw [hflag t i ht] at heq
    have hij : i = j := by
      have htoNat := congrArg BitVec.toNat heq
      rw [BitVec.toNat_ofNat, BitVec.toNat_ofNat] at htoNat
      omega
    subst hij
    exact hdistinct t u i ht hu

/-- The id of a thread as the locks compare it. -/
def State.flagId (s : State T) (t : T) : BitVec 32 := BitVec.ofNat 32 ((s.lThreadId t).getD 0)

/-- Threads that were started in such a way that their ids are distinct and fit have the
ids that a read-write lock needs. -/
theorem distinctIds_of_run {as : List (Action T)} (hr : run step init as = some s)
    (hcounted : StepsMeet step CountedSince init as) (hfits : StepsMeet step FitsFlag init as)
    (hall : ∀ t, (s.lThreadId t).isSome = true) : RWLock.DistinctIds s.flagId := by
  have hkept : ∀ (n : State T) (a : Action T) (n' : State T), Inv n ∧ Distinct n ∧ Fits n →
      CountedSince n a ∧ FitsFlag n a → step n a = some n' → Inv n' ∧ Distinct n' ∧ Fits n' := by
    rintro n a n' ⟨inv, hdistinct, hfit⟩ ⟨hcount, hflag⟩ hs
    exact ⟨inv_step inv hs, (distinct_step_iff inv hdistinct hs).mpr hcount,
      fits_step inv hfit hflag hs⟩
  have hinit : Distinct (init : State T) ∧ Fits (init : State T) :=
    ⟨fun _ _ _ ht => (Option.some_ne_none _ ht.symm).elim,
      fun _ _ ht => (Option.some_ne_none _ ht.symm).elim⟩
  obtain ⟨inv, hdistinct, hfit⟩ :=
    run_preserves hkept ⟨inv_init, hinit⟩ (hcounted.and hfits) hr
  have hid : ∀ t, ∃ i, s.lThreadId t = some i ∧ (s.flagId t).toNat = i := by
    intro t
    obtain ⟨i, hi⟩ := Option.isSome_iff_exists.mp (hall t)
    have hle := hfit t i hi
    refine ⟨i, hi, ?_⟩
    rw [State.flagId, hi, Option.getD_some, BitVec.toNat_ofNat]
    omega
  constructor
  · intro t u heq
    obtain ⟨i, hi, hti⟩ := hid t
    obtain ⟨j, hj, huj⟩ := hid u
    rw [heq, huj] at hti
    exact hdistinct t u i hi (hti ▸ hj)
  · intro t
    obtain ⟨i, hi, hti⟩ := hid t
    rw [hti]
    exact (inv.bound t i hi).1
  · intro t
    obtain ⟨i, hi, hti⟩ := hid t
    rw [hti]
    exact hfit t i hi

end Ids

/-- The ids of the threads are distinct throughout a run exactly if each
assignment of the run finds the count incremented since the previous one. While
the counts assigned fit a lock flag, the same condition decides whether some
thread can take itself for the owner of another thread's lock. -/
theorem threadIds_distinct_iff {s : State T} {as : List (Action T)}
    (hr : run step init as = some s) :
    (Always step Distinct init as ↔ StepsMeet step CountedSince init as) ∧
      (StepsMeet step FitsFlag init as →
        (Always step OwnsAlone init as ↔ StepsMeet step CountedSince init as)) := by
  have hdistinct : Distinct (init : State T) := fun t u i ht => by cases ht
  have hfits : Fits (init : State T) := fun t i ht => by cases ht
  constructor
  · exact always_iff_stepsMeet (fun _ _ _ inv _ hs => inv_step inv hs)
      (fun _ _ _ inv h _ hs => distinct_step_iff inv h hs) inv_init hdistinct stepsMeet_true hr
  · intro hpre
    have hinv : ∀ (n : State T) (a : Action T) (n' : State T), Inv n ∧ Fits n → FitsFlag n a →
        step n a = some n' → Inv n' ∧ Fits n' :=
      fun _ _ _ inv hok hs => ⟨inv_step inv.1 hs, fits_step inv.1 inv.2 hok hs⟩
    refine always_iff_stepsMeet hinv (fun n a n' inv h hok hs => ?_) ⟨inv_init, hfits⟩
      ((ownsAlone_iff hfits).mpr hdistinct) hpre hr
    rw [ownsAlone_iff (fits_step inv.1 inv.2 hok hs)]
    exact distinct_step_iff inv.1 ((ownsAlone_iff inv.2).mp h) hs

end System

instance {T : Type*} (s : State T) : DecidablePred (CountedSince s)
  | .assign _ => inferInstanceAs (Decidable (s.countedSince = true))
  | .createThread _ => isTrue trivial
  | .increment _ => isTrue trivial
  | .finish _ => isTrue trivial
  | .joinThreads => isTrue trivial

instance {T : Type*} (s : State T) : DecidablePred (FitsFlag s)
  | .assign _ => inferInstanceAs (Decidable (s.threadCnt ≤ 65535))
  | .createThread _ => isTrue trivial
  | .increment _ => isTrue trivial
  | .finish _ => isTrue trivial
  | .joinThreads => isTrue trivial

/-- Two threads start one after the other. -/
def orderly : List (Action Bool) :=
  [.createThread true, .createThread false, .increment true, .assign true, .increment false,
    .assign false]

/-- Their ids are distinct. -/
theorem threadIds_distinct_orderly :
    Always step Distinct (init : State Bool) orderly ∧
      Always step OwnsAlone (init : State Bool) orderly := by
  have h : (run step (init : State Bool) orderly).isSome = true := by decide
  obtain ⟨s, hs⟩ := Option.isSome_iff_exists.mp h
  have hiff := threadIds_distinct_iff hs
  exact ⟨hiff.1.mpr (by decide), (hiff.2 (by decide)).mpr (by decide)⟩

/-- These are ids a lock can tell apart. -/
theorem distinct_twoIds : RWLock.DistinctIds RWLock.twoIds := by
  have h : ((run step (init : State Bool) orderly).any fun s =>
      ∀ t, (s.lThreadId t).isSome = true ∧ s.flagId t = RWLock.twoIds t) = true := by
    decide
  obtain ⟨s, hr, hview⟩ := (Option.any_eq_true _ _).mp h
  have hids := of_decide_eq_true hview
  have heq : s.flagId = RWLock.twoIds := funext fun t => (hids t).2
  rw [← heq]
  exact distinctIds_of_run hr (by decide) (by decide) fun t => (hids t).1

/-- Two threads increment the count before either reads it. -/
def racing : List (Action Bool) :=
  [.createThread true, .createThread false, .increment true, .increment false, .assign true,
    .assign false]

/-- Both threads get the id 2, and each is the owner of the other's lock. -/
theorem threadIds_collide : ∃ s, run step (init : State Bool) racing = some s ∧
    ¬ Distinct s ∧ ¬ OwnsAlone s := by
  have h : (run step (init : State Bool) racing).map (fun s => (s.lThreadId true,
      s.lThreadId false)) = some (some 2, some 2) := by decide
  obtain ⟨s, hs, heq⟩ := Option.map_eq_some_iff.mp h
  obtain ⟨ht, hf⟩ := Prod.mk.inj heq
  refine ⟨s, hs, fun hdistinct => ?_, fun howns => ?_⟩
  · exact absurd (hdistinct true false 2 ht hf) (by decide)
  · exact absurd (howns true false 2 2 ht hf (by decide)) (by decide)

end RioIocpServer.ThreadManager
