import Mathlib.Algebra.Group.Nat.Defs
import RioIocpServer.TransitionSystem

/-!
# Deadlines of the worker threads

A worker dispatches completions and then executes queues of jobs, until `LEndTickCount`.
`JobQueue::Execute` tests the deadline with a clock of 64 bits; the loops of
`ServerProxy::Start` store the same clock in an `ULONG` of 32 bits first. Each reading of
`GetTickCount64` is part of the action that makes it and never less than the one before.
The fields `late` and `gaveUp` record history and are read by no step.
-/

namespace RioIocpServer.WorkerDeadline

open TransitionSystem

/-- `ServerType`. -/
inductive ServerType where
  | iocpServer
  | rioServer
  deriving DecidableEq

/-- `WORKER_TICK` and `RIO_WORKER_TICK`. -/
def ServerType.workerTick : ServerType → UInt64
  | .iocpServer => 64
  | .rioServer => 90

/-- The test of the job loops in `ServerProxy::Start`: `now` is an `ULONG`. -/
def leaves (tick endTickCount : UInt64) : Bool :=
  let now : UInt32 := tick.toUInt32
  now.toUInt64 > endTickCount

/-- The test of `JobQueue::Execute`: `now` is an `ULONGLONG`. -/
def givesUp (tick endTickCount : UInt64) : Bool := tick ≥ endTickCount

/-- Where a worker stands. -/
inductive Pc where
  /-- At `LEndTickCount = ::GetTickCount64() + ...`. -/
  | arm
  /-- In `Dispatch` and whatever else is not the job loop. -/
  | dispatch
  /-- At the test whether `LEndTickCount` is 0, in front of the job loop of a RIO server. -/
  | enter
  /-- At the test of the job loop. -/
  | test
  /-- At `gGlobalQueue->Pop()`. -/
  | pop
  /-- In `Execute`. -/
  | execute
  deriving DecidableEq

/-- The job loop. -/
def Pc.InLoop (pc : Pc) : Prop := pc = .test ∨ pc = .pop ∨ pc = .execute

/-- A worker thread. -/
structure Worker where
  /-- Where it stands. -/
  pc : Pc
  /-- `LEndTickCount`. -/
  endTickCount : UInt64
  /-- The last answer of `GetTickCount64`. -/
  clock : UInt64
  /-- History: the job loop has gone on beyond `LEndTickCount`. -/
  late : Bool
  /-- History: `Execute` has given a queue up beyond `LEndTickCount` since the job loop was
  entered. -/
  gaveUp : Bool

/-- The steps. -/
inductive Action where
  /-- The assignment of `LEndTickCount`. -/
  | arm (tick : UInt64)
  /-- The end of `Dispatch`. -/
  | dispatch
  /-- The test whether `LEndTickCount` is 0, and the assignment if it is. -/
  | enter (tick : UInt64)
  /-- The test of the job loop. -/
  | test (tick : UInt64)
  /-- `gGlobalQueue->Pop()`, and whether there was a queue. -/
  | pop (found : Bool)
  /-- `Execute` has executed all jobs of the queue and returns. -/
  | jobsDone
  /-- The test of `Execute` behind a batch of jobs. -/
  | deadline (tick : UInt64)

/-- A worker of a server that has just been started, with `LEndTickCount` 0. -/
def init (server : ServerType) (clock : UInt64) : Worker where
  pc := match server with
    | .iocpServer => .arm
    | .rioServer => .dispatch
  endTickCount := 0
  clock := clock
  late := false
  gaveUp := false

/-- `LEndTickCount` is set. -/
def Worker.arm (s : Worker) (server : ServerType) (tick : UInt64) (pc : Pc) : Worker :=
  { s with pc := pc, endTickCount := tick + server.workerTick, clock := tick }

/-- The job loop is left. -/
def Worker.leave (s : Worker) : Worker := { s with pc := .arm, gaveUp := false }

/-- One step. -/
def step (server : ServerType) (s : Worker) : Action → Option Worker
  | .arm tick =>
    if s.pc = .arm ∧ s.clock ≤ tick then some (s.arm server tick .dispatch) else none
  | .dispatch =>
    if s.pc = .dispatch then
      some { s with
        pc := match server with
          | .iocpServer => .test
          | .rioServer => .enter }
    else none
  | .enter tick =>
    if s.pc = .enter then
      if s.endTickCount = 0 then
        if s.clock ≤ tick then some (s.arm server tick .test) else none
      else some { s with pc := .test }
    else none
  | .test tick =>
    if s.pc = .test ∧ s.clock ≤ tick then
      if leaves tick s.endTickCount = true then some { s.leave with clock := tick }
      else some { s with pc := .pop, clock := tick, late := s.late || s.endTickCount < tick }
    else none
  | .pop found =>
    if s.pc = .pop then some (if found = true then { s with pc := .execute } else s.leave)
    else none
  | .jobsDone => if s.pc = .execute then some { s with pc := .test } else none
  | .deadline tick =>
    if s.pc = .execute ∧ s.clock ≤ tick then
      if givesUp tick s.endTickCount = true then
        some { s with
          pc := .test
          clock := tick
          gaveUp := s.gaveUp || s.endTickCount < tick }
      else some { s with clock := tick }
    else none

/-- What is promised of every state: the job loop has never gone on beyond
`LEndTickCount`, and a worker that has given a queue up beyond it comes to no other queue
before it leaves the loop. -/
structure LeavesOnTime (s : Worker) : Prop where
  /-- No test has gone on. -/
  not_late : s.late = false
  /-- No queue is popped or executed behind one that was given up. -/
  gaveUp_test : s.gaveUp = true → s.pc = .test

/-- A tick whose low half tells that the deadline has passed, if it has. -/
def Truthful (endTickCount tick : UInt64) : Prop :=
  tick.toNat < 2 ^ 32 ∨ tick ≤ endTickCount ∨ endTickCount.toNat < tick.toNat % 2 ^ 32

/-- The job loop reads such ticks only. -/
def ReadsTruthful (s : Worker) : Action → Prop
  | .test tick => Truthful s.endTickCount tick
  | _ => True

instance (endTickCount tick : UInt64) : Decidable (Truthful endTickCount tick) :=
  inferInstanceAs (Decidable (_ ∨ _))

instance (s : Worker) : ∀ a, Decidable (ReadsTruthful s a)
  | .test _ => inferInstanceAs (Decidable (Truthful _ _))
  | .arm _ => isTrue trivial
  | .dispatch => isTrue trivial
  | .enter _ => isTrue trivial
  | .pop _ => isTrue trivial
  | .jobsDone => isTrue trivial
  | .deadline _ => isTrue trivial

section Tests

variable {tick endTickCount : UInt64}

/-- The test compares the remainder modulo 2^32. -/
theorem leaves_iff :
    leaves tick endTickCount = true ↔ endTickCount.toNat < tick.toNat % 2 ^ 32 := by
  simp only [leaves, gt_iff_lt, decide_eq_true_eq, UInt64.lt_iff_toNat_lt, UInt32.toNat_toUInt64,
    UInt64.toNat_toUInt32]

/-- The loop leaves whenever the deadline has passed, exactly for these ticks. -/
theorem truthful_iff : Truthful endTickCount tick ↔
    (endTickCount < tick → leaves tick endTickCount = true) := by
  rw [leaves_iff, Truthful, UInt64.le_iff_toNat_le, UInt64.lt_iff_toNat_lt]
  by_cases hsmall : tick.toNat < 2 ^ 32
  · rw [Nat.mod_eq_of_lt hsmall]
    exact iff_of_true (.inl hsmall) id
  · constructor
    · rintro (h | h | h) hlt
      · exact absurd h hsmall
      · omega
      · exact h
    · intro h
      by_cases hlt : endTickCount.toNat < tick.toNat
      · exact .inr (.inr (h hlt))
      · exact .inr (.inl (by omega))

/-- From the end of the first 2^32 milliseconds on no deadline makes the loop leave. -/
theorem not_leaves (h : 2 ^ 32 ≤ endTickCount.toNat + 1) : leaves tick endTickCount = false := by
  by_contra hleaves
  rw [Bool.not_eq_false, leaves_iff] at hleaves
  have hmod := Nat.mod_lt tick.toNat (by decide : 0 < 2 ^ 32)
  omega

end Tests

section Runs

variable {server : ServerType} {s s' : Worker} {a : Action}

/-- A queue was given up inside the job loop, beyond a deadline that has not moved. -/
def Inv (s : Worker) : Prop := s.gaveUp = true → s.endTickCount < s.clock ∧ s.pc.InLoop

/-- At the start no queue was given up. -/
theorem inv_init (server : ServerType) (clock : UInt64) : Inv (init server clock) := nofun

/-- Nothing is said of a worker that has given no queue up. -/
theorem Inv.of_not_gaveUp (h : s.gaveUp = false) : Inv s := fun hgave => nomatch h.symm.trans hgave

/-- Outside the job loop no queue has been given up. -/
theorem Inv.not_gaveUp (inv : Inv s) {pc : Pc} (hpc : s.pc = pc) (hout : ¬ pc.InLoop) :
    s.gaveUp = false := by
  by_contra hgave
  exact hout (hpc ▸ (inv (by simpa using hgave)).2)

/-- One step keeps the invariant. -/
theorem inv_step (inv : Inv s) (h : step server s a = some s') : Inv s' := by
  cases a with
  | arm tick =>
    simp only [step] at h
    split at h <;> cases h
    rename_i hguard
    exact .of_not_gaveUp (inv.not_gaveUp hguard.1 (by simp [Pc.InLoop]))
  | dispatch =>
    simp only [step] at h
    split at h <;> cases h
    rename_i hpc
    exact .of_not_gaveUp (inv.not_gaveUp hpc (by simp [Pc.InLoop]))
  | enter tick =>
    simp only [step] at h
    split at h
    · rename_i hpc
      have hgave := inv.not_gaveUp hpc (by simp [Pc.InLoop])
      split at h
      · split at h <;> cases h
        exact .of_not_gaveUp hgave
      · cases h
        exact .of_not_gaveUp hgave
    · cases h
  | test tick =>
    simp only [step] at h
    split at h
    · rename_i hguard
      split at h <;> cases h
      · exact nofun
      · exact fun hgave => ⟨UInt64.lt_of_lt_of_le (inv hgave).1 hguard.2, .inr (.inl rfl)⟩
    · cases h
  | pop found =>
    simp only [step] at h
    split at h <;> cases h
    split
    · exact fun hgave => ⟨(inv hgave).1, .inr (.inr rfl)⟩
    · exact nofun
  | jobsDone =>
    simp only [step] at h
    split at h <;> cases h
    exact fun hgave => ⟨(inv hgave).1, .inl rfl⟩
  | deadline tick =>
    simp only [step] at h
    split at h
    · rename_i hguard
      split at h <;> cases h
      · intro hgave
        refine ⟨?_, .inl rfl⟩
        rcases Bool.or_eq_true_iff.mp hgave with hold | hnew
        · exact UInt64.lt_of_lt_of_le (inv hold).1 hguard.2
        · exact of_decide_eq_true hnew
      · exact fun hgave => ⟨UInt64.lt_of_lt_of_le (inv hgave).1 hguard.2, .inr (.inr hguard.1)⟩
    · cases h

/-- A worker that is not at the test of the job loop has given no queue up. -/
theorem LeavesOnTime.not_gaveUp (promised : LeavesOnTime s) (h : s.pc ≠ .test) :
    s.gaveUp = false := by
  by_contra hgave
  exact h (promised.gaveUp_test (by simpa using hgave))

/-- A test of the job loop keeps the promise exactly if its tick is truthful. -/
theorem leavesOnTime_test (inv : Inv s) (promised : LeavesOnTime s) {tick : UInt64}
    (h : step server s (.test tick) = some s') :
    LeavesOnTime s' ↔ Truthful s.endTickCount tick := by
  simp only [step] at h
  split at h
  · rename_i hguard
    rw [truthful_iff]
    split at h <;> cases h
    · rename_i hleaves
      exact ⟨fun _ _ => hleaves, fun _ => ⟨promised.not_late, nofun⟩⟩
    · rename_i hstays
      constructor
      · intro promised' hlt
        have hlate := promised'.not_late
        rw [Bool.or_eq_false_iff] at hlate
        exact absurd hlt (of_decide_eq_false hlate.2)
      · intro htruthful
        have hle : ¬ s.endTickCount < tick := fun hlt => hstays (htruthful hlt)
        refine ⟨Bool.or_eq_false_iff.mpr ⟨promised.not_late, decide_eq_false hle⟩, ?_⟩
        exact fun hgave => absurd (UInt64.lt_of_lt_of_le (inv hgave).1 hguard.2) hle
  · cases h

/-- Every other step keeps it. -/
theorem leavesOnTime_other (promised : LeavesOnTime s) (ha : ∀ tick, a ≠ .test tick)
    (h : step server s a = some s') : LeavesOnTime s' := by
  have hgone : ∀ {pc : Pc}, s.pc = pc → pc ≠ .test → ∀ {p : Prop}, s.gaveUp = true → p := by
    rintro _ rfl hpc p hgave
    cases (promised.not_gaveUp hpc).symm.trans hgave
  cases a with
  | test tick => exact absurd rfl (ha tick)
  | arm tick =>
    simp only [step] at h
    split at h <;> cases h
    rename_i hguard
    exact ⟨promised.not_late, hgone hguard.1 (by decide)⟩
  | dispatch =>
    simp only [step] at h
    split at h <;> cases h
    rename_i hpc
    exact ⟨promised.not_late, hgone hpc (by decide)⟩
  | enter tick =>
    simp only [step] at h
    split at h
    · split at h
      · split at h <;> cases h
        exact ⟨promised.not_late, fun _ => rfl⟩
      · cases h
        exact ⟨promised.not_late, fun _ => rfl⟩
    · cases h
  | pop found =>
    simp only [step] at h
    split at h <;> cases h
    rename_i hpc
    split
    · exact ⟨promised.not_late, hgone hpc (by decide)⟩
    · exact ⟨promised.not_late, nofun⟩
  | jobsDone =>
    simp only [step] at h
    split at h <;> cases h
    exact ⟨promised.not_late, fun _ => rfl⟩
  | deadline tick =>
    simp only [step] at h
    split at h
    · rename_i hguard
      split at h <;> cases h
      · exact ⟨promised.not_late, fun _ => rfl⟩
      · exact ⟨promised.not_late, hgone hguard.1 (by decide)⟩
    · cases h

/-- A step keeps the promise exactly if the job loop reads a truthful tick in it. -/
theorem leavesOnTime_step (inv : Inv s) (promised : LeavesOnTime s)
    (h : step server s a = some s') : LeavesOnTime s' ↔ ReadsTruthful s a := by
  cases a with
  | test tick => exact leavesOnTime_test inv promised h
  | _ => exact iff_of_true (leavesOnTime_other promised (by simp) h) trivial

end Runs

/-- In every run of a worker of either server, from every start of the clock on, the job
loop leaves for I/O whenever the deadline has passed, and no queue is executed behind one
that was given up beyond the deadline, exactly if every tick that the tests of the job loop
read is truthful. -/
theorem leavesOnTime_iff {server : ServerType} {clock : UInt64} {actions : List Action}
    {s : Worker} (hr : run (step server) (init server clock) actions = some s) :
    Always (step server) LeavesOnTime (init server clock) actions ↔
      StepsMeet (step server) ReadsTruthful (init server clock) actions :=
  always_iff_stepsMeet (fun _ _ _ inv _ h => inv_step inv h)
    (fun _ _ _ inv promised _ h => leavesOnTime_step inv promised h) (inv_init server clock)
    ⟨rfl, nofun⟩ stepsMeet_true hr

/-- A worker executes a queue, gives it up behind its deadline and leaves the loop. -/
def giveUp (start : UInt64) : List Action :=
  [.arm start, .dispatch, .test start, .pop true, .deadline (start + 65), .test (start + 65)]

/-- In the first days of uptime all is as promised. -/
theorem giveUp_leaves : ∃ s, run (step .iocpServer) (init .iocpServer 1000) (giveUp 1000) = some s ∧
    Always (step .iocpServer) LeavesOnTime (init .iocpServer 1000) (giveUp 1000) := by
  have h : (run (step .iocpServer) (init .iocpServer 1000) (giveUp 1000)).isSome = true := by
    decide
  obtain ⟨s, hr⟩ := Option.isSome_iff_exists.mp h
  exact ⟨s, hr, (leavesOnTime_iff hr).mpr (by decide)⟩

/-- After 2^32 milliseconds the worker goes on to the next queue. -/
theorem giveUp_stays : ∃ s, run (step .iocpServer) (init .iocpServer 4294967296)
    (giveUp 4294967296) = some s ∧ s.pc = .pop ∧ ¬ LeavesOnTime s := by
  have h : (run (step .iocpServer) (init .iocpServer 4294967296) (giveUp 4294967296)).any
      (fun s => s.pc = .pop ∧ s.late = true) = true := by
    decide
  obtain ⟨s, hr, hview⟩ := (Option.any_eq_true _ _).mp h
  obtain ⟨hpc, hlate⟩ := of_decide_eq_true hview
  refine ⟨s, hr, hpc, fun promised => ?_⟩
  cases promised.not_late.symm.trans hlate

end RioIocpServer.WorkerDeadline
