import Mathlib.Data.List.Basic

/-!
# Operations that take effect at one point

Threads call operations of a shared object and get results back. In the history of
what happened, an operation takes effect at one event between its call and its
return, and what it returns is decided there. Such a history is as good as a
sequential one: the operations in the order of their effects, each of them atomic.
An operation that is a program of several accesses is compared with an atomic one
by what it ends with when it runs alone.
-/

namespace RioIocpServer.Linearization

/-- The events of a history. -/
inductive Event (T Op R : Type*) where
  /-- A thread calls an operation. -/
  | invoke (t : T) (op : Op)
  /-- The operation takes effect. -/
  | commit (t : T) (op : Op) (result : R)
  /-- The operation returns. -/
  | respond (t : T) (result : R)
  deriving DecidableEq

/-- Where a thread stands between its events. -/
inductive Stage (Op R : Type*) where
  /-- Outside. -/
  | idle
  /-- In an operation that has no effect yet. -/
  | called (op : Op)
  /-- In an operation that has taken effect. -/
  | answered (result : R)

section Histories

variable {T Op R σ : Type*}

/-- The thread of an event. -/
def Event.thread : Event T Op R → T
  | .invoke t _ => t
  | .commit t _ _ => t
  | .respond t _ => t

/-- The effect of an event, if it is one. -/
def Event.effect : Event T Op R → Option (Op × R)
  | .commit _ op result => some (op, result)
  | _ => none

/-- The effects of a history, in order. -/
def effects (events : List (Event T Op R)) : List (Op × R) := events.filterMap Event.effect

@[simp] theorem effects_invoke (events : List (Event T Op R)) (t : T) (op : Op) :
    effects (events ++ [.invoke t op]) = effects events := by
  simp [effects, Event.effect]

@[simp] theorem effects_commit (events : List (Event T Op R)) (t : T) (op : Op) (result : R) :
    effects (events ++ [.commit t op result]) = effects events ++ [(op, result)] := by
  simp [effects, Event.effect]

@[simp] theorem effects_respond (events : List (Event T Op R)) (t : T) (result : R) :
    effects (events ++ [.respond t result]) = effects events := by
  simp [effects, Event.effect]

/-- A thread calls operations one after the other; each of them takes effect once
before it returns, and returns what was decided there. -/
inductive Stands (t : T) : List (Event T Op R) → Stage Op R → Prop
  | nil : Stands t [] .idle
  | other {events : List (Event T Op R)} {stage : Stage Op R} {event : Event T Op R}
      (h : Stands t events stage) (hne : event.thread ≠ t) : Stands t (events ++ [event]) stage
  | invoke {events : List (Event T Op R)} (h : Stands t events .idle) (op : Op) :
      Stands t (events ++ [.invoke t op]) (.called op)
  | commit {events : List (Event T Op R)} {op : Op} (h : Stands t events (.called op))
      (result : R) : Stands t (events ++ [.commit t op result]) (.answered result)
  | respond {events : List (Event T Op R)} {result : R} (h : Stands t events (.answered result)) :
      Stands t (events ++ [.respond t result]) .idle

/-- The data after operations performed one after the other, each of them returning
what the specification says. -/
inductive Legal (spec : Op → σ → R × σ) (init : σ) : List (Op × R) → σ → Prop
  | nil : Legal spec init [] init
  | concat {ops : List (Op × R)} {data : σ} (h : Legal spec init ops data) (op : Op) :
      Legal spec init (ops ++ [(op, (spec op data).1)]) (spec op data).2

/-- A property of the data every operation keeps holds after legal operations. -/
theorem Legal.induct {spec : Op → σ → R × σ} {init data : σ} {ops : List (Op × R)}
    {Q : List (Op × R) → σ → Prop} (h : Legal spec init ops data) (hinit : Q [] init)
    (hstep : ∀ ops data op, Q ops data → Q (ops ++ [(op, (spec op data).1)]) (spec op data).2) :
    Q ops data := by
  induction h with
  | nil => exact hinit
  | concat _ op ih => exact hstep _ _ op ih

end Histories

/-- Operations that run in accesses to the data, each of them with local state. An
access that is not defined is `none`. -/
structure Program (σ Op L R : Type*) where
  /-- Where an operation begins. -/
  start : Op → L
  /-- One access: the data behind it, and where the operation stands or what it returns. -/
  next : σ → L → Option (σ × (L ⊕ R))

section Programs

variable {σ Op L R : Type*} {program : Program σ Op L R} {data data' m : σ} {l l' : L} {result : R}

/-- An operation that runs alone from a place in its program ends with a result. -/
inductive Ends (program : Program σ Op L R) : σ → L → R → σ → Prop
  | done {data data' : σ} {l : L} {result : R}
      (h : program.next data l = some (data', .inr result)) : Ends program data l result data'
  | step {data m data' : σ} {l l' : L} {result : R}
      (h : program.next data l = some (m, .inl l')) (rest : Ends program m l' result data') :
      Ends program data l result data'

/-- The programs of the operations end with what a specification says, wherever they
run alone. -/
def Implements (program : Program σ Op L R) (spec : Op → σ → R × σ) : Prop :=
  ∀ op data, Ends program data (program.start op) (spec op data).1 (spec op data).2

/-- No access on the way is undefined. -/
theorem Ends.defined (h : Ends program data l result data') :
    ∃ answer, program.next data l = some answer := by
  cases h with
  | done h => exact ⟨_, h⟩
  | step h _ => exact ⟨_, h⟩

/-- After one access the rest ends with the same. -/
theorem Ends.tail (h : Ends program data l result data')
    (hnext : program.next data l = some (m, .inl l')) : Ends program m l' result data' := by
  cases h with
  | done h =>
    rw [h] at hnext
    cases hnext
  | step h rest =>
    rw [h] at hnext
    cases hnext
    exact rest

/-- The last access decides the result. -/
theorem Ends.last {r : R} (h : Ends program data l result data')
    (hnext : program.next data l = some (m, .inr r)) : r = result ∧ m = data' := by
  cases h with
  | done h =>
    rw [h] at hnext
    cases hnext
    exact ⟨rfl, rfl⟩
  | step h _ =>
    rw [h] at hnext
    cases hnext

end Programs

end RioIocpServer.Linearization
