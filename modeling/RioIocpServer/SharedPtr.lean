import Mathlib.Data.Nat.Notation
import Mathlib.Logic.Function.Basic

/-!
# Objects with a use count

An object is made with one reference, a reference can be copied and released, and the
object is destroyed when its use count comes down to nothing. What refers to an object is
left to whoever uses the objects: where the references are counted right, the objects that
are there are those with references.
-/

namespace RioIocpServer.SharedPtr

variable {O : Type*}

/-- Objects, or the places of objects, with their use counts. -/
structure Objects (O : Type*) where
  /-- The use count. -/
  useCount : O → ℕ
  /-- The object was made and not destroyed. -/
  alive : O → Bool

namespace Objects

/-- No object was made. -/
def init : Objects O := ⟨fun _ => 0, fun _ => false⟩

variable [DecidableEq O]

/-- An object is made, with a first reference. -/
def make (objects : Objects O) (o : O) : Objects O where
  useCount := Function.update objects.useCount o 1
  alive := Function.update objects.alive o true

/-- A reference is copied. -/
def copy (objects : Objects O) (o : O) : Objects O :=
  { objects with useCount := Function.update objects.useCount o (objects.useCount o + 1) }

/-- A reference is released, and the object destroyed if it was the last one. -/
def release (objects : Objects O) (o : O) : Objects O where
  useCount := Function.update objects.useCount o (objects.useCount o - 1)
  alive :=
    if objects.useCount o - 1 = 0 then Function.update objects.alive o false else objects.alive

end Objects

/-- The use counts count the references, and objects with references are there. -/
structure Counted (objects : Objects O) (refs : O → ℕ) : Prop where
  /-- The use count is the number of references. -/
  useCount_eq : ∀ o, objects.useCount o = refs o
  /-- An object is there exactly while something refers to it. -/
  alive_iff : ∀ o, objects.alive o = true ↔ 0 < refs o

variable {objects : Objects O} {refs refs' : O → ℕ} {o : O}

/-- Without objects there is nothing to count. -/
theorem counted_init : Counted (Objects.init : Objects O) fun _ => 0 where
  useCount_eq _ := rfl
  alive_iff _ := by simp [Objects.init]

/-- References that change hands are still references. -/
theorem Counted.same (h : Counted objects refs) (hrefs : ∀ p, refs' p = refs p) :
    Counted objects refs' := by
  have heq : refs' = refs := funext hrefs
  rwa [heq]

/-- An object with a reference is there. -/
theorem Counted.alive (h : Counted objects refs) (ho : 0 < refs o) : objects.alive o = true :=
  (h.alive_iff o).mpr ho

variable [DecidableEq O]

/-- A new object has one reference. -/
theorem Counted.make (h : Counted objects refs) (ho : objects.alive o = false)
    (hrefs : ∀ p, refs' p = refs p + if p = o then 1 else 0) :
    Counted (objects.make o) refs' := by
  have hzero : refs o = 0 := by
    have hnot := (h.alive_iff o).not
    rw [ho] at hnot
    have hle := hnot.mp (by decide)
    omega
  constructor <;> intro p <;> rw [hrefs p] <;> by_cases hp : p = o
  · subst hp
    simp [Objects.make, hzero]
  · simp [Objects.make, hp, h.useCount_eq]
  · subst hp
    simp [Objects.make]
  · simp [Objects.make, hp, h.alive_iff]

/-- A copy is one reference more. -/
theorem Counted.copy (h : Counted objects refs) (ho : objects.alive o = true)
    (hrefs : ∀ p, refs' p = refs p + if p = o then 1 else 0) :
    Counted (objects.copy o) refs' := by
  have hpos := (h.alive_iff o).mp ho
  constructor <;> intro p <;> rw [hrefs p] <;> by_cases hp : p = o
  · subst hp
    simp [Objects.copy, h.useCount_eq]
  · simp [Objects.copy, hp, h.useCount_eq]
  · subst hp
    simp [Objects.copy, ho]
  · simp [Objects.copy, hp, h.alive_iff]

/-- A release is one less. -/
theorem Counted.release (h : Counted objects refs)
    (hrefs : ∀ p, refs p = refs' p + if p = o then 1 else 0) :
    Counted (objects.release o) refs' := by
  have hone : refs o = refs' o + 1 := by simpa using hrefs o
  constructor <;> intro p <;> by_cases hp : p = o
  · subst hp
    simp [Objects.release, h.useCount_eq, hone]
  · have hsame := hrefs p
    rw [if_neg hp] at hsame
    simp [Objects.release, hp, h.useCount_eq, hsame]
  · subst hp
    by_cases hlast : refs' p = 0
    · simp [Objects.release, h.useCount_eq, hone, hlast]
    · have halive := (h.alive_iff p).mpr (by omega)
      simp [Objects.release, h.useCount_eq, hone, hlast, halive, Nat.pos_of_ne_zero hlast]
  · have hsame := hrefs p
    rw [if_neg hp, Nat.add_zero] at hsame
    have halive := h.alive_iff p
    rw [hsame] at halive
    rw [← halive, Objects.release]
    dsimp only
    split
    · rw [Function.update_of_ne hp]
    · rfl

end RioIocpServer.SharedPtr
