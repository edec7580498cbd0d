import Mathlib.Data.List.Pairwise
import Mathlib.Data.BitVec
import Mathlib.Data.Nat.Log
import Mathlib.Tactic.IntervalCases

/-!
# A wire format of tagged fields

Numbers are written seven bits a byte, the low bits first, and a field that differs
from its default is written behind a tag with its number and its wire type. A type of
fields knows how its values are written, read back and measured, and a message is its
fields: it is written field by field and read by a loop over tags. A message written so
is read back as it was, whatever is done with fields it does not have, and its size is
known before it is written. A message is a type of fields itself.
-/

namespace RioIocpServer.WireFormat

section Varints

/-- Seven bits a byte, each byte but the last marked; at most `k + 1` bytes. -/
def writeVarint : ℕ → ℕ → List UInt8
  | 0, value => [UInt8.ofNat value]
  | k + 1, value =>
    if value < 128 then [UInt8.ofNat value]
    else UInt8.ofNat (value % 128 + 128) :: writeVarint k (value / 128)

/-- The number at the head of some bytes, at most `k` bytes long, and what follows it. -/
def readVarint : ℕ → List UInt8 → Option (ℕ × List UInt8)
  | 0, _ => none
  | _ + 1, [] => none
  | k + 1, byte :: rest =>
    if byte.toNat < 128 then some (byte.toNat, rest)
    else (readVarint k rest).map fun r => (byte.toNat - 128 + 128 * r.1, r.2)

/-- The bytes a number takes, from the position of its highest bit. -/
def varintSize (value : ℕ) : ℕ := (Nat.log2 (value ||| 1) * 9 + 73) / 64

/-- A number that fits is read back. -/
theorem readVarint_writeVarint {k value : ℕ} (rest : List UInt8) (h : value < 128 ^ (k + 1)) :
    readVarint (k + 1) (writeVarint k value ++ rest) = some (value, rest) := by
  induction k generalizing value with
  | zero =>
    have hbyte : (UInt8.ofNat value).toNat = value := UInt8.toNat_ofNat_of_lt' (by rw [UInt8.size]; omega)
    show (if (UInt8.ofNat value).toNat < 128 then some ((UInt8.ofNat value).toNat, rest)
      else none) = _
    rw [hbyte, if_pos (by omega)]
  | succ k ih =>
    rw [writeVarint]
    split
    · rename_i hlast
      have hbyte : (UInt8.ofNat value).toNat = value :=
        UInt8.toNat_ofNat_of_lt' (by rw [UInt8.size]; omega)
      rw [List.cons_append, readVarint, hbyte, if_pos hlast, List.nil_append]
    · have hbyte : (UInt8.ofNat (value % 128 + 128)).toNat = value % 128 + 128 :=
        UInt8.toNat_ofNat_of_lt' (by rw [UInt8.size]; omega)
      have hnext : value / 128 < 128 ^ (k + 1) :=
        (Nat.div_lt_iff_lt_mul (by decide)).mpr (by rwa [← pow_succ])
      rw [List.cons_append, readVarint, hbyte, if_neg (by omega), ih hnext]
      simp only [Option.map_some, Nat.add_sub_cancel]
      rw [Nat.mod_add_div]

/-- What follows a number is shorter. -/
theorem length_of_readVarint {k value : ℕ} {bytes rest : List UInt8}
    (h : readVarint k bytes = some (value, rest)) : rest.length < bytes.length := by
  induction k generalizing value bytes with
  | zero => cases h
  | succ k ih =>
    cases bytes with
    | nil => cases h
    | cons byte tail =>
      rw [readVarint] at h
      split at h
      · cases h
        exact Nat.lt_succ_self _
      · obtain ⟨⟨value', rest'⟩, hread, heq⟩ := Option.map_eq_some_iff.mp h
        cases heq
        exact (ih hread).trans (Nat.lt_succ_self _)

/-- A number takes at most the bytes allowed. -/
theorem length_writeVarint_le (k value : ℕ) : (writeVarint k value).length ≤ k + 1 := by
  induction k generalizing value with
  | zero => exact le_rfl
  | succ k ih =>
    rw [writeVarint]
    split
    · exact Nat.succ_le_succ (Nat.zero_le _)
    · exact Nat.succ_le_succ (ih _)

/-- The lowest bit does not move the highest one. -/
theorem log2_or_one {value : ℕ} (h : 2 ≤ value) : Nat.log2 (value ||| 1) = Nat.log2 value := by
  have hor : 2 ≤ value ||| 1 := h.trans Nat.left_le_or
  have hhalf : (value ||| 1) / 2 = value / 2 := by
    rw [Nat.or_div_two]
    exact Nat.or_zero _
  rw [Nat.log2_def, if_pos hor, Nat.log2_def value, if_pos h, hhalf]

/-- Seven bits less. -/
theorem log2_div {value : ℕ} (h : 128 ≤ value) : Nat.log2 value = Nat.log2 (value / 128) + 7 := by
  have hne : value ≠ 0 := by omega
  have hdiv : value / 128 ≠ 0 := by omega
  have hlow : 2 ^ (Nat.log2 (value / 128)) ≤ value / 128 := Nat.log2_self_le hdiv
  have hhigh : value / 128 < 2 ^ (Nat.log2 (value / 128) + 1) := Nat.lt_log2_self
  refine (Nat.log2_eq_iff hne).mpr ⟨?_, ?_⟩
  · rw [pow_add]
    omega
  · rw [pow_add] at hhigh
    rw [show Nat.log2 (value / 128) + 7 + 1 = Nat.log2 (value / 128) + 8 from rfl, pow_add]
    omega

/-- The bytes written. -/
theorem length_writeVarint {k value : ℕ} (h : value < 128 ^ (k + 1)) :
    (writeVarint k value).length = Nat.log2 (value ||| 1) / 7 + 1 := by
  have hsmall : ∀ n : ℕ, n < 128 → Nat.log2 (n ||| 1) / 7 + 1 = 1 := by decide +kernel
  induction k generalizing value with
  | zero =>
    rw [hsmall value (by omega)]
    rfl
  | succ k ih =>
    rw [writeVarint]
    split
    · rename_i hlast
      rw [hsmall value hlast]
      rfl
    · rename_i hmore
      have hnext : value / 128 < 128 ^ (k + 1) :=
        (Nat.div_lt_iff_lt_mul (by decide)).mpr (by rwa [← pow_succ])
      have hlog : Nat.log2 (value ||| 1) = Nat.log2 (value / 128) + 7 := by
        rw [log2_or_one (by omega), log2_div (by omega)]
      have hrest : Nat.log2 (value / 128 ||| 1) = Nat.log2 (value / 128) := by
        by_cases hone : value / 128 = 1
        · rw [hone]
          rfl
        · exact log2_or_one (by omega)
      rw [List.length_cons, ih hnext, hlog, hrest]
      omega

/-- The size of a number of 64 bits is the number of bytes written. -/
theorem varintSize_eq {value : ℕ} (h : value < 2 ^ 64) :
    varintSize value = (writeVarint 9 value).length := by
  have hpos : value ||| 1 ≠ 0 := Nat.ne_of_gt Nat.right_le_or
  have hlog : Nat.log2 (value ||| 1) < 64 :=
    (Nat.log2_lt hpos).mpr (Nat.or_lt_two_pow h (by decide))
  have hsizes : ∀ n : ℕ, n < 64 → (n * 9 + 73) / 64 = n / 7 + 1 := by decide +kernel
  rw [varintSize, hsizes _ hlog, length_writeVarint (h.trans (by decide))]

end Varints

section Fixed

/-- A number in `k` bytes, the low byte first. -/
def writeFixed : ℕ → ℕ → List UInt8
  | 0, _ => []
  | k + 1, value => UInt8.ofNat value :: writeFixed k (value / 256)

/-- The number in the first `k` bytes, and what follows. -/
def readFixed : ℕ → List UInt8 → Option (ℕ × List UInt8)
  | 0, bytes => some (0, bytes)
  | _ + 1, [] => none
  | k + 1, byte :: rest =>
    (readFixed k rest).map fun r => (byte.toNat + 256 * r.1, r.2)

theorem length_writeFixed (k value : ℕ) : (writeFixed k value).length = k := by
  induction k generalizing value with
  | zero => rfl
  | succ k ih => rw [writeFixed, List.length_cons, ih]

/-- A number that fits is read back. -/
theorem readFixed_writeFixed {k value : ℕ} (rest : List UInt8) (h : value < 256 ^ k) :
    readFixed k (writeFixed k value ++ rest) = some (value, rest) := by
  induction k generalizing value with
  | zero =>
    obtain rfl : value = 0 := by omega
    rfl
  | succ k ih =>
    have hnext : value / 256 < 256 ^ k :=
      (Nat.div_lt_iff_lt_mul (by decide)).mpr (by rwa [← pow_succ])
    rw [writeFixed, List.cons_append, readFixed, ih hnext]
    simp only [Option.map_some, UInt8.toNat_ofNat', Nat.reducePow, Nat.mod_add_div]

/-- What follows is not longer. -/
theorem length_of_readFixed {k value : ℕ} {bytes rest : List UInt8}
    (h : readFixed k bytes = some (value, rest)) : rest.length ≤ bytes.length := by
  induction k generalizing value bytes with
  | zero =>
    cases h
    exact le_rfl
  | succ k ih =>
    cases bytes with
    | nil => cases h
    | cons byte tail =>
      obtain ⟨⟨value', rest'⟩, hread, heq⟩ := Option.map_eq_some_iff.mp h
      cases heq
      exact (ih hread).trans (Nat.le_succ _)

end Fixed

section Lengths

/-- Lengths below are accepted by readers. -/
def lengthLimit : ℕ := 2 ^ 31 - 16

/-- Some bytes behind their number. -/
def writeDelimited (body : List UInt8) : List UInt8 := writeVarint 4 body.length ++ body

/-- As many bytes as the number before them says, and what follows. -/
def readDelimited (bytes : List UInt8) : Option (List UInt8 × List UInt8) :=
  (readVarint 5 bytes).bind fun r =>
    if r.1 < lengthLimit ∧ r.1 ≤ r.2.length then some (r.2.take r.1, r.2.drop r.1) else none

/-- The bytes that `writeDelimited` takes. -/
def delimitedSize (length : ℕ) : ℕ := varintSize length + length

variable {body bytes rest : List UInt8}

/-- The number takes bytes of its own. -/
theorem length_le_writeDelimited (body : List UInt8) :
    body.length ≤ (writeDelimited body).length := by
  rw [writeDelimited, List.length_append]
  exact Nat.le_add_left _ _

/-- Bytes that are not too many are read back. -/
theorem readDelimited_writeDelimited (rest : List UInt8) (h : body.length < lengthLimit) :
    readDelimited (writeDelimited body ++ rest) = some (body, rest) := by
  have hfits : body.length < 128 ^ (4 + 1) := h.trans (by decide)
  rw [readDelimited, writeDelimited, List.append_assoc, readVarint_writeVarint _ hfits]
  have hroom : body.length ≤ (body ++ rest).length := by
    rw [List.length_append]
    exact Nat.le_add_right _ _
  simp only [Option.bind_some]
  rw [if_pos ⟨h, hroom⟩, List.take_left, List.drop_left]

/-- What follows is not longer. -/
theorem length_of_readDelimited (h : readDelimited bytes = some (body, rest)) :
    rest.length ≤ bytes.length := by
  obtain ⟨⟨n, tail⟩, hread, hrest⟩ := Option.bind_eq_some_iff.mp h
  split at hrest
  · cases hrest
    rw [List.length_drop]
    exact (Nat.sub_le _ _).trans (length_of_readVarint hread).le
  · cases hrest

/-- A number of up to five bytes as one of up to ten. -/
theorem writeVarint_four {value : ℕ} (h : value < 2 ^ 32) :
    (writeVarint 4 value).length = (writeVarint 9 value).length := by
  rw [length_writeVarint (h.trans (by decide)), length_writeVarint (h.trans (by decide))]

/-- The size of some bytes behind their number. -/
theorem delimitedSize_eq (h : body.length < lengthLimit) :
    delimitedSize body.length = (writeDelimited body).length := by
  have hlt : body.length < 2 ^ 32 := h.trans (by decide)
  rw [delimitedSize, writeDelimited, List.length_append, varintSize_eq (hlt.trans (by decide)),
    writeVarint_four hlt]

end Lengths

/-- How the values of a field are encoded. -/
inductive WireType where
  | varint
  | fixed64
  | lengthDelimited
  | startGroup
  | endGroup
  | fixed32

/-- The number of a wire type. -/
def WireType.value (type : WireType) : ℕ := type.ctorIdx

/-- A type of fields. -/
structure Codec (V : Type) where
  /-- Its wire type. -/
  wireType : WireType
  /-- The value of a field that is not written. -/
  default : V
  /-- The value is not written. -/
  isDefault : V → Bool
  /-- The bytes behind the tag. -/
  write : V → List UInt8
  /-- Their number. -/
  size : V → ℕ
  /-- The value read behind the tag, and what follows; a field that is read again may
  depend on the value before. -/
  read : V → List UInt8 → Option (V × List UInt8)
  /-- Only the default is not written. -/
  isDefault_iff : ∀ v, isDefault v = true ↔ v = default
  /-- The size is known before the value is written. -/
  size_eq : ∀ v, (write v).length < lengthLimit → size v = (write v).length
  /-- A value that is written is read back. -/
  read_write : ∀ v rest, isDefault v = false → (write v).length < lengthLimit →
    read default (write v ++ rest) = some (v, rest)
  /-- What follows is not longer. -/
  length_of_read : ∀ old bytes v rest, read old bytes = some (v, rest) →
    rest.length ≤ bytes.length

section Scalars

/-- A number of up to ten bytes. -/
theorem length_of_map_readVarint {V : Type} {f : ℕ → V} {bytes rest : List UInt8} {v : V}
    (h : (readVarint 10 bytes).map (fun r => (f r.1, r.2)) = some (v, rest)) :
    rest.length ≤ bytes.length := by
  obtain ⟨⟨n, tail⟩, hread, heq⟩ := Option.map_eq_some_iff.mp h
  cases heq
  exact (length_of_readVarint hread).le

/-- Numbers of 64 bits fit ten bytes. -/
theorem toNat_lt_pow (v : BitVec 64) : v.toNat < 128 ^ (9 + 1) := v.isLt.trans (by decide)

/-- `int32`: a number of 64 bits with the sign extended. -/
def int32 : Codec (BitVec 32) where
  wireType := .varint
  default := 0
  isDefault v := v = 0
  write v := writeVarint 9 (v.signExtend 64).toNat
  size v := varintSize (v.signExtend 64).toNat
  read _ bytes := (readVarint 10 bytes).map fun r => (BitVec.ofNat 32 r.1, r.2)
  isDefault_iff _ := decide_eq_true_iff
  size_eq v _ := varintSize_eq (v.signExtend 64).isLt
  read_write v rest _ _ := by
    have hback : BitVec.ofNat 32 (v.signExtend 64).toNat = v := by
      rw [BitVec.ofNat_toNat]
      ext i hi
      rw [BitVec.getElem_setWidth, BitVec.getLsbD_signExtend]
      simp [show i < 64 by omega, hi, BitVec.getLsbD_eq_getElem]
    rw [readVarint_writeVarint _ (toNat_lt_pow _)]
    simp only [Option.map_some, hback]
  length_of_read _ _ _ _ h := length_of_map_readVarint h

/-- `int64`. -/
def int64 : Codec (BitVec 64) where
  wireType := .varint
  default := 0
  isDefault v := v = 0
  write v := writeVarint 9 v.toNat
  size v := varintSize v.toNat
  read _ bytes := (readVarint 10 bytes).map fun r => (BitVec.ofNat 64 r.1, r.2)
  isDefault_iff _ := decide_eq_true_iff
  size_eq v _ := varintSize_eq v.isLt
  read_write v rest _ _ := by
    rw [readVarint_writeVarint _ (toNat_lt_pow _)]
    simp only [Option.map_some, BitVec.ofNat_toNat, BitVec.setWidth_eq]
  length_of_read _ _ _ _ h := length_of_map_readVarint h

/-- `bool`: every number of 64 bits but 0 is true. -/
def bool : Codec Bool where
  wireType := .varint
  default := false
  isDefault v := !v
  write v := [UInt8.ofNat v.toNat]
  size _ := 1
  read _ bytes := (readVarint 10 bytes).map fun r => (decide (r.1 % 2 ^ 64 ≠ 0), r.2)
  isDefault_iff v := by cases v <;> decide
  size_eq _ _ := rfl
  read_write v rest hv _ := by
    cases v with
    | false => cases hv
    | true => rfl
  length_of_read _ _ _ _ h := length_of_map_readVarint (f := fun n => decide (n % 2 ^ 64 ≠ 0)) h

/-- `float`, as its 32 bits. -/
def float : Codec (BitVec 32) where
  wireType := .fixed32
  default := 0
  isDefault v := v = 0
  write v := writeFixed 4 v.toNat
  size _ := 4
  read _ bytes := (readFixed 4 bytes).map fun r => (BitVec.ofNat 32 r.1, r.2)
  isDefault_iff _ := decide_eq_true_iff
  size_eq _ _ := (length_writeFixed 4 _).symm
  read_write v rest _ _ := by
    have hlt : v.toNat < 256 ^ 4 := v.isLt.trans_le (by decide)
    rw [readFixed_writeFixed _ hlt]
    simp only [Option.map_some, BitVec.ofNat_toNat, BitVec.setWidth_eq]
  length_of_read _ bytes v rest h := by
    obtain ⟨⟨n, tail⟩, hread, heq⟩ := Option.map_eq_some_iff.mp h
    cases heq
    exact length_of_readFixed hread

/-- `string`: bytes that must be UTF-8 when they are read. -/
def string : Codec String where
  wireType := .lengthDelimited
  default := ""
  isDefault v := v.isEmpty
  write v := writeDelimited v.toUTF8.data.toList
  size v := delimitedSize v.toUTF8.data.toList.length
  read _ bytes := (readDelimited bytes).bind fun r =>
    (String.fromUTF8? r.1.toByteArray).map fun v => (v, r.2)
  isDefault_iff v := String.isEmpty_iff
  size_eq v h := delimitedSize_eq ((length_le_writeDelimited _).trans_lt h)
  read_write v rest _ h := by
    have hbody : v.toUTF8.data.toList.length < lengthLimit :=
      (length_le_writeDelimited _).trans_lt h
    have hvalid : String.fromUTF8? v.toUTF8 = some v := dif_pos v.isValidUTF8
    rw [readDelimited_writeDelimited _ hbody]
    simp only [Option.bind_some]
    have hback : v.toUTF8.data.toList.toByteArray = v.toUTF8 := by
      apply ByteArray.ext
      simp
    rw [hback, hvalid]
    rfl
  length_of_read _ bytes v rest h := by
    obtain ⟨⟨body, tail⟩, hread, hmap⟩ := Option.bind_eq_some_iff.mp h
    obtain ⟨w, -, heq⟩ := Option.map_eq_some_iff.mp hmap
    cases heq
    exact length_of_readDelimited hread

@[simp] theorem int32_default : int32.default = 0 := rfl

@[simp] theorem int64_default : int64.default = 0 := rfl

@[simp] theorem bool_default : bool.default = false := rfl

@[simp] theorem float_default : float.default = 0 := rfl

@[simp] theorem string_default : string.default = "" := rfl

end Scalars

/-- What is left behind a field that a message does not have. -/
structure Skipper where
  /-- The tag and the bytes behind it. -/
  skip : ℕ → List UInt8 → Option (List UInt8)
  /-- What is left is not longer. -/
  length_of_skip : ∀ tag bytes rest, skip tag bytes = some rest → rest.length ≤ bytes.length

/-- A field of a message, whose number fits a tag of one byte. -/
structure Field (M : Type) where
  /-- The values. -/
  V : Type
  /-- Its number. -/
  number : ℕ
  /-- The number is one of the first. -/
  number_lt : number < 16
  /-- Its type. -/
  codec : Codec V
  /-- The value of the field. -/
  get : M → V
  /-- The message with the field changed. -/
  set : M → V → M

namespace Field

variable {M : Type}

/-- The number and the wire type. -/
def tag (f : Field M) : ℕ := f.number * 8 + f.codec.wireType.value

/-- The bytes of a field. -/
def write (f : Field M) (m : M) : List UInt8 :=
  if f.codec.isDefault (f.get m) = true then []
  else UInt8.ofNat f.tag :: f.codec.write (f.get m)

/-- Their number. -/
def size (f : Field M) (m : M) : ℕ :=
  if f.codec.isDefault (f.get m) = true then 0 else 1 + f.codec.size (f.get m)

/-- Neither field changes the other. -/
def Independent (f g : Field M) : Prop :=
  ∀ m, (∀ v, f.get (g.set m v) = f.get m) ∧ ∀ v, g.get (f.set m v) = g.get m

instance : Std.Symm (Independent (M := M)) := ⟨fun _ _ h m => (h m).symm⟩

theorem tag_lt (f : Field M) : f.tag < 128 := by
  have hnumber := f.number_lt
  have htype : f.codec.wireType.value < 8 := by
    cases f.codec.wireType <;> decide
  rw [tag]
  omega

/-- The tag gives the number back. -/
theorem tag_div (f : Field M) : f.tag / 8 = f.number := by
  have htype : f.codec.wireType.value < 8 := by
    cases f.codec.wireType <;> decide
  rw [tag]
  omega

/-- The size is the number of bytes. -/
theorem size_eq (f : Field M) (m : M) (h : (f.write m).length < lengthLimit) :
    f.size m = (f.write m).length := by
  rw [size, write]
  rw [write] at h
  split
  · rfl
  · rename_i hset
    rw [if_neg hset, List.length_cons] at h
    rw [f.codec.size_eq _ (by omega), List.length_cons, Nat.add_comm]

end Field

/-- The fields of a message and the message without any. For a structure whose fields are
read and written by its projections the conditions are proved by default. -/
structure Schema (M : Type) where
  /-- The fields, in the order in which they are written. -/
  fields : List (Field M)
  /-- All fields have their defaults. -/
  empty : M
  /-- No two fields have the same number. -/
  numbers : fields.Pairwise fun f g => f.number ≠ g.number := by simp
  /-- A field that is set has the value. -/
  get_set : ∀ f ∈ fields, ∀ m v, f.get (f.set m v) = v := by simp
  /-- The others keep theirs. -/
  independent : fields.Pairwise Field.Independent := by simp [Field.Independent]
  /-- The defaults. -/
  get_empty : ∀ f ∈ fields, f.get empty = f.codec.default := by simp
  /-- A message is its fields. -/
  ext : ∀ m m', (∀ f ∈ fields, f.get m = f.get m') → m = m' := by
    intro m m' h
    cases m
    cases m'
    simpa using h

namespace Schema

variable {M : Type} (S : Schema M)

/-- A message, field by field. -/
def serialize (m : M) : List UInt8 := S.fields.flatMap fun f => f.write m

/-- The size of a message. -/
def byteSize (m : M) : ℕ := (S.fields.map fun f => f.size m).sum

/-- A field whose tag was read. -/
def parseField (skipper : Skipper) (m : M) (tag : ℕ) (bytes : List UInt8) :
    Option (M × List UInt8) :=
  match S.fields.find? fun f => f.number = tag / 8 with
  | some f =>
    if tag % 256 = f.tag then (f.codec.read (f.get m) bytes).map fun r => (f.set m r.1, r.2)
    else handleUnusual
  | none => handleUnusual
where
  /-- The end of a group, or a field the message does not have. -/
  handleUnusual : Option (M × List UInt8) :=
    if tag = 0 ∨ tag % 8 = WireType.endGroup.value then none
    else (skipper.skip tag bytes).map fun rest => (m, rest)

/-- The loop over the tags; it takes at most as many passes as there are bytes. -/
def parseFrom (skipper : Skipper) : ℕ → M → List UInt8 → Option M
  | _, m, [] => some m
  | 0, _, _ :: _ => none
  | n + 1, m, byte :: bytes =>
    (readVarint 5 (byte :: bytes)).bind fun r =>
      (S.parseField skipper m r.1 r.2).bind fun next => parseFrom skipper n next.1 next.2

/-- A message is read into one that is there. -/
def merge (skipper : Skipper) (m : M) (bytes : List UInt8) : Option M :=
  S.parseFrom skipper bytes.length m bytes

/-- A message is read. -/
def parse (skipper : Skipper) (bytes : List UInt8) : Option M := S.merge skipper S.empty bytes

section Parsing

variable {S : Schema M} {skipper : Skipper} {m m' : M} {f : Field M} {bytes rest : List UInt8}

/-- What follows a field is not longer. -/
theorem length_of_parseField {tag : ℕ}
    (h : S.parseField skipper m tag bytes = some (m', rest)) : rest.length ≤ bytes.length := by
  have hunusual : parseField.handleUnusual skipper m tag bytes = some (m', rest) →
      rest.length ≤ bytes.length := by
    intro hunusual
    rw [parseField.handleUnusual] at hunusual
    split at hunusual
    · cases hunusual
    · obtain ⟨tail, hskip, heq⟩ := Option.map_eq_some_iff.mp hunusual
      cases heq
      exact skipper.length_of_skip _ _ _ hskip
  rw [parseField] at h
  split at h
  · split at h
    · obtain ⟨⟨v, tail⟩, hread, heq⟩ := Option.map_eq_some_iff.mp h
      cases heq
      exact Codec.length_of_read _ _ _ _ _ hread
    · exact hunusual h
  · exact hunusual h

/-- More passes than there are bytes make no difference. -/
theorem parseFrom_eq {n : ℕ} (h : bytes.length ≤ n) :
    S.parseFrom skipper n m bytes = S.merge skipper m bytes := by
  rw [merge]
  generalize hk : bytes.length = k
  induction k using Nat.strong_induction_on generalizing n m bytes with
  | _ k ih =>
    cases bytes with
    | nil => cases n <;> cases k <;> rfl
    | cons byte bytes =>
      obtain ⟨n, rfl⟩ : ∃ n', n = n' + 1 := ⟨n - 1, by rw [List.length_cons] at h; omega⟩
      obtain ⟨k, rfl⟩ : ∃ k', k = k' + 1 := ⟨k - 1, by rw [List.length_cons] at hk; omega⟩
      rw [List.length_cons] at h hk
      rw [parseFrom, parseFrom]
      cases htag : readVarint 5 (byte :: bytes) with
      | none => rfl
      | some r =>
        have htail := length_of_readVarint htag
        rw [List.length_cons] at htail
        simp only [Option.bind_some]
        cases hfield : S.parseField skipper m r.1 r.2 with
        | none => rfl
        | some next =>
          have hnext := length_of_parseField hfield
          simp only [Option.bind_some]
          rw [ih next.2.length (by omega) (by omega) rfl]
          exact (ih next.2.length (by omega) (by omega) rfl).symm

/-- A field is found by its number. -/
theorem find_field (S : Schema M) (hf : f ∈ S.fields) :
    S.fields.find? (fun g => g.number = f.tag / 8) = some f := by
  have hnumbers := S.numbers
  rw [f.tag_div]
  generalize S.fields = fields at hf hnumbers
  induction fields with
  | nil => cases hf
  | cons g fields ih =>
    obtain ⟨hne, hrest⟩ := List.pairwise_cons.mp hnumbers
    rcases List.mem_cons.mp hf with rfl | hmem
    · exact List.find?_cons_of_pos (decide_eq_true rfl)
    · rw [List.find?_cons_of_neg (by simpa using hne f hmem)]
      exact ih hmem hrest

/-- A field that is written is read back, unless it has its default. -/
theorem merge_write (hf : f ∈ S.fields) (hlength : (f.write m).length < lengthLimit)
    (hold : f.get m' = f.codec.default) :
    ∃ next, S.merge skipper m' (f.write m ++ rest) = S.merge skipper next rest ∧
      f.get next = f.get m ∧ ∀ g ∈ S.fields, g.number ≠ f.number → g.get next = g.get m' := by
  by_cases hdefault : f.codec.isDefault (f.get m) = true
  · refine ⟨m', ?_, ?_, fun _ _ _ => rfl⟩
    · rw [Field.write, if_pos hdefault, List.nil_append]
    · rw [hold, (f.codec.isDefault_iff _).mp hdefault]
  · refine ⟨f.set m' (f.get m), ?_, S.get_set f hf _ _, fun g hg hne => ?_⟩
    · rw [Field.write, if_neg hdefault, List.length_cons] at hlength
      have htag : (UInt8.ofNat f.tag).toNat = f.tag := by
        have hlt := f.tag_lt
        exact UInt8.toNat_ofNat_of_lt' (by rw [UInt8.size]; omega)
      have hread := f.codec.read_write (f.get m) rest (Bool.eq_false_of_not_eq_true hdefault)
        (by omega)
      rw [Field.write, if_neg hdefault, List.cons_append, merge, List.length_cons, parseFrom,
        readVarint, htag, if_pos f.tag_lt]
      simp only [Option.bind_some]
      rw [parseField, S.find_field hf]
      have hlow : f.tag % 256 = f.tag := Nat.mod_eq_of_lt (f.tag_lt.trans (by decide))
      simp only [hlow, if_true, hold, hread, Option.map_some, Option.bind_some]
      refine parseFrom_eq ?_
      rw [List.length_append]
      exact Nat.le_add_left _ _
    · have hgf : g ≠ f := fun h => hne (congrArg Field.number h)
      exact (S.independent.forall hg hf hgf m').1 _

/-- Fields that are written are read back. -/
theorem merge_fields {fields : List (Field M)} (hfields : ∀ f ∈ fields, f ∈ S.fields)
    (hnumbers : fields.Pairwise fun f g => f.number ≠ g.number)
    (hlength : (fields.flatMap fun f => f.write m).length < lengthLimit)
    (hold : ∀ f ∈ fields, f.get m' = f.codec.default) :
    ∃ next, S.merge skipper m' ((fields.flatMap fun f => f.write m) ++ rest) =
        S.merge skipper next rest ∧
      (∀ f ∈ fields, f.get next = f.get m) ∧
      ∀ g ∈ S.fields, (∀ f ∈ fields, g.number ≠ f.number) → g.get next = g.get m' := by
  induction fields generalizing m' with
  | nil => exact ⟨m', rfl, fun f hf => (List.not_mem_nil hf).elim, fun _ _ _ => rfl⟩
  | cons f fields ih =>
    obtain ⟨hf, hrest⟩ := List.forall_mem_cons.mp hfields
    obtain ⟨hne, hpairs⟩ := List.pairwise_cons.mp hnumbers
    obtain ⟨hfold, hrestold⟩ := List.forall_mem_cons.mp hold
    rw [List.flatMap_cons, List.length_append] at hlength
    have hhead : (f.write m).length < lengthLimit := by omega
    obtain ⟨one, hone, hget, hothers⟩ := merge_write hf hhead hfold
    obtain ⟨next, hnext, hgets, hframe⟩ := ih hrest hpairs (by omega) fun g hg =>
      (hothers g (hrest g hg) (hne g hg).symm).trans (hrestold g hg)
    refine ⟨next, ?_, List.forall_mem_cons.mpr ⟨?_, hgets⟩, fun g hg hnot => ?_⟩
    · rw [List.flatMap_cons, List.append_assoc, hone, hnext]
    · rw [hframe f hf hne, hget]
    · obtain ⟨hnotf, hnotrest⟩ := List.forall_mem_cons.mp hnot
      rw [hframe g hg hnotrest, hothers g hg hnotf]

/-- A message that is written is read back. -/
theorem parse_serialize (h : (S.serialize m).length < lengthLimit) :
    S.parse skipper (S.serialize m) = some m := by
  obtain ⟨next, hmerge, hgets, -⟩ : ∃ next, S.merge skipper S.empty (S.serialize m ++ []) =
      S.merge skipper next [] ∧ (∀ f ∈ S.fields, f.get next = f.get m) ∧ _ :=
    merge_fields (fun _ hf => hf) S.numbers h S.get_empty
  rw [List.append_nil] at hmerge
  rw [parse, hmerge, S.ext next m hgets]
  rfl

/-- The size of a message is the number of its bytes. -/
theorem byteSize_eq (h : (S.serialize m).length < lengthLimit) :
    S.byteSize m = (S.serialize m).length := by
  rw [serialize] at h
  rw [byteSize, serialize]
  generalize S.fields = fields at h
  induction fields with
  | nil => rfl
  | cons f fields ih =>
    rw [List.flatMap_cons, List.length_append] at h
    rw [List.map_cons, List.sum_cons, List.flatMap_cons, List.length_append, ih (by omega),
      f.size_eq m (by omega)]

end Parsing

section Bounds

variable {S : Schema M} {m : M}

/-- The bytes of a field whose values take at most `n`. -/
theorem length_write_le {f : Field M} {n : ℕ} (h : (f.codec.write (f.get m)).length ≤ n) :
    (f.write m).length ≤ n + 1 := by
  rw [Field.write]
  split
  · exact Nat.zero_le _
  · exact Nat.succ_le_succ h

/-- The bytes of a message. -/
theorem length_serialize_le {bounds : List ℕ}
    (h : List.Forall₂ (fun f n => (f.codec.write (f.get m)).length + 1 ≤ n) S.fields bounds) :
    (S.serialize m).length ≤ bounds.sum := by
  rw [serialize]
  generalize S.fields = fields at h
  induction h with
  | nil => exact le_rfl
  | cons hfield _ ih =>
    rw [List.flatMap_cons, List.length_append, List.sum_cons]
    exact Nat.add_le_add ((length_write_le le_rfl).trans hfield) ih

end Bounds

/-- A message as a field: it is written behind its size. -/
def codec (S : Schema M) (skipper : Skipper) : Codec (Option M) where
  wireType := .lengthDelimited
  default := none
  isDefault v := v.isNone
  write
    | none => []
    | some m => writeDelimited (S.serialize m)
  size
    | none => 0
    | some m => delimitedSize (S.byteSize m)
  read old bytes := (readDelimited bytes).bind fun r =>
    (S.merge skipper (old.getD S.empty) r.1).map fun m => (some m, r.2)
  isDefault_iff v := Option.isNone_iff_eq_none
  size_eq v h := by
    cases v with
    | none => rfl
    | some m =>
      have hbody : (S.serialize m).length < lengthLimit :=
        (length_le_writeDelimited _).trans_lt h
      show delimitedSize (S.byteSize m) = (writeDelimited (S.serialize m)).length
      rw [byteSize_eq hbody, delimitedSize_eq hbody]
  read_write v rest hv h := by
    cases v with
    | none => cases hv
    | some m =>
      have hbody : (S.serialize m).length < lengthLimit :=
        (length_le_writeDelimited _).trans_lt h
      have hparse : S.merge skipper S.empty (S.serialize m) = some m := parse_serialize hbody
      simp only [readDelimited_writeDelimited _ hbody, Option.bind_some, Option.getD_none, hparse,
        Option.map_some]
  length_of_read old bytes v rest h := by
    obtain ⟨⟨body, tail⟩, hread, hmap⟩ := Option.bind_eq_some_iff.mp h
    obtain ⟨m, -, heq⟩ := Option.map_eq_some_iff.mp hmap
    cases heq
    exact length_of_readDelimited hread

@[simp] theorem codec_default (S : Schema M) (skipper : Skipper) :
    (S.codec skipper).default = none := rfl

end Schema

end RioIocpServer.WireFormat
