import Mathlib.Algebra.Group.Int.Defs
import Mathlib.Algebra.GroupWithZero.Nat
import Mathlib.Data.List.Basic
import Mathlib.Tactic.Common

/-!
# The option format of RFC 7252

An option is a first byte with the nibbles of its delta and its length, the
extension bytes that the nibbles announce, and the value.  The structure of the
bytes in front of a value holds only what is well formed, so that it determines
a delta and a length, is determined by them, and is recognised in front of any
other bytes.
-/

namespace UoscoreUedhoc.Coap

/-! ## Nibbles and extension bytes -/

/-- The upper half of the first byte of an option. -/
def deltaNibble (first : UInt8) : UInt8 := (first &&& 0xF0) >>> 4

/-- The lower half. -/
def lenNibble (first : UInt8) : UInt8 := first &&& 0x0F

/-- How many extension bytes a nibble announces. -/
def extensionLength (nibble : UInt8) : Nat :=
  if nibble = 13 then 1 else if nibble = 14 then 2 else 0

theorem extensionLength_le (nibble : UInt8) : extensionLength nibble ≤ 2 := by
  unfold extensionLength
  split
  · omega
  · split
    · omega
    · omega

/-- The number that a nibble and its extension bytes stand for. -/
def extensionValue (nibble : UInt8) : List UInt8 → Nat
  | [] => nibble.toNat
  | [first] => 13 + first.toNat
  | first :: second :: _ => 269 + 256 * first.toNat + second.toNat

/-- The nibble of a number. -/
def nibbleOf (value : Nat) : UInt8 :=
  if value < 13 then UInt8.ofNat value else if value < 269 then 13 else 14

/-- The extension bytes of a number. -/
def extensionOf (value : Nat) : List UInt8 :=
  if value < 13 then
    []
  else if value < 269 then
    [UInt8.ofNat (value - 13)]
  else
    [UInt8.ofNat ((value - 269) / 256), UInt8.ofNat (value - 269)]

/-- The first number without an encoding. -/
def valueBound : Nat := 65805

theorem nibbleOf_lt (value : Nat) : nibbleOf value < 15 := by
  unfold nibbleOf
  split
  · rename_i small
    rw [UInt8.lt_iff_toNat_lt, UInt8.toNat_ofNat']
    have bound : value % 2 ^ 8 ≤ value := Nat.mod_le _ _
    simp only [UInt8.reduceToNat]
    omega
  · split
    · decide
    · decide

theorem extensionOf_length (value : Nat) :
    (extensionOf value).length = extensionLength (nibbleOf value) := by
  unfold extensionOf nibbleOf extensionLength
  by_cases small : value < 13
  · have ne : ∀ nibble : UInt8, 13 ≤ nibble.toNat →
        UInt8.ofNat value ≠ nibble := by
      intro nibble large same
      rw [← same, UInt8.toNat_ofNat'] at large
      have bound : value % 2 ^ 8 ≤ value := Nat.mod_le _ _
      omega
    simp [small, ne 13 (by decide), ne 14 (by decide)]
  · by_cases medium : value < 269
    · simp [small, medium]
    · simp [small, medium]

theorem extensionValue_encode {value : Nat} (bound : value < valueBound) :
    extensionValue (nibbleOf value) (extensionOf value) = value := by
  unfold valueBound at bound
  unfold extensionOf nibbleOf
  by_cases small : value < 13
  · simp only [if_pos small, extensionValue, UInt8.toNat_ofNat']
    omega
  · by_cases medium : value < 269
    · simp only [if_neg small, if_pos medium, extensionValue,
        UInt8.toNat_ofNat']
      omega
    · simp only [if_neg small, if_neg medium, extensionValue,
        UInt8.toNat_ofNat']
      omega

/-- A well-formed field is the encoding of its number. -/
theorem encode_extensionValue {nibble : UInt8} {extension : List UInt8}
    (valid : nibble < 15)
    (length : extension.length = extensionLength nibble) :
    nibbleOf (extensionValue nibble extension) = nibble ∧
      extensionOf (extensionValue nibble extension) = extension := by
  unfold extensionLength at length
  by_cases isOne : nibble = 13
  · rw [if_pos isOne] at length
    obtain ⟨first, rfl⟩ := List.length_eq_one_iff.mp length
    have bound := first.toNat_lt
    have notSmall : ¬ 13 + first.toNat < 13 := by omega
    have medium : 13 + first.toNat < 269 := by omega
    simp [extensionValue, nibbleOf, extensionOf, notSmall, medium, isOne]
  · rw [if_neg isOne] at length
    by_cases isTwo : nibble = 14
    · rw [if_pos isTwo] at length
      obtain ⟨first, second, rfl⟩ := List.length_eq_two.mp length
      have bound := second.toNat_lt
      have notSmall : ¬ 269 + 256 * first.toNat + second.toNat < 13 := by
        omega
      have notMedium : ¬ 269 + 256 * first.toNat + second.toNat < 269 := by
        omega
      have high :
          (269 + 256 * first.toNat + second.toNat - 269) / 256 =
            first.toNat := by
        omega
      have low :
          UInt8.ofNat (269 + 256 * first.toNat + second.toNat - 269) =
            second := by
        apply UInt8.toNat_inj.mp
        rw [UInt8.toNat_ofNat']
        omega
      simp [extensionValue, nibbleOf, extensionOf, notSmall, notMedium,
        isTwo, high, low]
    · rw [if_neg isTwo] at length
      have empty := List.length_eq_zero_iff.mp length
      subst empty
      have small : nibble.toNat < 13 := by
        rw [UInt8.lt_iff_toNat_lt] at valid
        have notThirteen : nibble.toNat ≠ 13 := fun same =>
          isOne (UInt8.toNat_inj.mp same)
        have notFourteen : nibble.toNat ≠ 14 := fun same =>
          isTwo (UInt8.toNat_inj.mp same)
        simp only [UInt8.reduceToNat] at valid
        omega
      simp [extensionValue, nibbleOf, extensionOf, small]

/-! ## Heads of options -/

/-- The first byte with two nibbles. -/
def joinNibbles (delta len : UInt8) : UInt8 := (delta <<< 4) ||| len

private theorem nibble_lt_sixteen {nibble : UInt8} (valid : nibble < 15) :
    nibble.toNat < 16 := by
  simp only [UInt8.lt_iff_toNat_lt, UInt8.reduceToNat] at valid
  omega

theorem nibbles_joinNibbles {delta len : UInt8} (deltaBound : delta < 15)
    (lenBound : len < 15) :
    deltaNibble (joinNibbles delta len) = delta ∧
      lenNibble (joinNibbles delta len) = len := by
  have all :
      ∀ delta < 16, ∀ len < 16,
        let first := joinNibbles (UInt8.ofNat delta) (UInt8.ofNat len)
        deltaNibble first = UInt8.ofNat delta ∧
          lenNibble first = UInt8.ofNat len := by
    decide +kernel
  have found :=
    all delta.toNat (nibble_lt_sixteen deltaBound) len.toNat
      (nibble_lt_sixteen lenBound)
  simpa only [UInt8.ofNat_toNat] using found

theorem joinNibbles_nibbles (first : UInt8) :
    joinNibbles (deltaNibble first) (lenNibble first) = first := by
  have all :
      ∀ value < 256,
        joinNibbles (deltaNibble (UInt8.ofNat value))
          (lenNibble (UInt8.ofNat value)) = UInt8.ofNat value := by
    decide +kernel
  have found := all first.toNat first.toNat_lt
  rwa [UInt8.ofNat_toNat] at found

/-- Only one value of a nibble is reserved. -/
theorem nibbles_lt_iff (first : UInt8) :
    (deltaNibble first < 15 ↔ deltaNibble first ≠ 15) ∧
      (lenNibble first < 15 ↔ lenNibble first ≠ 15) := by
  have all :
      ∀ value < 256,
        let first := UInt8.ofNat value
        (deltaNibble first < 15 ↔ deltaNibble first ≠ 15) ∧
          (lenNibble first < 15 ↔ lenNibble first ≠ 15) := by
    decide +kernel
  have found := all first.toNat first.toNat_lt
  simpa only [UInt8.ofNat_toNat] using found

/-- The bytes in front of an option value. -/
structure EncodedHead where
  first : UInt8
  deltaExtension : List UInt8
  lenExtension : List UInt8
  deltaNibble_lt : deltaNibble first < 15
  lenNibble_lt : lenNibble first < 15
  deltaExtension_length :
    deltaExtension.length = extensionLength (deltaNibble first)
  lenExtension_length :
    lenExtension.length = extensionLength (lenNibble first)
  deriving DecidableEq, Repr

private theorem deltaNibble_encode (delta length : Nat) :
    deltaNibble (joinNibbles (nibbleOf delta) (nibbleOf length)) =
      nibbleOf delta :=
  (nibbles_joinNibbles (nibbleOf_lt delta) (nibbleOf_lt length)).1

private theorem lenNibble_encode (delta length : Nat) :
    lenNibble (joinNibbles (nibbleOf delta) (nibbleOf length)) =
      nibbleOf length :=
  (nibbles_joinNibbles (nibbleOf_lt delta) (nibbleOf_lt length)).2

namespace EncodedHead

def bytes (head : EncodedHead) : List UInt8 :=
  head.first :: (head.deltaExtension ++ head.lenExtension)

/-- The difference to the number of the option before. -/
def delta (head : EncodedHead) : Nat :=
  extensionValue (deltaNibble head.first) head.deltaExtension

/-- The length of the option value. -/
def length (head : EncodedHead) : Nat :=
  extensionValue (lenNibble head.first) head.lenExtension

theorem bytes_length_pos (head : EncodedHead) : 0 < head.bytes.length := by
  simp [bytes]

theorem bytes_length_le (head : EncodedHead) : head.bytes.length ≤ 5 := by
  have deltaBytes := extensionLength_le (deltaNibble head.first)
  have lenBytes := extensionLength_le (lenNibble head.first)
  have deltaLength := head.deltaExtension_length
  have lenLength := head.lenExtension_length
  simp only [bytes, List.length_cons, List.length_append]
  omega

/-- The first byte says where the head ends. -/
theorem bytes_append_inj {head other : EncodedHead}
    {rest otherRest : List UInt8}
    (same : head.bytes ++ rest = other.bytes ++ otherRest) :
    head = other ∧ rest = otherRest := by
  obtain ⟨first, deltaExtension, lenExtension, _, _, deltaLength,
    lenLength⟩ := head
  obtain ⟨otherFirst, otherDelta, otherLen, _, _, otherDeltaLength,
    otherLenLength⟩ := other
  simp only [bytes, List.cons_append, List.append_assoc,
    List.cons.injEq] at same
  obtain ⟨rfl, extensions⟩ := same
  obtain ⟨rfl, lenExtensions⟩ :=
    List.append_inj extensions (deltaLength.trans otherDeltaLength.symm)
  obtain ⟨rfl, rests⟩ :=
    List.append_inj lenExtensions (lenLength.trans otherLenLength.symm)
  exact ⟨rfl, rests⟩

/-- The head of an option with this delta and a value of this length. -/
def encode (delta length : Nat) : EncodedHead where
  first := joinNibbles (nibbleOf delta) (nibbleOf length)
  deltaExtension := extensionOf delta
  lenExtension := extensionOf length
  deltaNibble_lt := by
    rw [deltaNibble_encode]
    exact nibbleOf_lt delta
  lenNibble_lt := by
    rw [lenNibble_encode]
    exact nibbleOf_lt length
  deltaExtension_length := by
    rw [deltaNibble_encode]
    exact extensionOf_length delta
  lenExtension_length := by
    rw [lenNibble_encode]
    exact extensionOf_length length

theorem delta_encode {delta length : Nat} (bound : delta < valueBound) :
    (encode delta length).delta = delta := by
  unfold EncodedHead.delta encode
  rw [deltaNibble_encode]
  exact extensionValue_encode bound

theorem length_encode {delta length : Nat} (bound : length < valueBound) :
    (encode delta length).length = length := by
  unfold EncodedHead.length encode
  rw [lenNibble_encode]
  exact extensionValue_encode bound

end EncodedHead

/-! ## Options -/

/-- The bytes of an option. -/
structure EncodedOption where
  head : EncodedHead
  value : List UInt8
  value_length : value.length = head.length
  deriving DecidableEq, Repr

namespace EncodedOption

def bytes (option : EncodedOption) : List UInt8 :=
  option.head.bytes ++ option.value

/-- An option with this delta and value. -/
def encode (delta : Nat) (value : List UInt8)
    (bound : value.length < valueBound) : EncodedOption where
  head := EncodedHead.encode delta value.length
  value := value
  value_length := (EncodedHead.length_encode bound).symm

end EncodedOption

end UoscoreUedhoc.Coap
