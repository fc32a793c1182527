import Mathlib.Data.List.DropRight
import Mathlib.Data.Nat.Digits.Defs
import Mathlib.Tactic.Ring

/-!
# Trimmed and padded byte strings

A byte string stands for the number whose base-256 digits it lists, the least
significant one first.  Trimming zero bytes from the end keeps that number.
Padding with zero bytes at the front multiplies it by a power of 256, so that
padding to a fixed width after trimming identifies exactly the numbers that
differ by such a factor.
-/

namespace UoscoreUedhoc.PaddedDigits

def digitsValue (bytes : List UInt8) : Nat :=
  Nat.ofDigits 256 (bytes.map UInt8.toNat)

/-- Drop the zero bytes at the end. -/
def trim (bytes : List UInt8) : List UInt8 :=
  bytes.rdropWhile (· = 0)

/-- Put zero bytes in front, up to the given width. -/
def padLeft (width : Nat) (bytes : List UInt8) : List UInt8 :=
  List.replicate (width - bytes.length) 0 ++ bytes

/-- One number is the other one shifted by whole bytes. -/
def ByteShifted (left right : Nat) : Prop :=
  ∃ count, left = right * 256 ^ count ∨ right = left * 256 ^ count

/-! ## Values -/

theorem digitsValue_append (left right : List UInt8) :
    digitsValue (left ++ right) =
      digitsValue left + 256 ^ left.length * digitsValue right := by
  unfold digitsValue
  rw [List.map_append, Nat.ofDigits_append, List.length_map]

theorem digitsValue_cons (byte : UInt8) (bytes : List UInt8) :
    digitsValue (byte :: bytes) = byte.toNat + 256 * digitsValue bytes := by
  unfold digitsValue
  rw [List.map_cons, Nat.ofDigits_cons]

theorem digitsValue_replicate_zero (count : Nat) :
    digitsValue (List.replicate count 0) = 0 := by
  unfold digitsValue
  rw [List.map_replicate]
  exact Nat.ofDigits_replicate_zero

theorem digitsValue_lt (bytes : List UInt8) :
    digitsValue bytes < 256 ^ bytes.length := by
  have bounded :=
    Nat.ofDigits_lt_base_pow_length (b := 256)
      (l := bytes.map UInt8.toNat) (by omega) (by
        intro digit member
        obtain ⟨byte, _, rfl⟩ := List.mem_map.mp member
        exact byte.toNat_lt)
  rwa [List.length_map] at bounded

theorem digitsValue_injective {left right : List UInt8}
    (sameLength : left.length = right.length)
    (sameValue : digitsValue left = digitsValue right) :
    left = right := by
  have digitBound :
      ∀ bytes : List UInt8, ∀ digit ∈ bytes.map UInt8.toNat, digit < 256 := by
    intro bytes digit member
    obtain ⟨byte, _, rfl⟩ := List.mem_map.mp member
    exact byte.toNat_lt
  have sameDigits :
      left.map UInt8.toNat = right.map UInt8.toNat :=
    Nat.ofDigits_inj_of_len_eq (by omega) (by simpa using sameLength)
      (digitBound left) (digitBound right) sameValue
  exact
    List.map_injective_iff.mpr
      (fun _ _ sameByte => UInt8.toNat_inj.mp sameByte) sameDigits

/-! ## Trimming -/

theorem trim_isPrefix (bytes : List UInt8) : trim bytes <+: bytes :=
  List.rdropWhile_prefix _ _

theorem trim_concat (bytes : List UInt8) (byte : UInt8) :
    trim (bytes ++ [byte]) =
      if byte = 0 then trim bytes else bytes ++ [byte] := by
  unfold trim
  rw [List.rdropWhile_concat]
  simp

theorem digitsValue_trim (bytes : List UInt8) :
    digitsValue (trim bytes) = digitsValue bytes := by
  induction bytes using List.reverseRecOn with
  | nil =>
      rfl
  | append_singleton bytes byte inductionHypothesis =>
      rw [trim_concat]
      by_cases zero : byte = 0
      · rw [if_pos zero, inductionHypothesis, digitsValue_append, zero]
        simp [digitsValue]
      · rw [if_neg zero]

/-- The last byte of a trimmed string counts. -/
theorem pow_le_digitsValue_trim {bytes : List UInt8}
    (nonempty : trim bytes ≠ []) :
    256 ^ ((trim bytes).length - 1) ≤ digitsValue (trim bytes) := by
  induction bytes using List.reverseRecOn with
  | nil =>
      exact absurd rfl nonempty
  | append_singleton bytes byte inductionHypothesis =>
      rw [trim_concat] at nonempty ⊢
      by_cases zero : byte = 0
      · rw [if_pos zero] at nonempty ⊢
        exact inductionHypothesis nonempty
      · rw [if_neg zero, digitsValue_append, List.length_append]
        have positive : 1 ≤ digitsValue [byte] := by
          have byteNe : byte.toNat ≠ 0 := by
            simpa [← UInt8.toNat_inj] using zero
          simpa [digitsValue, Nat.one_le_iff_ne_zero] using byteNe
        calc
          256 ^ (bytes.length + [byte].length - 1)
              = 256 ^ bytes.length * 1 := by simp
          _ ≤ 256 ^ bytes.length * digitsValue [byte] :=
            Nat.mul_le_mul_left _ positive
          _ ≤ digitsValue bytes +
                256 ^ bytes.length * digitsValue [byte] :=
            Nat.le_add_left _ _

theorem trim_eq_nil_iff {bytes : List UInt8} :
    trim bytes = [] ↔ digitsValue bytes = 0 := by
  constructor
  · intro empty
    rw [← digitsValue_trim, empty]
    rfl
  · intro zero
    by_contra nonempty
    have positive := pow_le_digitsValue_trim nonempty
    rw [digitsValue_trim, zero] at positive
    have : 0 < 256 ^ ((trim bytes).length - 1) := by positivity
    omega

/-- The length of a trimmed string is the number of digits of its value. -/
theorem trim_length_le_iff {bytes : List UInt8} {width : Nat} :
    (trim bytes).length ≤ width ↔ digitsValue bytes < 256 ^ width := by
  constructor
  · intro short
    rw [← digitsValue_trim]
    exact
      (digitsValue_lt _).trans_le
        (Nat.pow_le_pow_right (by omega) short)
  · intro small
    by_contra long
    have nonempty : trim bytes ≠ [] := by
      rintro empty
      rw [empty] at long
      simp at long
    have large := pow_le_digitsValue_trim nonempty
    rw [digitsValue_trim] at large
    have wide : 256 ^ width ≤ 256 ^ ((trim bytes).length - 1) :=
      Nat.pow_le_pow_right (by omega) (by omega)
    omega

theorem trim_length_of_shifted {left right : List UInt8} {count : Nat}
    (nonzero : digitsValue left ≠ 0)
    (shifted : digitsValue right = digitsValue left * 256 ^ count) :
    (trim right).length = (trim left).length + count := by
  have leftNonempty : trim left ≠ [] := by
    rwa [ne_eq, trim_eq_nil_iff]
  have leftPositive : 0 < (trim left).length :=
    List.length_pos_iff.mpr leftNonempty
  apply le_antisymm
  · rw [trim_length_le_iff, shifted, pow_add]
    exact
      Nat.mul_lt_mul_of_pos_right
        (trim_length_le_iff.mp (Nat.le_refl _)) (by positivity)
  · by_contra short
    have small : (trim right).length ≤ (trim left).length + count - 1 := by
      omega
    rw [trim_length_le_iff, shifted,
      show (trim left).length + count - 1 = (trim left).length - 1 + count by
        omega,
      pow_add] at small
    have large := pow_le_digitsValue_trim leftNonempty
    rw [digitsValue_trim] at large
    exact absurd small (not_lt.mpr (Nat.mul_le_mul_right _ large))

/-! ## Padding -/

theorem padLeft_length {width : Nat} {bytes : List UInt8}
    (fits : bytes.length ≤ width) : (padLeft width bytes).length = width := by
  simp [padLeft]
  omega

theorem digitsValue_padLeft (width : Nat) (bytes : List UInt8) :
    digitsValue (padLeft width bytes) =
      256 ^ (width - bytes.length) * digitsValue bytes := by
  unfold padLeft
  rw [digitsValue_append, digitsValue_replicate_zero, List.length_replicate,
    Nat.zero_add]

/-- Strings of one length stay different when they are padded. -/
theorem padLeft_injective {width : Nat} {left right : List UInt8}
    (sameLength : left.length = right.length)
    (equal : padLeft width left = padLeft width right) : left = right := by
  unfold padLeft at equal
  rw [sameLength] at equal
  exact List.append_cancel_left equal

private theorem byteShifted_of_padLeft_eq {width : Nat}
    {left right : List UInt8}
    (shorter : left.length ≤ right.length) (fits : right.length ≤ width)
    (equal : padLeft width left = padLeft width right) :
    digitsValue right =
      digitsValue left * 256 ^ (right.length - left.length) := by
  have values :
      256 ^ (width - left.length) * digitsValue left =
        256 ^ (width - right.length) * digitsValue right := by
    rw [← digitsValue_padLeft, ← digitsValue_padLeft, equal]
  have split :
      width - left.length =
        (width - right.length) + (right.length - left.length) := by
    omega
  rw [split, pow_add, Nat.mul_assoc] at values
  have cancelled := Nat.eq_of_mul_eq_mul_left (by positivity) values
  rw [← cancelled, Nat.mul_comm]

private theorem padLeft_trim_eq_of_shifted {width count : Nat}
    {left right : List UInt8}
    (leftFits : (trim left).length ≤ width)
    (rightFits : (trim right).length ≤ width)
    (shifted : digitsValue right = digitsValue left * 256 ^ count) :
    padLeft width (trim left) = padLeft width (trim right) := by
  by_cases zero : digitsValue left = 0
  · have rightZero : digitsValue right = 0 := by
      rw [shifted, zero, Nat.zero_mul]
    rw [trim_eq_nil_iff.mpr zero, trim_eq_nil_iff.mpr rightZero]
  · have lengths := trim_length_of_shifted zero shifted
    apply digitsValue_injective
    · rw [padLeft_length leftFits, padLeft_length rightFits]
    · rw [digitsValue_padLeft, digitsValue_padLeft, digitsValue_trim,
        digitsValue_trim, shifted]
      have split :
          width - (trim left).length =
            (width - (trim right).length) + count := by
        omega
      rw [split, pow_add]
      ring

/-- Padding trimmed strings to one width identifies exactly the numbers that
differ by a factor of a power of 256. -/
theorem padLeft_trim_eq_iff {width : Nat} {left right : List UInt8}
    (leftFits : (trim left).length ≤ width)
    (rightFits : (trim right).length ≤ width) :
    padLeft width (trim left) = padLeft width (trim right) ↔
      ByteShifted (digitsValue left) (digitsValue right) := by
  constructor
  · intro equal
    rcases Nat.le_total (trim left).length (trim right).length with
      shorter | longer
    · have shifted := byteShifted_of_padLeft_eq shorter rightFits equal
      rw [digitsValue_trim, digitsValue_trim] at shifted
      exact ⟨_, Or.inr shifted⟩
    · have shifted := byteShifted_of_padLeft_eq longer leftFits equal.symm
      rw [digitsValue_trim, digitsValue_trim] at shifted
      exact ⟨_, Or.inl shifted⟩
  · rintro ⟨count, shifted | shifted⟩
    · exact
        (padLeft_trim_eq_of_shifted rightFits leftFits shifted).symm
    · exact padLeft_trim_eq_of_shifted leftFits rightFits shifted

theorem ByteShifted.symm {left right : Nat} (shifted : ByteShifted left right) :
    ByteShifted right left := by
  obtain ⟨count, equal⟩ := shifted
  exact ⟨count, equal.symm⟩

theorem ByteShifted.refl (number : Nat) : ByteShifted number number :=
  ⟨0, Or.inl (by simp)⟩

/-- Different numbers of one byte are no shifts of each other. -/
theorem not_byteShifted_of_lt {left right : Nat} (less : left < right)
    (small : right < 256) : ¬ ByteShifted left right := by
  intro shifted
  obtain ⟨count, isLeft | isRight⟩ := shifted
  · have positive : 0 < 256 ^ count := Nat.pow_pos (by decide)
    have larger := Nat.le_mul_of_pos_right right positive
    omega
  · cases count with
    | zero =>
        omega
    | succ count =>
        have whole : 256 ∣ right := by
          rw [isRight, Nat.pow_succ, ← Nat.mul_assoc]
          exact Nat.dvd_mul_left 256 _
        have isZero := Nat.eq_zero_of_dvd_of_lt whole small
        omega

/-! ## The most significant digit first -/

/-- A number in that many bytes, the most significant one first. -/
def bigEndian : Nat → Nat → List UInt8
  | 0, _ => []
  | width + 1, value =>
      bigEndian width (value / 256) ++ [UInt8.ofNat (value % 256)]

/-- The number that bytes stand for, the most significant one first. -/
def bigEndianValue (bytes : List UInt8) : Nat :=
  digitsValue bytes.reverse

@[simp]
theorem bigEndian_length (width value : Nat) :
    (bigEndian width value).length = width := by
  induction width generalizing value with
  | zero =>
      rfl
  | succ width inductionHypothesis =>
      simp [bigEndian, inductionHypothesis]

theorem bigEndianValue_lt (bytes : List UInt8) :
    bigEndianValue bytes < 256 ^ bytes.length := by
  have bounded := digitsValue_lt bytes.reverse
  rwa [List.length_reverse] at bounded

theorem bigEndianValue_bigEndian {width value : Nat}
    (fits : value < 256 ^ width) :
    bigEndianValue (bigEndian width value) = value := by
  induction width generalizing value with
  | zero =>
      have isZero : value = 0 := by
        simpa using fits
      rw [isZero]
      rfl
  | succ width inductionHypothesis =>
      have front : value / 256 < 256 ^ width := by
        rw [pow_succ] at fits
        exact Nat.div_lt_of_lt_mul (by rwa [Nat.mul_comm])
      have digits := inductionHypothesis front
      unfold bigEndianValue at digits ⊢
      simp only [bigEndian, List.reverse_append, List.reverse_singleton,
        List.singleton_append, digitsValue_cons, digits, UInt8.toNat_ofNat']
      omega

end UoscoreUedhoc.PaddedDigits
