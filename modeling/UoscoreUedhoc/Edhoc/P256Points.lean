import Mathlib.Data.Nat.Digits.Lemmas
import Mathlib.Tactic.NormNum.Prime
import UoscoreUedhoc.Edhoc.P256
import UoscoreUedhoc.Lib.CurvePoints
import UoscoreUedhoc.Lib.ModularPowers
import UoscoreUedhoc.Lib.PaddedDigits

/-!
# Compressed points

A group stands for the points of a curve over a prime field.  Without its sign
the second coordinate of a point can be computed from the first one, so that a
point is given by its first coordinate and the parity of the second one.
`mbedtls_ecp_decompress` gives the point back; what it makes of bytes that no
point has is not a point either.
-/

namespace UoscoreUedhoc.Edhoc

open UoscoreUedhoc
open UoscoreUedhoc.CurvePoints
open UoscoreUedhoc.ModularPowers
open UoscoreUedhoc.PaddedDigits
open WeierstrassCurve

/-! ## What MBEDTLS does with numbers -/

/-- `MBEDTLS_MPI_MAX_BITS`. -/
def mpiMaxBits : Nat := 8192

/-- A number of at most four times as many bits, which MBEDTLS holds as a
temporary result. -/
def IsTemporary (value : Int) : Prop :=
  value.natAbs < (2 ^ mpiMaxBits) ^ 4

/-- The behaviour of MBEDTLS on numbers: the arithmetic is exact, and powers are
computed for an odd modulus where modulus and exponent have no more than
`MBEDTLS_MPI_MAX_BITS` bits. -/
structure MbedtlsMpi.Documented (mpi : MbedtlsMpi) : Prop where
  size : ∀ value length : Nat,
    mpi.size value ≤ length ↔ value < 256 ^ length
  readBinary : ∀ bytes : Bytes, bytes.length ≤ mpiMaxBits / 8 →
    mpi.readBinary bytes = .ok (bigEndianValue bytes)
  mulMpi : ∀ left right : Int, IsTemporary left → IsTemporary right →
    mpi.mulMpi left right = .ok (left * right)
  addMpi : ∀ left right : Int, IsTemporary left → IsTemporary right →
    mpi.addMpi left right = .ok (left + right)
  subMpi : ∀ left right : Int, IsTemporary left → IsTemporary right →
    mpi.subMpi left right = .ok (left - right)
  addInt : ∀ left right : Int, IsTemporary left → IsTemporary right →
    mpi.addInt left right = .ok (left + right)
  subInt : ∀ left right : Int, IsTemporary left → IsTemporary right →
    mpi.subInt left right = .ok (left - right)
  shiftR : ∀ value count : Nat, IsTemporary value →
    mpi.shiftR value count = .ok (value / 2 ^ count : Nat)
  expMod : ∀ (base : Int) (exponent modulus : Nat), IsTemporary base →
    exponent < 2 ^ mpiMaxBits → modulus < 2 ^ mpiMaxBits →
    modulus % 2 = 1 →
    mpi.expMod base exponent modulus = .ok (base ^ exponent % modulus)
  getBit : ∀ value : Nat, IsTemporary value → mpi.getBit value 0 = value % 2
  writeBinary : ∀ value length : Nat, IsTemporary value →
    value < 256 ^ length →
    mpi.writeBinary value length = .ok (bigEndian length value)

theorem maxBits_bytes : 2 ^ mpiMaxBits = 256 ^ (mpiMaxBits / 8) := by
  have isByte : 256 = 2 ^ 8 := rfl
  have whole : mpiMaxBits = 8 * (mpiMaxBits / 8) := rfl
  rw [isByte, ← pow_mul, ← whole]

theorem four_le_maxBits : 4 ≤ 2 ^ mpiMaxBits :=
  calc
    4 = 2 ^ 2 := rfl
    _ ≤ 2 ^ mpiMaxBits := Nat.pow_le_pow_right (by omega) (by decide)

theorem isTemporary_of_le {value : Int} {bound : Nat}
    (small : value.natAbs ≤ bound) (fits : bound < (2 ^ mpiMaxBits) ^ 4) :
    IsTemporary value :=
  small.trans_lt fits

/-- A usable number is a temporary one. -/
theorem isTemporary_of_lt {value : Int} (small : value.natAbs < 2 ^ mpiMaxBits) :
    IsTemporary value := by
  refine isTemporary_of_le le_rfl (small.trans_le ?_)
  exact Nat.le_self_pow (by omega) _

theorem isTemporary_nat {value : Nat} (small : value < 2 ^ mpiMaxBits) :
    IsTemporary (value : Int) :=
  isTemporary_of_lt (by rwa [Int.natAbs_natCast])

theorem isTemporary_one : IsTemporary 1 :=
  isTemporary_of_lt (lt_of_lt_of_le (by decide) four_le_maxBits)

theorem isTemporary_next {value : Nat} (small : value < 2 ^ mpiMaxBits) :
    IsTemporary ((value + 1 : Nat) : Int) := by
  refine isTemporary_of_le le_rfl ?_
  rw [Int.natAbs_natCast]
  have grows : 2 ^ mpiMaxBits < (2 ^ mpiMaxBits) ^ 4 :=
    calc
      2 ^ mpiMaxBits = (2 ^ mpiMaxBits) ^ 1 := (pow_one _).symm
      _ < (2 ^ mpiMaxBits) ^ 4 :=
        Nat.pow_lt_pow_right (lt_of_lt_of_le (by omega) four_le_maxBits)
          (by omega)
  omega

/-! ## The points of a group -/

namespace EcpGroup

variable (grp : EcpGroup)

/-- The size of a coordinate. -/
def plen : Nat :=
  (Nat.digits 256 grp.p).length

/-- `x^3 + ax + b`, where an `a` that is not there stands for -3. -/
def ySquared (x : Nat) : Int :=
  let r : Int := x * x
  let r := match grp.a with
    | none => r - 3
    | some a => r + a
  r * x + grp.b

/-- The numbers of the group have no more than `MBEDTLS_MPI_MAX_BITS` bits. -/
structure WithinBits : Prop where
  p : grp.p < 2 ^ mpiMaxBits
  a : ∀ a ∈ grp.a, a < 2 ^ mpiMaxBits
  b : grp.b < 2 ^ mpiMaxBits

theorem lt_pow_plen : grp.p < 256 ^ grp.plen :=
  Nat.lt_base_pow_length_digits (by omega)

variable {grp}

theorem WithinBits.plen_le (bits : grp.WithinBits) :
    grp.plen ≤ mpiMaxBits / 8 := by
  unfold plen
  rw [Nat.digits_length_le_iff (by omega), ← maxBits_bytes]
  exact bits.p

/-- What is read as a coordinate. -/
theorem WithinBits.coordinate_lt (bits : grp.WithinBits) {x : Bytes}
    (length : x.length = grp.plen) : bigEndianValue x < 2 ^ mpiMaxBits := by
  refine (bigEndianValue_lt x).trans_le ?_
  rw [length, maxBits_bytes]
  exact Nat.pow_le_pow_right (by omega) bits.plen_le

variable (grp)

variable [Fact grp.p.Prime]

/-- The curve of the group. -/
def curve : Affine (ZMod grp.p) :=
  shortCurve (grp.a.elim (-3) (fun a => (a : ZMod grp.p))) grp.b

/-- The fixed-width bytes of an element of the field. -/
def fieldBytes (x : ZMod grp.p) : Bytes :=
  bigEndian grp.plen x.val

/-- A point as PSA gives and takes it, which the point at infinity is not. -/
def encodePoint : grp.curve.Point → Option Bytes
  | .zero => none
  | .some x y _ => some (4 :: grp.fieldBytes x ++ grp.fieldBytes y)

/-- A point as EDHOC sends it. -/
def compressPoint : grp.curve.Point → Option Bytes
  | .zero => none
  | .some x y _ => some ((if y.val % 2 = 0 then 2 else 3) :: grp.fieldBytes x)

end EcpGroup

section

variable {grp : EcpGroup} [Fact grp.p.Prime]

theorem cast_ySquared (x : Nat) :
    (grp.ySquared x : ZMod grp.p) =
      (x : ZMod grp.p) ^ 3 +
        grp.a.elim (-3) (fun a => (a : ZMod grp.p)) * x + grp.b := by
  unfold EcpGroup.ySquared
  cases grp.a with
  | none =>
      simp only [Option.elim_none]
      push_cast
      ring
  | some a =>
      simp only [Option.elim_some]
      push_cast
      ring

theorem curve_nonsingular (discriminant : grp.curve.Δ ≠ 0) (x : Nat)
    (y : ZMod grp.p) :
    grp.curve.Nonsingular x y ↔ y ^ 2 = (grp.ySquared x : ZMod grp.p) := by
  rw [cast_ySquared]
  exact shortCurve_nonsingular discriminant _ _

omit [Fact grp.p.Prime] in
theorem fieldBytes_length (x : ZMod grp.p) :
    (grp.fieldBytes x).length = grp.plen :=
  bigEndian_length _ _

theorem value_fieldBytes (x : ZMod grp.p) :
    bigEndianValue (grp.fieldBytes x) = x.val :=
  bigEndianValue_bigEndian (x.val_lt.trans grp.lt_pow_plen)

end

/-! ## What decompression computes -/

theorem equation_lt {bound x a b : Nat} (large : 4 ≤ bound)
    (xFits : x < bound) (aFits : a < bound) (bFits : b < bound) :
    (x * x + a) * x + b < bound ^ 4 := by
  have square : x * x + a ≤ 2 * (bound * bound) := by
    nlinarith
  have cube : (x * x + a) * x ≤ 2 * (bound * bound) * bound :=
    Nat.mul_le_mul square xFits.le
  have last : b ≤ bound * bound * bound := by
    nlinarith
  calc
    (x * x + a) * x + b ≤ 3 * (bound * bound * bound) := by
      linarith
    _ < 4 * (bound * bound * bound) := by
      have positive : 0 < bound * bound * bound := by
        positivity
      omega
    _ ≤ bound * (bound * bound * bound) := Nat.mul_le_mul_right _ large
    _ = bound ^ 4 := by
      ring

section

variable {mpi : MbedtlsMpi} {grp : EcpGroup} (documented : mpi.Documented)
  (bits : grp.WithinBits)

theorem MbedtlsMpi.Documented.size_eq (documented : mpi.Documented)
    (grp : EcpGroup) : mpi.size grp.p = grp.plen := by
  apply Nat.le_antisymm
  · exact (documented.size _ _).mpr grp.lt_pow_plen
  · unfold EcpGroup.plen
    rw [Nat.digits_length_le_iff (by omega)]
    exact (documented.size _ _).mp le_rfl

include documented bits

/-- No step of the equation leaves the temporary numbers. -/
theorem ecpEquation_eq {x : Nat} (small : x < 2 ^ mpiMaxBits) :
    ecpEquation mpi grp x = .ok (grp.ySquared x) ∧
      IsTemporary (grp.ySquared x) := by
  have xTemporary : IsTemporary (x : Int) := isTemporary_nat small
  have bTemporary : IsTemporary (grp.b : Int) := isTemporary_nat bits.b
  have within : ∀ {r : Int} {a : Nat}, a < 2 ^ mpiMaxBits →
      r.natAbs ≤ x * x + a →
      IsTemporary r ∧ IsTemporary (r * x) ∧ IsTemporary (r * x + grp.b) := by
    intro r a aFits rLe
    have fits := equation_lt four_le_maxBits small aFits bits.b
    have rxLe : (r * x).natAbs ≤ (x * x + a) * x := by
      rw [Int.natAbs_mul, Int.natAbs_natCast]
      exact Nat.mul_le_mul_right _ rLe
    have allLe : (r * x + grp.b).natAbs ≤ (x * x + a) * x + grp.b := by
      refine (Int.natAbs_add_le _ _).trans ?_
      rw [Int.natAbs_natCast]
      omega
    refine ⟨?_, isTemporary_of_le rxLe (by omega),
      isTemporary_of_le allLe fits⟩
    have square := equation_lt four_le_maxBits small aFits bits.b
    by_cases isZero : x = 0
    · subst isZero
      exact isTemporary_of_lt (by omega)
    · refine isTemporary_of_le rLe ?_
      have positive : 0 < x := Nat.pos_of_ne_zero isZero
      have grows := Nat.le_mul_of_pos_right (x * x + a) positive
      omega
  have squareLe : ((x : Int) * x).natAbs ≤ x * x + 0 := by
    rw [Int.natAbs_mul, Int.natAbs_natCast]
    exact le_rfl
  have zeroFits : 0 < 2 ^ mpiMaxBits := by
    have large := four_le_maxBits
    omega
  have squareTemporary := (within zeroFits squareLe).1
  unfold ecpEquation EcpGroup.ySquared
  rw [documented.mulMpi _ _ xTemporary xTemporary]
  cases isA : grp.a with
  | none =>
      have threeFits : 3 < 2 ^ mpiMaxBits := by
        have large := four_le_maxBits
        omega
      have threeTemporary : IsTemporary 3 := isTemporary_of_lt threeFits
      obtain ⟨rTemporary, rxTemporary, isTemporary⟩ :=
        @within ((x : Int) * x - 3) 3 threeFits (by omega)
      refine ⟨?_, isTemporary⟩
      simp only [bind, Except.bind,
        documented.subInt _ _ squareTemporary threeTemporary,
        documented.mulMpi _ _ rTemporary xTemporary,
        documented.addMpi _ _ rxTemporary bTemporary]
  | some a =>
      have aFits := bits.a a isA
      have aTemporary : IsTemporary (a : Int) := isTemporary_nat aFits
      obtain ⟨rTemporary, rxTemporary, isTemporary⟩ :=
        @within ((x : Int) * x + a) a aFits (by omega)
      refine ⟨?_, isTemporary⟩
      simp only [bind, Except.bind,
        documented.addMpi _ _ squareTemporary aTemporary,
        documented.mulMpi _ _ rTemporary xTemporary,
        documented.addMpi _ _ rxTemporary bTemporary]

end

/-- The input has a prefix of a compressed point and the right length. -/
def IsCompressed (grp : EcpGroup) (input : Bytes) : Prop :=
  input.length = grp.plen + 1 ∧
    (input.head? = some 2 ∨ input.head? = some 3)

/-- The root that is computed for a first coordinate. -/
def computedRoot (grp : EcpGroup) (x : Nat) : Nat :=
  powMod grp.p (grp.ySquared x % grp.p).toNat ((grp.p + 1) / 4)

/-- The second coordinate that is written. -/
def secondCoordinate (grp : EcpGroup) (tag : UInt8) (x : Nat) : Nat :=
  if (tag = 3) ≠ (computedRoot grp x % 2 = 1) then
    grp.p - computedRoot grp x
  else
    computedRoot grp x

section

variable {grp : EcpGroup}

theorem isCompressed_iff {input : Bytes} :
    IsCompressed grp input ↔
      ∃ tag x, input = tag :: x ∧ x.length = grp.plen ∧
        (tag = 2 ∨ tag = 3) := by
  cases input with
  | nil =>
      simp [IsCompressed]
  | cons tag x =>
      simp [IsCompressed]

theorem computedRoot_lt (threeModFour : grp.p % 4 = 3) (x : Nat) :
    computedRoot grp x < grp.p :=
  powMod_lt (by omega) _ _

theorem secondCoordinate_le (threeModFour : grp.p % 4 = 3) (tag : UInt8)
    (x : Nat) : secondCoordinate grp tag x ≤ grp.p := by
  have small := computedRoot_lt threeModFour x
  unfold secondCoordinate
  split <;> omega

theorem parity_differs (tag : UInt8) (root : Nat) :
    (¬ (if tag = 3 then 1 else 0) = root % 2) ↔
      ((tag = 3) ≠ (root % 2 = 1)) := by
  by_cases isThree : tag = 3
  · simp [isThree]
    omega
  · simp [isThree]
    omega

/-- The prefix tells the parity of what is written. -/
theorem secondCoordinate_parity (threeModFour : grp.p % 4 = 3) (tag : UInt8)
    (x : Nat) : secondCoordinate grp tag x % 2 = 1 ↔ tag = 3 := by
  have small := computedRoot_lt threeModFour x
  unfold secondCoordinate
  by_cases isThree : tag = 3
  · by_cases isOdd : computedRoot grp x % 2 = 1
    · simp [isThree, isOdd]
    · simp only [isThree, isOdd, ne_eq, eq_iff_iff, iff_false, not_true_eq_false,
        not_false_eq_true, if_true, iff_true]
      omega
  · by_cases isOdd : computedRoot grp x % 2 = 1
    · simp only [isThree, isOdd, ne_eq, eq_iff_iff, iff_true, not_false_eq_true,
        if_true, iff_false]
      omega
    · simp [isThree, isOdd]

section

variable {mpi : MbedtlsMpi} (documented : mpi.Documented)
  (bits : grp.WithinBits)

include documented bits

/-- The root that MBEDTLS computes. -/
theorem expMod_eq (threeModFour : grp.p % 4 = 3) {x : Nat}
    (temporary : IsTemporary (grp.ySquared x)) :
    mpi.expMod (grp.ySquared x) ((grp.p + 1) / 4 : Nat) grp.p =
      .ok (computedRoot grp x) := by
  have small : (grp.p + 1) / 4 < 2 ^ mpiMaxBits := by
    have fits := bits.p
    omega
  rw [documented.expMod _ _ _ temporary small bits.p (by omega)]
  unfold computedRoot
  rw [powMod_residue (by omega)]

theorem ecpDecompress_eq (threeModFour : grp.p % 4 = 3) {tag : UInt8}
    {x : Bytes} {osize : Nat} (room : 2 * grp.plen + 1 ≤ osize)
    (length : x.length = grp.plen) (isTag : tag = 2 ∨ tag = 3) :
    mbedtlsEcpDecompress mpi grp (tag :: x) osize =
      .ok (4 :: x ++
        bigEndian grp.plen (secondCoordinate grp tag (bigEndianValue x))) := by
  have rootLt := computedRoot_lt threeModFour (bigEndianValue x)
  have pTemporary : IsTemporary (grp.p : Int) := isTemporary_nat bits.p
  have rootTemporary :
      IsTemporary (computedRoot grp (bigEndianValue x) : Int) :=
    isTemporary_nat (rootLt.trans bits.p)
  have secondLe := secondCoordinate_le threeModFour tag (bigEndianValue x)
  have written := documented.writeBinary _ _
    (isTemporary_nat (secondLe.trans_lt bits.p))
    (secondLe.trans_lt grp.lt_pow_plen)
  obtain ⟨equation, temporary⟩ :=
    ecpEquation_eq documented bits (bits.coordinate_lt length)
  have tagFits : ¬ (tag ≠ 2 ∧ tag ≠ 3) := by
    rcases isTag with rfl | rfl <;> simp
  have next : mpi.addInt grp.p 1 = .ok ((grp.p + 1 : Nat) : Int) := by
    rw [documented.addInt _ _ pTemporary isTemporary_one]
    rfl
  have quarter : mpi.shiftR ((grp.p + 1 : Nat) : Int) 2 =
      .ok (((grp.p + 1) / 4 : Nat) : Int) :=
    documented.shiftR _ _ (isTemporary_next bits.p)
  unfold mbedtlsEcpDecompress
  simp only [documented.size_eq, List.head?_cons, List.tail_cons,
    List.length_cons, length, ne_eq, not_true_eq_false, if_false,
    Option.some.injEq, Nat.not_lt.mpr room]
  rw [if_neg tagFits,
    documented.readBinary x (by rw [length]; exact bits.plen_le)]
  simp only [bind, Except.bind, equation, next, quarter,
    expMod_eq documented bits threeModFour temporary,
    documented.getBit _ rootTemporary,
    documented.subMpi _ _ pTemporary rootTemporary]
  rw [if_congr (parity_differs tag _) rfl rfl]
  -- both branches write the second coordinate
  by_cases differs : (tag = 3) ≠ (computedRoot grp (bigEndianValue x) % 2 = 1)
  · have isSecond : secondCoordinate grp tag (bigEndianValue x) =
        grp.p - computedRoot grp (bigEndianValue x) :=
      if_pos differs
    rw [if_pos differs, ← Nat.cast_sub rootLt.le, ← isSecond, written]
  · have isSecond : secondCoordinate grp tag (bigEndianValue x) =
        computedRoot grp (bigEndianValue x) :=
      if_neg differs
    rw [if_neg differs, ← isSecond, written]

/-- Nothing but the prefix and the lengths is checked. -/
theorem ecpDecompress_eq_ok (threeModFour : grp.p % 4 = 3) {input : Bytes}
    {osize : Nat} {output : Bytes} :
    mbedtlsEcpDecompress mpi grp input osize = .ok output ↔
      2 * grp.plen + 1 ≤ osize ∧
        ∃ tag x, input = tag :: x ∧ x.length = grp.plen ∧
          (tag = 2 ∨ tag = 3) ∧
          output = 4 :: x ++
            bigEndian grp.plen
              (secondCoordinate grp tag (bigEndianValue x)) := by
  constructor
  · intro decompressed
    have room : 2 * grp.plen + 1 ≤ osize := by
      by_contra noRoom
      unfold mbedtlsEcpDecompress at decompressed
      simp only [documented.size_eq] at decompressed
      rw [if_pos (by omega)] at decompressed
      cases decompressed
    have compressed : IsCompressed grp input := by
      unfold mbedtlsEcpDecompress at decompressed
      simp only [documented.size_eq] at decompressed
      rw [if_neg (by omega)] at decompressed
      split at decompressed
      · cases decompressed
      · rename_i length
        split at decompressed
        · cases decompressed
        · rename_i isTag
          exact ⟨not_not.mp length, by tauto⟩
    obtain ⟨tag, x, rfl, length, isTag⟩ := isCompressed_iff.mp compressed
    rw [ecpDecompress_eq documented bits threeModFour room length isTag]
      at decompressed
    exact ⟨room, tag, x, rfl, length, isTag, (Except.ok.inj decompressed).symm⟩
  · rintro ⟨room, tag, x, rfl, length, isTag, rfl⟩
    exact ecpDecompress_eq documented bits threeModFour room length isTag

end

variable [Fact grp.p.Prime]

theorem cast_computedRoot (x : Nat) :
    (computedRoot grp x : ZMod grp.p) =
      (grp.ySquared x : ZMod grp.p) ^ ((grp.p + 1) / 4) := by
  have positive : (0 : Int) < grp.p := by
    exact_mod_cast (Fact.out : grp.p.Prime).pos
  have residue : (((grp.ySquared x % grp.p).toNat : Nat) : ZMod grp.p) =
      (grp.ySquared x : ZMod grp.p) := by
    rw [← Int.cast_natCast, Int.toNat_of_nonneg
      (Int.emod_nonneg _ positive.ne'), ZMod.intCast_mod]
  unfold computedRoot
  rw [cast_powMod, residue]

theorem secondCoordinate_sq (threeModFour : grp.p % 4 = 3) (tag : UInt8)
    (x : Nat) :
    (secondCoordinate grp tag x : ZMod grp.p) ^ 2 =
      ((grp.ySquared x : ZMod grp.p) ^ ((grp.p + 1) / 4)) ^ 2 := by
  have small := computedRoot_lt threeModFour x
  rw [← cast_computedRoot]
  unfold secondCoordinate
  split
  · rw [Nat.cast_sub small.le, ZMod.natCast_self, zero_sub, neg_sq]
  · rfl

/-- What is written is the second coordinate of a point whenever there is a
point with that first coordinate. -/
theorem secondCoordinate_onCurve (threeModFour : grp.p % 4 = 3) (tag : UInt8)
    (x : Nat) :
    (secondCoordinate grp tag x : ZMod grp.p) ^ 2 =
        (grp.ySquared x : ZMod grp.p) ↔
      IsSquare (grp.ySquared x : ZMod grp.p) := by
  rw [secondCoordinate_sq threeModFour]
  exact root_iff_isSquare threeModFour _

theorem point_equation {x y : ZMod grp.p}
    (onCurve : grp.curve.Nonsingular x y) :
    (grp.ySquared x.val : ZMod grp.p) = y ^ 2 := by
  have equation := (shortCurve_equation _ _ x y).mp onCurve.1
  rw [cast_ySquared, ZMod.natCast_zmod_val, ← equation]

/-- The second coordinate of a point is found by its parity. -/
theorem secondCoordinate_of_point (threeModFour : grp.p % 4 = 3)
    {x y : ZMod grp.p} (onCurve : grp.curve.Nonsingular x y) :
    secondCoordinate grp (if y.val % 2 = 0 then 2 else 3) x.val = y.val := by
  have small := computedRoot_lt threeModFour x.val
  have sameSquare : (computedRoot grp x.val : ZMod grp.p) ^ 2 =
      ((y.val : Nat) : ZMod grp.p) ^ 2 := by
    rw [cast_computedRoot, point_equation onCurve,
      root_of_square threeModFour, ZMod.natCast_zmod_val]
  rcases Nat.eq_zero_or_pos y.val with isZero | positive
  · have rootZero : computedRoot grp x.val = 0 := by
      rw [isZero, Nat.cast_zero, zero_pow (by omega), sq_eq_zero_iff,
        ZMod.natCast_eq_zero_iff] at sameSquare
      exact Nat.eq_zero_of_dvd_of_lt sameSquare small
    simp [secondCoordinate, rootZero, isZero]
  · have parities :
        (((if y.val % 2 = 0 then 2 else 3 : UInt8) = 3) ≠
            (computedRoot grp x.val % 2 = 1)) ↔
          ¬ computedRoot grp x.val % 2 = y.val % 2 := by
      by_cases isEven : y.val % 2 = 0
      · simp [isEven]
      · simp [isEven]
        omega
    unfold secondCoordinate
    rw [if_congr parities rfl rfl, ite_not]
    exact chosen_root (by omega) small y.val_lt positive sameSquare

theorem encodePoint_some {x y : ZMod grp.p}
    (onCurve : grp.curve.Nonsingular x y) {first : Bytes}
    (length : first.length = grp.plen) {second : Nat}
    (fits : second < 256 ^ grp.plen) :
    grp.encodePoint (.some x y onCurve) =
        some (4 :: first ++ bigEndian grp.plen second) ↔
      grp.fieldBytes x = first ∧ y.val = second := by
  simp only [EcpGroup.encodePoint, Option.some.injEq, List.cons_append,
    List.cons.injEq, true_and]
  constructor
  · intro same
    obtain ⟨sameFirst, sameSecond⟩ :=
      List.append_inj same (by rw [fieldBytes_length, length])
    refine ⟨sameFirst, ?_⟩
    rw [← value_fieldBytes, sameSecond, bigEndianValue_bigEndian fits]
  · rintro ⟨rfl, rfl⟩
    rfl

/-- Decompression gives back the compressed points and no others. -/
theorem ecpDecompress_encodes {mpi : MbedtlsMpi}
    (documented : mpi.Documented) (bits : grp.WithinBits)
    (threeModFour : grp.p % 4 = 3) {input : Bytes} {osize : Nat}
    (P : grp.curve.Point) :
    (∃ output, mbedtlsEcpDecompress mpi grp input osize = .ok output ∧
        grp.encodePoint P = some output) ↔
      2 * grp.plen + 1 ≤ osize ∧ grp.compressPoint P = some input := by
  have fits (tag : UInt8) (x : Nat) :
      secondCoordinate grp tag x < 256 ^ grp.plen :=
    (secondCoordinate_le threeModFour tag x).trans_lt grp.lt_pow_plen
  cases P with
  | zero =>
      simp [EcpGroup.encodePoint, EcpGroup.compressPoint]
  | some x y onCurve =>
      constructor
      · rintro ⟨output, decompressed, encodes⟩
        obtain ⟨room, tag, first, rfl, length, isTag, rfl⟩ :=
          (ecpDecompress_eq_ok documented bits threeModFour).mp decompressed
        obtain ⟨isFirst, isSecond⟩ :=
          (encodePoint_some onCurve length (fits _ _)).mp encodes
        have parity := secondCoordinate_parity threeModFour tag
          (bigEndianValue first)
        rw [← isSecond] at parity
        refine ⟨room, ?_⟩
        simp only [EcpGroup.compressPoint, isFirst]
        rcases isTag with rfl | rfl
        · have isEven : y.val % 2 = 0 := by
            have notOdd : ¬ y.val % 2 = 1 := by
              simp [parity]
            omega
          simp [isEven]
        · have isOdd : y.val % 2 = 1 := parity.mpr rfl
          simp [isOdd]
      · rintro ⟨room, compressed⟩
        have isInput := Option.some.inj compressed
        subst isInput
        refine ⟨_, ecpDecompress_eq documented bits threeModFour room (fieldBytes_length x)
          (by split <;> simp), ?_⟩
        rw [encodePoint_some onCurve (fieldBytes_length x) (fits _ _),
          value_fieldBytes]
        exact ⟨rfl, (secondCoordinate_of_point threeModFour onCurve).symm⟩

end

/-! ## The prime of P-256 -/

/-- The parameters of P-256. -/
def secp256r1 : EcpGroup where
  p := 0xFFFFFFFF00000001000000000000000000000000FFFFFFFFFFFFFFFFFFFFFFFF
  a := none
  b := 0x5AC635D8AA3A93E7B3EBBD55769886BC651D06B0CC53B0F63BCE3C3E27D2604B

theorem secp256r1_withinBits : secp256r1.WithinBits where
  p := lt_of_lt_of_le (by decide : secp256r1.p < 2 ^ 256)
    (Nat.pow_le_pow_right (by omega) (by decide))
  a := by
    intro a isA
    cases isA
  b := lt_of_lt_of_le (by decide : secp256r1.b < 2 ^ 256)
    (Nat.pow_le_pow_right (by omega) (by decide))

def smallPrimes : List Nat :=
  [2, 3, 5, 7, 17, 23, 53, 173, 197, 257, 641, 1531, 2411, 3677, 18169, 65537,
    78283, 490463, 704251, 6700417, 204061199]

/-- The primes on which the one of P-256 rests. -/
def secp256r1Entries : List LucasEntry :=
  [ ⟨34282281433, 17, [2, 2, 2, 3, 7, 204061199]⟩,
    ⟨66417393611, 6, [2, 5, 53, 173, 197, 3677]⟩,
    ⟨11290956913871, 13, [2, 5, 17, 66417393611]⟩,
    ⟨46076956964474543, 5, [2, 23, 18169, 78283, 704251]⟩,
    ⟨774023187263532362759620327192479577272145303, 3,
      [2, 3, 3, 2411, 34282281433, 11290956913871, 46076956964474543]⟩,
    ⟨835945042244614951780389953367877943453916927241, 11,
      [2, 2, 2, 3, 3, 3, 5, 774023187263532362759620327192479577272145303]⟩,
    ⟨secp256r1.p, 6,
      [2, 3, 5, 5, 17, 257, 641, 1531, 65537, 490463, 6700417,
        835945042244614951780389953367877943453916927241]⟩ ]

theorem smallPrimes_prime : ∀ q ∈ smallPrimes, q.Prime := by
  simp only [smallPrimes, List.forall_mem_cons, List.not_mem_nil]
  norm_num

theorem secp256r1_prime : secp256r1.p.Prime := by
  have certified : Certified smallPrimes secp256r1Entries := by
    decide +kernel
  exact certified_prime certified smallPrimes_prime
    (by simp [secp256r1Entries])

instance secp256r1_fact : Fact secp256r1.p.Prime :=
  ⟨secp256r1_prime⟩

/-! ## The base point of P-256 -/

def baseX : Nat :=
  0x6B17D1F2E12C4247F8BCE6E563A440F277037D812DEB33A0F4A13945D898C296

def baseY : Nat :=
  0x4FE342E2FE1A7F9B8EE7EB4A7C0F9E162BCE33576B315ECECBB6406837BF51F5

theorem secp256r1_discriminant : secp256r1.curve.Δ ≠ 0 := by
  decide +kernel

theorem base_onCurve : secp256r1.curve.Nonsingular baseX baseY := by
  rw [curve_nonsingular secp256r1_discriminant]
  decide +kernel

def basePoint : secp256r1.curve.Point :=
  .some baseX baseY base_onCurve

/-! ## Compression and decompression -/

/-- `mbedtls_ecp_decompress` succeeds for every prefix of a compressed point
and every first coordinate.  It inverts the compression of the points, and only
a first coordinate that no point has leads to something else than a point. -/
theorem ecpDecompress_inverts (mpi : MbedtlsMpi) (documented : mpi.Documented)
    (grp : EcpGroup) [Fact grp.p.Prime] (bits : grp.WithinBits)
    (threeModFour : grp.p % 4 = 3) (input : Bytes) (osize : Nat) :
    ((∃ output, mbedtlsEcpDecompress mpi grp input osize = .ok output) ↔
        2 * grp.plen + 1 ≤ osize ∧ IsCompressed grp input) ∧
      (∀ P : grp.curve.Point,
        (∃ output, mbedtlsEcpDecompress mpi grp input osize = .ok output ∧
            grp.encodePoint P = some output) ↔
          2 * grp.plen + 1 ≤ osize ∧ grp.compressPoint P = some input) ∧
      ∀ output, mbedtlsEcpDecompress mpi grp input osize = .ok output →
        ∃ y ≤ grp.p, output = 4 :: input.tail ++ bigEndian grp.plen y ∧
          (y % 2 = 1 ↔ input.head? = some 3) ∧
          ((y : ZMod grp.p) ^ 2 =
              (grp.ySquared (bigEndianValue input.tail) : ZMod grp.p) ↔
            IsSquare
              (grp.ySquared (bigEndianValue input.tail) : ZMod grp.p)) := by
  refine ⟨?_, ?_, ?_⟩
  · constructor
    · rintro ⟨output, decompressed⟩
      obtain ⟨room, tag, x, isInput, length, isTag, _⟩ :=
        (ecpDecompress_eq_ok documented bits threeModFour).mp decompressed
      exact ⟨room, isCompressed_iff.mpr ⟨tag, x, isInput, length, isTag⟩⟩
    · rintro ⟨room, compressed⟩
      obtain ⟨tag, x, rfl, length, isTag⟩ := isCompressed_iff.mp compressed
      exact
        ⟨_, ecpDecompress_eq documented bits threeModFour room length isTag⟩
  · exact fun P => ecpDecompress_encodes documented bits threeModFour P
  · intro output decompressed
    obtain ⟨_, tag, x, rfl, _, _, rfl⟩ :=
      (ecpDecompress_eq_ok documented bits threeModFour).mp decompressed
    refine ⟨_, secondCoordinate_le threeModFour tag (bigEndianValue x), rfl,
      ?_, secondCoordinate_onCurve threeModFour tag _⟩
    rw [secondCoordinate_parity threeModFour, List.head?_cons,
      Option.some.injEq]

/-! ## Numbers that are integers -/

/-- Integers with the checks that MBEDTLS makes on a power. -/
def integerMpi : MbedtlsMpi where
  size value := (Nat.digits 256 value.natAbs).length
  readBinary bytes := .ok (bigEndianValue bytes)
  mulMpi left right := .ok (left * right)
  addMpi left right := .ok (left + right)
  subMpi left right := .ok (left - right)
  addInt left right := .ok (left + right)
  subInt left right := .ok (left - right)
  shiftR value count := .ok (value.toNat >>> count : Nat)
  expMod base exponent modulus :=
    if modulus % 2 = 1 ∧ 0 < modulus ∧ 0 ≤ exponent ∧
        exponent.natAbs.log2 < mpiMaxBits ∧
        modulus.natAbs.log2 < mpiMaxBits then
      .ok
        (powMod modulus.toNat (base % modulus).toNat exponent.toNat : Nat)
    else
      .error (.mpi (-4))
  getBit value position := value.toNat >>> position % 2
  writeBinary value length :=
    if value.natAbs < 256 ^ length then
      .ok (bigEndian length value.natAbs)
    else
      .error (.mpi (-8))

theorem log2_lt_maxBits {value : Nat} (fits : value < 2 ^ mpiMaxBits) :
    value.log2 < mpiMaxBits := by
  by_cases isZero : value = 0
  · rw [isZero]
    decide
  · exact (Nat.log2_lt isZero).mpr fits

theorem integerMpi_documented : integerMpi.Documented where
  size value length := by
    simp only [integerMpi, Int.natAbs_natCast]
    exact Nat.digits_length_le_iff (by omega) value
  readBinary _ _ := rfl
  mulMpi _ _ _ _ := rfl
  addMpi _ _ _ _ := rfl
  subMpi _ _ _ _ := rfl
  addInt _ _ _ _ := rfl
  subInt _ _ _ _ := rfl
  shiftR value count _ := by
    simp only [integerMpi, Int.toNat_natCast, Nat.shiftRight_eq_div_pow]
  expMod base exponent modulus _ exponentFits modulusFits isOdd := by
    have accepted : ((modulus : Int) % 2 = 1 ∧ (0 : Int) < modulus ∧
        (0 : Int) ≤ exponent ∧ (exponent : Int).natAbs.log2 < mpiMaxBits ∧
        (modulus : Int).natAbs.log2 < mpiMaxBits) := by
      refine ⟨by omega, by omega, by omega, ?_, ?_⟩
      · rw [Int.natAbs_natCast]
        exact log2_lt_maxBits exponentFits
      · rw [Int.natAbs_natCast]
        exact log2_lt_maxBits modulusFits
    simp only [integerMpi, if_pos accepted, Int.toNat_natCast]
    rw [powMod_residue (by omega)]
  getBit value _ := by
    simp [integerMpi]
  writeBinary value length _ fits := by
    simp only [integerMpi, Int.natAbs_natCast, if_pos fits]

theorem ecpDecompress_inverts_base :
    ∃ output,
      mbedtlsEcpDecompress integerMpi secp256r1 (3 :: bigEndian 32 baseX) 65 =
          .ok output ∧
        secp256r1.encodePoint basePoint = some output :=
  ((ecpDecompress_inverts integerMpi integerMpi_documented secp256r1
      secp256r1_withinBits rfl (3 :: bigEndian 32 baseX) 65).2.1
    basePoint).mpr ⟨by decide, by decide +kernel⟩

end UoscoreUedhoc.Edhoc
