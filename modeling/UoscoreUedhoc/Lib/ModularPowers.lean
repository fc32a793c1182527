import Mathlib.Data.List.Prime
import Mathlib.NumberTheory.LegendreSymbol.Basic
import Mathlib.NumberTheory.LucasPrimality

/-!
# Powers modulo a number

A power modulo a number takes one multiplication for each bit of the exponent,
so that it can be computed for exponents of hundreds of bits.  With it Lucas's
test shows large numbers to be prime.  For a prime `p` with `p % 4 = 3` the
power with exponent `(p + 1) / 4` is a square root of each square, and of two
opposite roots exactly one is odd.
-/

namespace UoscoreUedhoc.ModularPowers

/-- `base ^ exponent % modulus` for an exponent of that many bits. -/
def powModBits (modulus : Nat) : Nat → Nat → Nat → Nat
  | 0, _, _ => 1 % modulus
  | bits + 1, base, exponent =>
      let half := powModBits modulus bits (base * base % modulus) (exponent / 2)
      if exponent % 2 = 0 then
        half
      else
        base * half % modulus

/-- `base ^ exponent % modulus`. -/
def powMod (modulus base exponent : Nat) : Nat :=
  powModBits modulus (exponent.log2 + 1) base exponent

theorem powModBits_eq (modulus bits base exponent : Nat)
    (small : exponent < 2 ^ bits) :
    powModBits modulus bits base exponent = base ^ exponent % modulus := by
  induction bits generalizing base exponent with
  | zero =>
      have isZero : exponent = 0 := by
        simpa using small
      simp [powModBits, isZero]
  | succ bits inductionHypothesis =>
      have halfSmall : exponent / 2 < 2 ^ bits := by
        rw [pow_succ] at small
        omega
      have half :
          powModBits modulus bits (base * base % modulus) (exponent / 2) =
            base ^ (2 * (exponent / 2)) % modulus := by
        rw [inductionHypothesis _ _ halfSmall, ← Nat.pow_mod, ← pow_two,
          ← pow_mul]
      simp only [powModBits, half]
      split
      · rename_i isEven
        rw [Nat.mul_div_cancel' (Nat.dvd_of_mod_eq_zero isEven)]
      · have parts : exponent = 2 * (exponent / 2) + 1 := by
          omega
        rw [Nat.mul_mod_mod, ← pow_succ', ← parts]

theorem powMod_eq (modulus base exponent : Nat) :
    powMod modulus base exponent = base ^ exponent % modulus :=
  powModBits_eq modulus _ base exponent Nat.lt_log2_self

theorem cast_powMod (modulus base exponent : Nat) :
    (powMod modulus base exponent : ZMod modulus) =
      (base : ZMod modulus) ^ exponent := by
  rw [powMod_eq, ZMod.natCast_mod, Nat.cast_pow]

theorem powMod_lt {modulus : Nat} (positive : 0 < modulus)
    (base exponent : Nat) : powMod modulus base exponent < modulus := by
  rw [powMod_eq]
  exact Nat.mod_lt _ positive

/-- The power of an integer, by way of its residue. -/
theorem powMod_residue {modulus : Nat} (positive : 0 < modulus) (base : Int)
    (exponent : Nat) :
    (powMod modulus (base % modulus).toNat exponent : Int) =
      base ^ exponent % modulus := by
  have nonneg : 0 ≤ base % (modulus : Int) :=
    Int.emod_nonneg _ (by omega)
  rw [powMod_eq, Int.natCast_mod, Nat.cast_pow, Int.toNat_of_nonneg nonneg]
  exact (Int.mod_modEq base modulus).pow exponent

theorem powMod_eq_one_iff {modulus : Nat} (atLeastTwo : 2 ≤ modulus)
    (base exponent : Nat) :
    powMod modulus base exponent = 1 ↔
      (base : ZMod modulus) ^ exponent = 1 := by
  have small := powMod_lt (by omega : 0 < modulus) base exponent
  rw [← cast_powMod]
  constructor
  · intro isOne
    rw [isOne, Nat.cast_one]
  · intro congruent
    rw [← Nat.cast_one, ZMod.natCast_eq_natCast_iff] at congruent
    exact Nat.ModEq.eq_of_lt_of_lt congruent small (by omega)

/-! ## Primes -/

/-- A number, a root and the prime factors of its predecessor. -/
structure LucasEntry where
  number : Nat
  root : Nat
  factors : List Nat

/-- Lucas's test with factors that are known to be prime. -/
structure LucasEntry.Passes (entry : LucasEntry) (known : List Nat) : Prop where
  atLeastTwo : 2 ≤ entry.number
  factors : ∀ factor ∈ entry.factors, factor ∈ known
  product : entry.factors.prod = entry.number - 1
  full : powMod entry.number entry.root (entry.number - 1) = 1
  proper : ∀ factor ∈ entry.factors,
    powMod entry.number entry.root ((entry.number - 1) / factor) ≠ 1

/-- Each entry passes with the primes known so far. -/
def Certified : List Nat → List LucasEntry → Prop
  | _, [] => True
  | known, entry :: rest =>
      entry.Passes known ∧ Certified (entry.number :: known) rest

instance lucasEntryPasses_decidable (entry : LucasEntry) (known : List Nat) :
    Decidable (entry.Passes known) :=
  decidable_of_iff
    (2 ≤ entry.number ∧ (∀ factor ∈ entry.factors, factor ∈ known) ∧
      entry.factors.prod = entry.number - 1 ∧
      powMod entry.number entry.root (entry.number - 1) = 1 ∧
      ∀ factor ∈ entry.factors,
        powMod entry.number entry.root ((entry.number - 1) / factor) ≠ 1)
    ⟨fun ⟨atLeastTwo, factors, product, full, proper⟩ =>
      ⟨atLeastTwo, factors, product, full, proper⟩,
      fun passes => ⟨passes.1, passes.2, passes.3, passes.4, passes.5⟩⟩

instance certified_decidable :
    ∀ (known : List Nat) (entries : List LucasEntry),
      Decidable (Certified known entries)
  | _, [] => isTrue trivial
  | known, entry :: rest =>
      @instDecidableAnd _ _ (lucasEntryPasses_decidable entry known)
        (certified_decidable (entry.number :: known) rest)

theorem LucasEntry.Passes.prime {entry : LucasEntry} {known : List Nat}
    (passes : entry.Passes known) (primes : ∀ q ∈ known, q.Prime) :
    entry.number.Prime := by
  apply lucas_primality entry.number (entry.root : ZMod entry.number)
  · exact (powMod_eq_one_iff passes.atLeastTwo _ _).mp passes.full
  · intro q isPrime divides
    have member : q ∈ entry.factors := by
      apply mem_list_primes_of_dvd_prod isPrime.prime
        (fun factor inFactors =>
          (primes factor (passes.factors factor inFactors)).prime)
      rwa [passes.product]
    rw [ne_eq, ← powMod_eq_one_iff passes.atLeastTwo]
    exact passes.proper q member

/-- From small primes a chain of entries leads to large ones. -/
theorem certified_prime {known : List Nat} {entries : List LucasEntry}
    (certified : Certified known entries) (primes : ∀ q ∈ known, q.Prime)
    {number : Nat} (member : number ∈ entries.map LucasEntry.number) :
    number.Prime := by
  induction entries generalizing known with
  | nil =>
      cases member
  | cons entry rest inductionHypothesis =>
      obtain ⟨passes, certifiedRest⟩ := certified
      have isPrime := passes.prime primes
      rcases List.mem_cons.mp member with rfl | inRest
      · exact isPrime
      · exact inductionHypothesis certifiedRest
          (List.forall_mem_cons.mpr ⟨isPrime, primes⟩) inRest

/-! ## Square roots -/

section

variable {p : Nat} [Fact p.Prime]

theorem root_of_square (threeModFour : p % 4 = 3) (s : ZMod p) :
    ((s ^ 2) ^ ((p + 1) / 4)) ^ 2 = s ^ 2 := by
  have exponent : 2 * ((p + 1) / 4 * 2) = p + 1 := by
    omega
  rw [← pow_mul, ← pow_mul, exponent, pow_succ, ZMod.pow_card, pow_two]

/-- The power squares to a square, and to nothing else. -/
theorem root_iff_isSquare (threeModFour : p % 4 = 3) (a : ZMod p) :
    (a ^ ((p + 1) / 4)) ^ 2 = a ↔ IsSquare a := by
  constructor
  · intro squares
    exact ⟨a ^ ((p + 1) / 4), by rw [← pow_two, squares]⟩
  · rintro ⟨s, rfl⟩
    rw [← pow_two]
    exact root_of_square threeModFour s

theorem eq_or_neg_of_sq_eq {a b : ZMod p} (same : a ^ 2 = b ^ 2) :
    a = b ∨ a = -b :=
  sq_eq_sq_iff_eq_or_eq_neg.mp same

/-- Among a root and its opposite the one with the right parity is chosen. -/
theorem chosen_root (isOdd : p % 2 = 1) {root y : Nat} (rootSmall : root < p)
    (ySmall : y < p) (yPositive : 0 < y)
    (sameSquare : (root : ZMod p) ^ 2 = (y : ZMod p) ^ 2) :
    (if root % 2 = y % 2 then root else p - root) = y := by
  rcases eq_or_neg_of_sq_eq sameSquare with same | opposite
  · have isRoot : root = y := by
      rw [ZMod.natCast_eq_natCast_iff', Nat.mod_eq_of_lt rootSmall,
        Nat.mod_eq_of_lt ySmall] at same
      exact same
    simp [isRoot]
  · have sum : p ∣ root + y := by
      rw [← ZMod.natCast_eq_zero_iff, Nat.cast_add, opposite, neg_add_cancel]
    have isSum : root + y = p :=
      Nat.eq_of_dvd_of_lt_two_mul (by omega) sum (by omega)
    rw [if_neg (by omega)]
    omega

end

end UoscoreUedhoc.ModularPowers
