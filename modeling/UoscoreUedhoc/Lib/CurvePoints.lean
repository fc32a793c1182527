import Mathlib.AlgebraicGeometry.EllipticCurve.Affine.Point

/-!
# Coordinates of points of elliptic curves

A point and its opposite have the same first coordinate, and so have all their
multiples.  That is why two parties that exchange first coordinates only agree
on the first coordinate of a common multiple.
-/

namespace UoscoreUedhoc.CurvePoints

open WeierstrassCurve

section

variable {F : Type} [Field F]

/-- The curve `y ^ 2 = x ^ 3 + a * x + b`. -/
def shortCurve (a b : F) : Affine F :=
  ⟨0, 0, 0, a, b⟩

theorem shortCurve_equation (a b x y : F) :
    (shortCurve a b).Equation x y ↔ y ^ 2 = x ^ 3 + a * x + b := by
  rw [Affine.equation_iff]
  simp [shortCurve]

theorem shortCurve_negY (a b x y : F) : (shortCurve a b).negY x y = -y := by
  simp [Affine.negY, shortCurve]

theorem shortCurve_nonsingular {a b : F}
    (discriminant : (shortCurve a b).Δ ≠ 0) (x y : F) :
    (shortCurve a b).Nonsingular x y ↔ y ^ 2 = x ^ 3 + a * x + b := by
  rw [← Affine.equation_iff_nonsingular_of_Δ_ne_zero discriminant]
  exact shortCurve_equation a b x y

/-- The first coordinate of a point other than the point at infinity. -/
def xCoordinate {W : Affine F} : W.Point → Option F
  | .zero => none
  | .some x _ _ => some x

end

section

variable {F : Type} [Field F] {W : Affine F}

theorem xCoordinate_eq_none {P : W.Point} : xCoordinate P = none ↔ P = 0 := by
  cases P with
  | zero =>
      simp [xCoordinate, Affine.Point.zero_def]
  | some x y onCurve =>
      simp [xCoordinate, Affine.Point.some_ne_zero]

theorem xCoordinate_neg (P : W.Point) : xCoordinate (-P) = xCoordinate P := by
  cases P with
  | zero =>
      rfl
  | some x y onCurve =>
      rfl

/-- The first coordinate leaves only the sign open. -/
theorem xCoordinate_eq_iff {P Q : W.Point} :
    xCoordinate P = xCoordinate Q ↔ P = Q ∨ P = -Q := by
  constructor
  · intro same
    cases P with
    | zero =>
        left
        have isZero : Q = 0 := xCoordinate_eq_none.mp same.symm
        rw [isZero, Affine.Point.zero_def]
    | some x y onCurve =>
        cases Q with
        | zero =>
            cases same
        | some x' y' onCurve' =>
            exact Affine.Point.X_eq_iff.mp (Option.some.inj same)
  · rintro (rfl | rfl)
    · rfl
    · exact xCoordinate_neg Q

variable [DecidableEq F]

theorem xCoordinate_nsmul {P Q : W.Point}
    (same : xCoordinate P = xCoordinate Q) (n : Nat) :
    xCoordinate (n • P) = xCoordinate (n • Q) := by
  rcases xCoordinate_eq_iff.mp same with rfl | rfl
  · rfl
  · rw [smul_neg, xCoordinate_neg]

/-- Key agreement over first coordinates. -/
theorem xCoordinate_agree {G Q : W.Point} {a b : Nat}
    (received : xCoordinate Q = xCoordinate (b • G)) :
    xCoordinate (a • Q) = xCoordinate ((a * b) • G) := by
  rw [mul_smul]
  exact xCoordinate_nsmul received a

end

end UoscoreUedhoc.CurvePoints
