import Mathlib

set_option relaxedAutoImplicit false
set_option autoImplicit false

/-!
# Scalars, boxes, tracks and detections

The value types of `core/include/ctrk/types.hpp`, over an arbitrary scalar type.

The core computes with `float` and `double`.  Here every number lies in a type `R` carrying a
`Scalar` structure: an ordered field (exact arithmetic, so no rounding, no infinities and no
`NaN`) with the three library routines the tracking code calls on numbers.  Integer counters
are `ℤ`.

## Main definitions

* `Ctrk.Scalar` — the scalar operations; `Ctrk.LawfulScalar` — their documented behaviour.
* `Ctrk.BBox`, `Ctrk.Detection`, `Ctrk.Track`, `Ctrk.SotResult` — the data passed between the
  components.

## Implementation notes

`Scalar` is data only, so the model runs over `ℚ`; the laws live in `LawfulScalar`, which `ℝ`
satisfies.  A result that needs no more than order and field arithmetic asks for
`IsStrictOrderedRing R` alone.
-/

namespace Ctrk

/-! ## Numerals

A numeral of a field carries the proof that it is at least two, and Lean moves the proof that it
finds into a lemma of the definition the numeral stands in.  So equal constants of two modules
would be two terms.  A proof with a name stays in its place: each numeral that the constants of more
than one module are written with has its proof here, and is one term in all of them. -/

instance atLeastTwo_two : Nat.AtLeastTwo 2 := inferInstance
instance atLeastTwo_three : Nat.AtLeastTwo 3 := inferInstance
instance atLeastTwo_four : Nat.AtLeastTwo 4 := inferInstance
instance atLeastTwo_five : Nat.AtLeastTwo 5 := inferInstance
instance atLeastTwo_seven : Nat.AtLeastTwo 7 := inferInstance
instance atLeastTwo_eight : Nat.AtLeastTwo 8 := inferInstance
instance atLeastTwo_nine : Nat.AtLeastTwo 9 := inferInstance
instance atLeastTwo_ten : Nat.AtLeastTwo 10 := inferInstance
instance atLeastTwo_twenty : Nat.AtLeastTwo 20 := inferInstance
instance atLeastTwo_thirty : Nat.AtLeastTwo 30 := inferInstance
instance atLeastTwo_thirtySeven : Nat.AtLeastTwo 37 := inferInstance
instance atLeastTwo_fortyFive : Nat.AtLeastTwo 45 := inferInstance
instance atLeastTwo_fiftyFive : Nat.AtLeastTwo 55 := inferInstance
instance atLeastTwo_hundred : Nat.AtLeastTwo 100 := inferInstance
instance atLeastTwo_twoHundredFiftyFive : Nat.AtLeastTwo 255 := inferInstance
instance atLeastTwo_fourHundredFiftyFive : Nat.AtLeastTwo 455 := inferInstance
instance atLeastTwo_thousand : Nat.AtLeastTwo 1000 := inferInstance

instance neZero_four : NeZero 4 := inferInstance
instance neZero_eight : NeZero 8 := inferInstance

/-! ## Scalars -/

/-- A symmetric matrix with positive quadratic form: the inputs on which
`cv::DECOMP_CHOLESKY` succeeds. -/
def PosDef {R : Type} [Field R] [LinearOrder R] (S : Matrix (Fin 4) (Fin 4) R) : Prop :=
  S.IsSymm ∧ ∀ x : Fin 4 → R, x ≠ 0 → 0 < dotProduct x (S.mulVec x)

/-- The numbers the core computes with: an ordered field and the routines called on it. -/
class Scalar (R : Type) extends Field R, LinearOrder R where
  /-- `std::sqrt`. -/
  sqrt : R → R
  /-- `static_cast<int>`, truncation towards zero. -/
  toInt : R → ℤ
  /-- `cv::Matx44f::inv(cv::DECOMP_CHOLESKY)`. -/
  invCholesky : Matrix (Fin 4) (Fin 4) R → Matrix (Fin 4) (Fin 4) R

/-- The documented behaviour of the scalar routines. -/
class LawfulScalar (R : Type) [Scalar R] : Prop extends IsStrictOrderedRing R where
  /-- Square roots are nonnegative. -/
  sqrt_nonneg : ∀ x : R, 0 ≤ Scalar.sqrt x
  /-- On nonnegative numbers `sqrt` is the square root. -/
  mul_self_sqrt : ∀ x : R, 0 ≤ x → Scalar.sqrt x * Scalar.sqrt x = x
  /-- A nonnegative number is cut down to its integer part. -/
  toInt_nonneg : ∀ x : R, 0 ≤ x → (Scalar.toInt x : R) ≤ x ∧ x < Scalar.toInt x + 1
  /-- A negative number is cut up to its integer part. -/
  toInt_neg : ∀ x : R, Scalar.toInt (-x) = -Scalar.toInt x
  /-- The Cholesky inverse of a positive definite matrix is its inverse. -/
  invCholesky_mul : ∀ S : Matrix (Fin 4) (Fin 4) R, PosDef S → Scalar.invCholesky S * S = 1

/-- Exact rational arithmetic: the square root is exact on squares of rationals. -/
instance : Scalar ℚ where
  toField := inferInstance
  toLinearOrder := inferInstance
  sqrt := Rat.sqrt
  toInt q := if 0 ≤ q then ⌊q⌋ else ⌈q⌉
  invCholesky S := S.det⁻¹ • S.adjugate

/-- Exact real arithmetic. -/
noncomputable instance : Scalar ℝ where
  toField := inferInstance
  toLinearOrder := inferInstance
  sqrt := Real.sqrt
  toInt x := if 0 ≤ x then ⌊x⌋ else ⌈x⌉
  invCholesky S := S⁻¹

/-- A positive definite real matrix has an invertible determinant. -/
theorem PosDef.det_ne_zero {S : Matrix (Fin 4) (Fin 4) ℝ} (hS : PosDef S) : S.det ≠ 0 := by
  intro h0
  obtain ⟨x, hx, hSx⟩ := Matrix.exists_mulVec_eq_zero_iff.mpr h0
  have hpos := hS.2 x hx
  rw [hSx, dotProduct_zero] at hpos
  exact lt_irrefl 0 hpos

instance : LawfulScalar ℝ where
  sqrt_nonneg := Real.sqrt_nonneg
  mul_self_sqrt _ hx := Real.mul_self_sqrt hx
  toInt_nonneg x hx := by
    change ((if 0 ≤ x then ⌊x⌋ else ⌈x⌉ : ℤ) : ℝ) ≤ x ∧ x < (if 0 ≤ x then ⌊x⌋ else ⌈x⌉ : ℤ) + 1
    rw [if_pos hx]
    exact ⟨Int.floor_le x, Int.lt_floor_add_one x⟩
  toInt_neg x := by
    change (if 0 ≤ -x then ⌊-x⌋ else ⌈-x⌉) = -(if 0 ≤ x then ⌊x⌋ else ⌈x⌉)
    rcases lt_trichotomy x 0 with hx | rfl | hx
    · rw [if_pos (by linarith), if_neg (by linarith), Int.floor_neg]
    · simp
    · rw [if_neg (by linarith), if_pos hx.le, Int.ceil_neg]
  invCholesky_mul S hS := by
    change S⁻¹ * S = 1
    exact Matrix.nonsing_inv_mul S (isUnit_iff_ne_zero.mpr hS.det_ne_zero)

variable {R : Type}

/-- `std::hypot`, in exact arithmetic. -/
def hypot [Scalar R] (a b : R) : R := Scalar.sqrt (a * a + b * b)

/-! ## Boxes -/

/-- Axis-aligned box, top-left origin, pixel units. -/
structure BBox (R : Type) where
  x : R
  y : R
  w : R
  h : R
  deriving DecidableEq

namespace BBox

variable [Scalar R]

instance : Inhabited (BBox R) := ⟨⟨0, 0, 0, 0⟩⟩

def cx (b : BBox R) : R := b.x + 1 / 2 * b.w

def cy (b : BBox R) : R := b.y + 1 / 2 * b.h

def area (b : BBox R) : R := b.w * b.h

end BBox

/-! ## Single-object tracking -/

/-- The state a single-object tracker reports with each frame. -/
inductive SotState
  | tracking
  | unstable
  | lost
  deriving DecidableEq, Repr

/-- What one single-object update returns. -/
structure SotResult (R : Type) where
  box : BBox R
  score : R
  state : SotState
  deriving DecidableEq

/-! ## Multi-object tracking -/

/-- Life-cycle state of a track. -/
inductive TrackState
  | tentative
  | confirmed
  | lost
  | removed
  deriving DecidableEq, Repr

/-- A reported track. -/
structure Track (R : Type) where
  id : ℤ
  box : BBox R
  score : R
  classId : ℤ
  state : TrackState
  age : ℤ
  hits : ℤ
  deriving DecidableEq

/-- A detection: a scored box, with an appearance descriptor when one was computed. -/
structure Detection (R : Type) where
  box : BBox R
  score : R
  classId : ℤ
  embedding : List R
  deriving DecidableEq

instance [Scalar R] : Inhabited (Detection R) := ⟨⟨default, 0, -1, []⟩⟩

end Ctrk
