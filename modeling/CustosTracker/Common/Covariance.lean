import CustosTracker.Common.Kalman
import CustosTracker.Library.Quadratic

set_option relaxedAutoImplicit false
set_option autoImplicit false

/-!
# The covariance of the Kalman filter

Whatever boxes, time steps, noise scales and camera warps a filter meets, its covariance stays
symmetric positive semidefinite, its height and aspect stay within the clamps, and the innovation
covariance it inverts is positive definite.

## Main definitions

* `Ctrk.KalmanBox.innovationCov` — the matrix `update` inverts.
* `Ctrk.KalmanBox.Valid` — the invariant of a filter.
* `Ctrk.KalmanOp`, `Ctrk.KalmanBox.run` — sequences of operations.

## Main results

* `Ctrk.KalmanBox.Valid.gain_mul` — the gain solves its defining equation.
* `Ctrk.KalmanBox.Valid.apply` — every operation keeps a filter valid.
* `Ctrk.KalmanBox.covariance_valid` — every filter is valid after every sequence of operations.
-/

namespace Ctrk

open Matrix Quadratic

variable {R : Type} [Scalar R]

namespace KalmanBox

@[simp] theorem clampState_cov (k : KalmanBox R) : k.clampState.cov = k.cov := rfl

theorem clampState_aspect (k : KalmanBox R) :
    k.clampState.mean 2 = clamp (k.mean 2) (1 / 20) 20 := by
  simp [clampState]

theorem clampState_height (k : KalmanBox R) : k.clampState.mean 3 = max (k.mean 3) 1 := by
  simp [clampState]

/-- The standard deviations of the measurement noise. -/
def noiseStd (k : KalmanBox R) : Fin 4 → R :=
  let h := k.mean 3
  ![kStdWeightPos * h, kStdWeightPos * h, 1 / 10, kStdWeightPos * h]

/-- The innovation covariance `S = H P Hᵀ + R` of `update`. -/
def innovationCov (k : KalmanBox R) (rScale : R) : Matrix (Fin 4) (Fin 4) R :=
  let H : Matrix (Fin 4) (Fin 8) R := measurement
  H * k.cov * Hᵀ + diagonal fun i => k.noiseStd i * k.noiseStd i * max rScale (1 / 10 ^ 4)

/-- The gain is `P Hᵀ S⁻¹`. -/
theorem gain_eq (k : KalmanBox R) (rScale : R) :
    k.gain rScale = k.cov * (measurement : Matrix (Fin 4) (Fin 8) R)ᵀ *
      Scalar.invCholesky (k.innovationCov rScale) := rfl

/-! ## Valid filters -/

/-- The invariant of a filter: a proper covariance, and a mean within the clamps. -/
structure Valid (k : KalmanBox R) : Prop where
  cov : PosSemidef k.cov
  one_le_height : 1 ≤ k.mean 3
  aspect_ge : 1 / 20 ≤ k.mean 2
  aspect_le : k.mean 2 ≤ 20

section Ordered

variable [IsStrictOrderedRing R] {k : KalmanBox R}

/-- Clamping leaves the covariance alone and brings the mean within the clamps. -/
theorem valid_clampState (hk : PosSemidef k.cov) : k.clampState.Valid where
  cov := hk
  one_le_height := by
    rw [clampState_height]
    exact le_max_right _ _
  aspect_ge := by
    rw [clampState_aspect]
    exact le_clamp (by norm_num)
  aspect_le := by
    rw [clampState_aspect]
    exact clamp_le (by norm_num)

/-- A started filter is valid, on every box. -/
theorem valid_initiate (z : BBox R) : (initiate z).Valid :=
  valid_clampState (posSemidef_diagonal fun _ => mul_self_nonneg _)

/-- Prediction keeps a filter valid. -/
theorem Valid.predict (hk : k.Valid) (dt : R) : (k.predict dt).Valid :=
  valid_clampState ((hk.cov.congruence _).add (posSemidef_diagonal fun _ => mul_self_nonneg _))

omit [IsStrictOrderedRing R] in
/-- Seeding the velocity keeps a filter valid. -/
theorem Valid.seedVelocity (hk : k.Valid) (z : BBox R) (dt : R) : (k.seedVelocity z dt).Valid := by
  unfold KalmanBox.seedVelocity
  split_ifs with hdt
  · exact hk
  · exact ⟨hk.cov, hk.one_le_height, hk.aspect_ge, hk.aspect_le⟩

/-- A warp keeps a filter valid, also a singular one. -/
theorem Valid.applyAffine (hk : k.Valid) (w : Affine23 R) : (k.applyAffine w).Valid := by
  unfold KalmanBox.applyAffine
  apply valid_clampState
  have hcov := hk.cov.congruence
    (!![w.a11, w.a12, 0, 0, 0, 0, 0, 0;
        w.a21, w.a22, 0, 0, 0, 0, 0, 0;
        0, 0, 1, 0, 0, 0, 0, 0;
        0, 0, 0, Scalar.sqrt |w.a11 * w.a22 - w.a12 * w.a21|, 0, 0, 0, 0;
        0, 0, 0, 0, w.a11, w.a12, 0, 0;
        0, 0, 0, 0, w.a21, w.a22, 0, 0;
        0, 0, 0, 0, 0, 0, 1, 0;
        0, 0, 0, 0, 0, 0, 0, Scalar.sqrt |w.a11 * w.a22 - w.a12 * w.a21|])
  exact hcov.half_add_transpose

/-- The measurement noise is positive in every coordinate. -/
theorem Valid.noise_pos (hk : k.Valid) (rScale : R) (i : Fin 4) :
    0 < k.noiseStd i * k.noiseStd i * max rScale (1 / 10 ^ 4) := by
  have hscale : (0 : R) < max rScale (1 / 10 ^ 4) := lt_max_of_lt_right (by norm_num)
  have hheight : 0 < k.mean 3 := zero_lt_one.trans_le hk.one_le_height
  have hpos : (0 : R) < kStdWeightPos * k.mean 3 := mul_pos (by norm_num [kStdWeightPos]) hheight
  have hstd : 0 < k.noiseStd i := by
    fin_cases i
    · exact hpos
    · exact hpos
    · change (0 : R) < 1 / 10
      norm_num
    · exact hpos
  exact mul_pos (mul_pos hstd hstd) hscale

/-- The innovation covariance of a valid filter is positive definite. -/
theorem Valid.posDef_innovationCov (hk : k.Valid) (rScale : R) : PosDef (k.innovationCov rScale) :=
  ⟨((hk.cov.congruence measurement).add
      (posSemidef_diagonal fun i => (hk.noise_pos rScale i).le)).1,
    fun _ hx => (hk.cov.congruence measurement).pos_add_diagonal (hk.noise_pos rScale) hx⟩

end Ordered

section Lawful

variable [LawfulScalar R] {k : KalmanBox R}

/-- The gain solves `K S = P Hᵀ`. -/
theorem Valid.gain_mul (hk : k.Valid) (rScale : R) :
    k.gain rScale * k.innovationCov rScale =
      k.cov * (measurement : Matrix (Fin 4) (Fin 8) R)ᵀ := by
  rw [gain_eq, Matrix.mul_assoc, LawfulScalar.invCholesky_mul _ (hk.posDef_innovationCov rScale),
    Matrix.mul_one]

/-- A measurement keeps a filter valid. -/
theorem Valid.update (hk : k.Valid) (z : BBox R) (rScale : R) : (k.update z rScale).Valid :=
  valid_clampState (hk.cov.correct (posSemidef_diagonal fun i => (hk.noise_pos rScale i).le)
    (hk.gain_mul rScale))

omit [LawfulScalar R] in
/-- The clamps leave a valid filter alone. -/
theorem Valid.clampState_eq (hk : k.Valid) : k.clampState = k := by
  have haspect := clamp_eq_self hk.aspect_ge hk.aspect_le
  have hmean : k.clampState.mean = k.mean := by
    simp [clampState, -one_div, haspect, hk.one_le_height]
  calc k.clampState = ⟨k.clampState.mean, k.clampState.cov⟩ := rfl
    _ = k := by rw [hmean, clampState_cov]

/-- The identity warp leaves a valid filter alone.

**Proof sketch.** The linear part of the identity has determinant one, so its scale is one and
its Jacobian the identity matrix; the covariance is symmetric already and the mean is in the
range of the clamps. -/
theorem Valid.applyAffine_id (hk : k.Valid) : k.applyAffine .id = k := by
  have hsqrt : Scalar.sqrt (1 : R) = 1 := by
    have hnonneg := LawfulScalar.sqrt_nonneg (1 : R)
    have hsq := LawfulScalar.mul_self_sqrt (1 : R) zero_le_one
    nlinarith
  have hJ : (!![1, 0, 0, 0, 0, 0, 0, 0;
        0, 1, 0, 0, 0, 0, 0, 0;
        0, 0, 1, 0, 0, 0, 0, 0;
        0, 0, 0, 1, 0, 0, 0, 0;
        0, 0, 0, 0, 1, 0, 0, 0;
        0, 0, 0, 0, 0, 1, 0, 0;
        0, 0, 0, 0, 0, 0, 1, 0;
        0, 0, 0, 0, 0, 0, 0, 1] : Matrix (Fin 8) (Fin 8) R) = 1 := by
    ext i j
    fin_cases i <;> fin_cases j <;> rfl
  have hcov : (1 / 2 : R) • (k.cov + k.covᵀ) = k.cov := by
    rw [hk.cov.1.eq, ← two_smul R, smul_smul]
    norm_num
  have hmean : ![k.mean 0, k.mean 1, k.mean 2, k.mean 3, k.mean 4, k.mean 5, k.mean 6, k.mean 7] =
      k.mean := by
    funext i
    fin_cases i <;> rfl
  simp only [KalmanBox.applyAffine, Affine23.id, mul_one, mul_zero, sub_zero, abs_one, hsqrt, hJ,
    one_mul, zero_mul, add_zero, zero_add, transpose_one, hcov, hmean]
  exact hk.clampState_eq

end Lawful

end KalmanBox

/-! ## Runs -/

/-- An operation on a started filter. -/
inductive KalmanOp (R : Type)
  | predict (dt : R)
  | update (z : BBox R) (rScale : R)
  | seedVelocity (z : BBox R) (dt : R)
  | applyAffine (w : Affine23 R)

namespace KalmanBox

/-- Execute one operation. -/
def apply (k : KalmanBox R) : KalmanOp R → KalmanBox R
  | .predict dt => k.predict dt
  | .update z rScale => k.update z rScale
  | .seedVelocity z dt => k.seedVelocity z dt
  | .applyAffine w => k.applyAffine w

/-- Execute a sequence of operations. -/
def run (k : KalmanBox R) (ops : List (KalmanOp R)) : KalmanBox R := ops.foldl apply k

variable [LawfulScalar R] {k : KalmanBox R}

/-- Every operation keeps a filter valid. -/
theorem Valid.apply (hk : k.Valid) (op : KalmanOp R) : (k.apply op).Valid := by
  cases op with
  | predict dt => exact hk.predict dt
  | update z rScale => exact hk.update z rScale
  | seedVelocity z dt => exact hk.seedVelocity z dt
  | applyAffine w => exact hk.applyAffine w

/-- Every sequence of operations keeps a filter valid. -/
theorem Valid.run (hk : k.Valid) (ops : List (KalmanOp R)) : (k.run ops).Valid := by
  induction ops generalizing k with
  | nil => exact hk
  | cons op ops ih => exact ih (hk.apply op)

/-- **The covariance stays valid.** A filter started on any box, after any sequence of
operations: its covariance is symmetric positive semidefinite, its height is at least `1`, its
aspect is in `[0.05, 20]`, and for every noise scale the innovation covariance is symmetric
positive definite, its Cholesky inverse is its inverse on both sides, and the gain solves its
defining equation.

**Proof sketch.** `Valid` holds of a fresh filter and is kept by each operation.  A valid
covariance is positive semidefinite and the measurement noise is positive definite, so the
innovation covariance is positive definite, and the law of the Cholesky inverse applies to it. -/
theorem covariance_valid (z : BBox R) (ops : List (KalmanOp R)) :
    ((initiate z).run ops).cov.IsSymm ∧
    (∀ x, 0 ≤ x ⬝ᵥ ((initiate z).run ops).cov *ᵥ x) ∧
    1 ≤ ((initiate z).run ops).mean 3 ∧
    1 / 20 ≤ ((initiate z).run ops).mean 2 ∧ ((initiate z).run ops).mean 2 ≤ 20 ∧
    ∀ rScale, PosDef (((initiate z).run ops).innovationCov rScale) ∧
      Scalar.invCholesky (((initiate z).run ops).innovationCov rScale) *
        ((initiate z).run ops).innovationCov rScale = 1 ∧
      ((initiate z).run ops).innovationCov rScale *
        Scalar.invCholesky (((initiate z).run ops).innovationCov rScale) = 1 ∧
      ((initiate z).run ops).gain rScale * ((initiate z).run ops).innovationCov rScale =
        ((initiate z).run ops).cov * (measurement : Matrix (Fin 4) (Fin 8) R)ᵀ := by
  have hk : ((initiate z).run ops).Valid := (valid_initiate z).run ops
  refine ⟨hk.cov.1, hk.cov.2, hk.one_le_height, hk.aspect_ge, hk.aspect_le, fun rScale => ?_⟩
  have hS := hk.posDef_innovationCov rScale
  have hinv := LawfulScalar.invCholesky_mul _ hS
  exact ⟨hS, hinv, mul_eq_one_comm.mp hinv, hk.gain_mul rScale⟩

/-- A degenerate box, predicted backwards, corrected by another one, and collapsed by a singular
warp. -/
theorem covariance_valid_degenerate :
    ((initiate (⟨0, 0, 0, 0⟩ : BBox ℝ)).run [.predict (-1), .update ⟨5, 5, -1, -1⟩ 0,
      .applyAffine ⟨0, 0, 0, 0, 0, 0⟩]).cov.IsSymm ∧
    PosDef (((initiate (⟨0, 0, 0, 0⟩ : BBox ℝ)).run [.predict (-1), .update ⟨5, 5, -1, -1⟩ 0,
      .applyAffine ⟨0, 0, 0, 0, 0, 0⟩]).innovationCov 0) :=
  ⟨(covariance_valid (⟨0, 0, 0, 0⟩ : BBox ℝ) _).1,
    ((covariance_valid (⟨0, 0, 0, 0⟩ : BBox ℝ) _).2.2.2.2.2 0).1⟩

end KalmanBox

end Ctrk
