import CustosTracker.Common.Channels

set_option relaxedAutoImplicit false
set_option autoImplicit false

/-!
# The filter has the least error covariance

The covariance of a filter is the error covariance of its own estimate under its noise model.  A
rival estimator lives through the same operations under the same noise, but corrects with gains of
its own.  Whatever gains it chooses, at no point of the run is its error covariance below that of
the filter, in any direction of the state space.

## Main definitions

* `Ctrk.KalmanBox.measurementNoise`, `warpJacobian` — the noise of a measurement and the linear map
  of a warp, as `update` and `applyAffine` use them.
* `Ctrk.KalmanBox.errorCov` — the error covariance of an estimator after one operation.
* `Ctrk.KalmanBox.rivalCov` — after a run with one gain per operation.

## Main results

* `Ctrk.KalmanBox.Valid.cov_apply` — with the gain of the filter this is the filter's covariance.
* `Ctrk.KalmanBox.Valid.le_apply` — one operation keeps the filter below any rival.
* `Ctrk.KalmanBox.minimum_variance` — every run does, from every start.
-/

namespace Ctrk

open Matrix Quadratic

variable {R : Type} [Scalar R]

namespace KalmanBox

/-- The noise of a measurement. -/
def measurementNoise (k : KalmanBox R) (rScale : R) : Matrix (Fin 4) (Fin 4) R :=
  diagonal fun i => k.noiseStd i * k.noiseStd i * max rScale (1 / 10 ^ 4)

/-- The linear map of a warp on the state. -/
def warpJacobian (w : Affine23 R) : Matrix (Fin 8) (Fin 8) R :=
  let s := Scalar.sqrt |w.a11 * w.a22 - w.a12 * w.a21|
  !![w.a11, w.a12, 0, 0, 0, 0, 0, 0;
     w.a21, w.a22, 0, 0, 0, 0, 0, 0;
     0, 0, 1, 0, 0, 0, 0, 0;
     0, 0, 0, s, 0, 0, 0, 0;
     0, 0, 0, 0, w.a11, w.a12, 0, 0;
     0, 0, 0, 0, w.a21, w.a22, 0, 0;
     0, 0, 0, 0, 0, 0, 1, 0;
     0, 0, 0, 0, 0, 0, 0, s]

/-- The error covariance an estimator with error covariance `P` has after one operation of the
filter `k`, when it corrects with the gain `L`. -/
def errorCov (k : KalmanBox R) (P : Matrix (Fin 8) (Fin 8) R) (L : Matrix (Fin 8) (Fin 4) R) :
    KalmanOp R → Matrix (Fin 8) (Fin 8) R
  | .predict dt => transition dt * P * (transition dt)ᵀ + diagonal k.processNoise
  | .update _ rScale => josephForm P (k.measurementNoise rScale) measurement L
  | .seedVelocity _ _ => P
  | .applyAffine w => warpJacobian w * P * (warpJacobian w)ᵀ

/-- The error covariance of a rival after the run of the filter `k`, one gain for each
operation. -/
def rivalCov (k : KalmanBox R) (P : Matrix (Fin 8) (Fin 8) R) :
    List (KalmanOp R × Matrix (Fin 8) (Fin 4) R) → Matrix (Fin 8) (Fin 8) R
  | [] => P
  | (op, L) :: ops => (k.apply op).rivalCov (k.errorCov P L op) ops

/-- The gain the filter itself uses in an operation. -/
def gainOf (k : KalmanBox R) : KalmanOp R → Matrix (Fin 8) (Fin 4) R
  | .update _ rScale => k.gain rScale
  | _ => 0

section Lawful

variable [LawfulScalar R] {k : KalmanBox R}

/-- Measurement noise is a covariance. -/
theorem Valid.posSemidef_measurementNoise (hk : k.Valid) (rScale : R) :
    PosSemidef (k.measurementNoise rScale) :=
  posSemidef_diagonal fun i => (hk.noise_pos rScale i).le

/-- Averaging with the transpose changes nothing in a warp. -/
theorem Valid.cov_applyAffine (hk : k.Valid) (w : Affine23 R) :
    (k.applyAffine w).cov = warpJacobian w * k.cov * (warpJacobian w)ᵀ := by
  have hcov : (k.applyAffine w).cov = (1 / 2 : R) • (warpJacobian w * k.cov * (warpJacobian w)ᵀ +
      (warpJacobian w * k.cov * (warpJacobian w)ᵀ)ᵀ) := rfl
  rw [hcov, (hk.cov.congruence (warpJacobian w)).1.eq, ← two_smul R, smul_smul]
  norm_num

/-- The covariance of the filter is the error covariance of its own gain. -/
theorem Valid.cov_apply (hk : k.Valid) (op : KalmanOp R) :
    (k.apply op).cov = k.errorCov k.cov (k.gainOf op) op := by
  cases op with
  | predict dt => rfl
  | update z rScale => exact joseph (hk.gain_mul rScale)
  | seedVelocity z dt =>
    change (k.seedVelocity z dt).cov = k.cov
    unfold KalmanBox.seedVelocity
    split_ifs <;> rfl
  | applyAffine w => exact hk.cov_applyAffine w

/-- One operation keeps the filter below any rival.

**Proof sketch.** Predictions and warps act on both covariances by the same linear map and the
same noise, so on the difference by congruence.  A seed leaves both alone.  In a correction the
gain of the filter is the one that no other gain falls below. -/
theorem Valid.le_apply (hk : k.Valid) {P : Matrix (Fin 8) (Fin 8) R} (hP : PosSemidef (P - k.cov))
    (L : Matrix (Fin 8) (Fin 4) R) (op : KalmanOp R) :
    PosSemidef (k.errorCov P L op - (k.apply op).cov) := by
  cases op with
  | predict dt =>
    have hdiff : k.errorCov P L (.predict dt) - (k.predict dt).cov =
        transition dt * (P - k.cov) * (transition dt)ᵀ := by
      change transition dt * P * (transition dt)ᵀ + diagonal k.processNoise -
        (transition dt * k.cov * (transition dt)ᵀ + diagonal k.processNoise) = _
      rw [add_sub_add_right_eq_sub, Matrix.mul_sub, Matrix.sub_mul]
    exact hdiff ▸ hP.congruence _
  | update z rScale =>
    exact hP.correct_le hk.cov (hk.posSemidef_measurementNoise rScale) (hk.gain_mul rScale) L
  | seedVelocity z dt =>
    rw [hk.cov_apply]
    exact hP
  | applyAffine w =>
    have hdiff : k.errorCov P L (.applyAffine w) - (k.applyAffine w).cov =
        warpJacobian w * (P - k.cov) * (warpJacobian w)ᵀ := by
      rw [hk.cov_applyAffine, Matrix.mul_sub, Matrix.sub_mul]
      rfl
    exact hdiff ▸ hP.congruence _

/-- A run keeps the filter below any rival. -/
theorem Valid.le_run (hk : k.Valid) {P : Matrix (Fin 8) (Fin 8) R} (hP : PosSemidef (P - k.cov))
    (ops : List (KalmanOp R × Matrix (Fin 8) (Fin 4) R)) :
    PosSemidef (k.rivalCov P ops - (k.run (ops.map Prod.fst)).cov) := by
  induction ops generalizing k P with
  | nil => exact hP
  | cons op ops ih =>
    obtain ⟨op, L⟩ := op
    exact ih (hk.apply op) (hk.le_apply hP L op)

/-- Only the gain of the filter attains its covariance. -/
theorem Valid.gain_eq_of_cov_eq (hk : k.Valid) (z : BBox R) {rScale : R}
    {L : Matrix (Fin 8) (Fin 4) R}
    (hL : k.errorCov k.cov L (.update z rScale) = (k.update z rScale).cov) : L = k.gain rScale :=
  gain_unique hk.cov.1 (hk.posSemidef_measurementNoise rScale).1 (hk.gain_mul rScale)
    (hk.posDef_innovationCov rScale).2 hL

/-- **The filter is a minimum-variance estimator.** Start a filter on any box and a rival with no
smaller an error covariance, and run both through any sequence of predictions, measurements,
velocity seeds and camera warps, the rival correcting by arbitrary gains.  The rival's error
covariance never falls below that of the filter: not in any direction, so in no coordinate.  With
the gains of the filter it is that of the filter, and no other gain reaches it in any
correction.

**Proof sketch.** One operation keeps the rival above the filter: a linear map acts on the
difference of the two covariances by congruence, and among the corrections of one covariance the
gain of the filter gives the least.  The run is by induction on the operations.  Equality in a
correction leaves the difference of the gains weighted by the innovation covariance, which is
positive definite, so it vanishes. -/
theorem minimum_variance (z : BBox R) (P : Matrix (Fin 8) (Fin 8) R)
    (hP : PosSemidef (P - (initiate z).cov))
    (ops : List (KalmanOp R × Matrix (Fin 8) (Fin 4) R)) :
    let k := (initiate z).run (ops.map Prod.fst)
    PosSemidef ((initiate z).rivalCov P ops - k.cov) ∧
    (∀ i, k.cov i i ≤ (initiate z).rivalCov P ops i i) ∧
    (∀ op, k.errorCov k.cov (k.gainOf op) op = (k.apply op).cov) ∧
    ∀ z' rScale L, k.errorCov k.cov L (.update z' rScale) = (k.update z' rScale).cov →
      L = k.gain rScale := by
  intro k
  have hk : k.Valid := (valid_initiate z).run _
  have hle := (valid_initiate z).le_run hP ops
  refine ⟨hle, fun i => ?_, fun op => (hk.cov_apply op).symm,
    fun z' rScale L => hk.gain_eq_of_cov_eq z'⟩
  exact sub_nonneg.mp (hle.diag_nonneg i)

/-- A rival that ignores every measurement, on a run with a degenerate box and a singular warp. -/
theorem minimum_variance_degenerate :
    let k := (initiate (⟨0, 0, 0, 0⟩ : BBox ℝ)).run
      [.predict (-1), .update ⟨5, 5, -1, -1⟩ 0, .applyAffine ⟨0, 0, 0, 0, 0, 0⟩]
    ∀ i, k.cov i i ≤ (initiate (⟨0, 0, 0, 0⟩ : BBox ℝ)).rivalCov (initiate ⟨0, 0, 0, 0⟩).cov
      [(.predict (-1), 0), (.update ⟨5, 5, -1, -1⟩ 0, 0),
        (.applyAffine ⟨0, 0, 0, 0, 0, 0⟩, 0)] i i := by
  have hsame : Quadratic.PosSemidef ((initiate (⟨0, 0, 0, 0⟩ : BBox ℝ)).cov -
      (initiate (⟨0, 0, 0, 0⟩ : BBox ℝ)).cov) := by
    rw [sub_self]
    exact ⟨isSymm_zero, fun x => by rw [zero_mulVec, dotProduct_zero]⟩
  exact (minimum_variance (⟨0, 0, 0, 0⟩ : BBox ℝ) _ hsame
    [(.predict (-1), 0), (.update ⟨5, 5, -1, -1⟩ 0, 0), (.applyAffine ⟨0, 0, 0, 0, 0, 0⟩, 0)]).2.1

end Lawful

end KalmanBox

end Ctrk
