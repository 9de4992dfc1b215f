import CustosTracker.Common.Geometry

set_option relaxedAutoImplicit false
set_option autoImplicit false

/-!
# The constant-velocity Kalman filter

`core/src/common/kalman.cpp`: a filter over the centre, the aspect `w / h` and the height of a
box, with their velocities.  State order: `[cx, cy, a, h, vx, vy, va, vh]`.

A `KalmanBox` value is an initiated filter: `initiate` is the only constructor the tracker
uses, so the source's `CV_Assert(init_)` always holds and the flag is left out.

## Main definitions

* `Ctrk.KalmanBox` and its operations `initiate`, `predict`, `update`, `applyAffine`,
  `seedVelocity`, `box`.
* `Ctrk.KalmanBox.Rests` — the filter is at rest exactly on a box.

## Main results

* `Ctrk.KalmanBox.Rests.predict`, `Rests.update`, `Rests.seedVelocity` — a filter at rest on a
  box stays there under prediction and under measurements of that box, whatever its
  covariance.
-/

namespace Ctrk

open Matrix

variable {R : Type} [Scalar R]

/-- `kStdWeightPos`. -/
def kStdWeightPos : R := 1 / 20

/-- `kStdWeightVel`. -/
def kStdWeightVel : R := 1 / 160

/-- Centre, aspect and height of a box. -/
def toMeasurement (b : BBox R) : Fin 4 → R :=
  let h := max b.h (1 / 1000)
  ![b.cx, b.cy, b.w / h, b.h]

/-- The filter state: mean and covariance. -/
structure KalmanBox (R : Type) where
  mean : Fin 8 → R
  cov : Matrix (Fin 8) (Fin 8) R

namespace KalmanBox

/-- Keep the aspect in `[0.05, 20]` and the height at least `1`. -/
def clampState (k : KalmanBox R) : KalmanBox R :=
  let mean := Function.update k.mean 2 (clamp (k.mean 2) (1 / 20) 20)
  { k with mean := Function.update mean 3 (max (mean 3) 1) }

/-- Start a filter on a measured box. -/
def initiate (z : BBox R) : KalmanBox R :=
  let m := toMeasurement z
  let h := m 3
  let std : Fin 8 → R :=
    ![2 * kStdWeightPos * h, 2 * kStdWeightPos * h, 1 / 10 ^ 2, 2 * kStdWeightPos * h,
      10 * kStdWeightVel * h, 10 * kStdWeightVel * h, 1 / 10 ^ 5, 10 * kStdWeightVel * h]
  clampState
    { mean := ![m 0, m 1, m 2, m 3, 0, 0, 0, 0]
      cov := diagonal fun i => std i * std i }

/-- The transition matrix of a step of length `dt`. -/
def transition (dt : R) : Matrix (Fin 8) (Fin 8) R :=
  of fun i j => if i = j then 1 else if j.val = i.val + 4 then dt else 0

/-- Prediction adds `dt` times the velocities to the positions. -/
theorem transition_mulVec (dt : R) (v : Fin 8 → R) : transition dt *ᵥ v =
    ![v 0 + dt * v 4, v 1 + dt * v 5, v 2 + dt * v 6, v 3 + dt * v 7, v 4, v 5, v 6, v 7] := by
  funext i
  change ∑ j, transition dt i j * v j = _
  rw [Fin.sum_univ_eight]
  fin_cases i <;> simp [transition]

/-- Advance the filter by `dt` frames. -/
def predict (k : KalmanBox R) (dt : R) : KalmanBox R :=
  let F := transition dt
  let h := k.mean 3
  let std : Fin 8 → R :=
    ![kStdWeightPos * h, kStdWeightPos * h, 1 / 10 ^ 2, kStdWeightPos * h,
      kStdWeightVel * h, kStdWeightVel * h, 1 / 10 ^ 5, kStdWeightVel * h]
  let Q := diagonal fun i => std i * std i
  clampState { mean := F *ᵥ k.mean, cov := F * k.cov * Fᵀ + Q }

/-- The measurement matrix `[I₄ | 0]`. -/
def measurement : Matrix (Fin 4) (Fin 8) R := of fun i j => if j.val = i.val then 1 else 0

/-- Measuring reads the first four coordinates. -/
theorem measurement_mulVec (v : Fin 8 → R) : measurement *ᵥ v = ![v 0, v 1, v 2, v 3] := by
  funext i
  change ∑ j, measurement i j * v j = _
  rw [Fin.sum_univ_eight]
  fin_cases i <;> simp [measurement]

/-- The Kalman gain for measurement noise scaled by `rScale`. -/
def gain (k : KalmanBox R) (rScale : R) : Matrix (Fin 8) (Fin 4) R :=
  let H : Matrix (Fin 4) (Fin 8) R := measurement
  let h := k.mean 3
  let scale := max rScale (1 / 10 ^ 4)
  let std : Fin 4 → R := ![kStdWeightPos * h, kStdWeightPos * h, 1 / 10, kStdWeightPos * h]
  let noise := diagonal fun i => std i * std i * scale
  let S := H * k.cov * Hᵀ + noise
  k.cov * Hᵀ * Scalar.invCholesky S

/-- Correct the filter by a measured box. -/
def update (k : KalmanBox R) (z : BBox R) (rScale : R) : KalmanBox R :=
  let H : Matrix (Fin 4) (Fin 8) R := measurement
  let K := k.gain rScale
  let innovation := toMeasurement z - H *ᵥ k.mean
  clampState { mean := k.mean + K *ᵥ innovation, cov := (1 - K * H) * k.cov }

/-- Carry the filter along a camera warp. -/
def applyAffine (k : KalmanBox R) (w : Affine23 R) : KalmanBox R :=
  let s := Scalar.sqrt |w.a11 * w.a22 - w.a12 * w.a21|
  let J : Matrix (Fin 8) (Fin 8) R :=
    !![w.a11, w.a12, 0, 0, 0, 0, 0, 0;
       w.a21, w.a22, 0, 0, 0, 0, 0, 0;
       0, 0, 1, 0, 0, 0, 0, 0;
       0, 0, 0, s, 0, 0, 0, 0;
       0, 0, 0, 0, w.a11, w.a12, 0, 0;
       0, 0, 0, 0, w.a21, w.a22, 0, 0;
       0, 0, 0, 0, 0, 0, 1, 0;
       0, 0, 0, 0, 0, 0, 0, s]
  let cov := J * k.cov * Jᵀ
  clampState
    { mean := ![w.a11 * k.mean 0 + w.a12 * k.mean 1 + w.tx,
        w.a21 * k.mean 0 + w.a22 * k.mean 1 + w.ty, k.mean 2, k.mean 3 * s,
        w.a11 * k.mean 4 + w.a12 * k.mean 5, w.a21 * k.mean 4 + w.a22 * k.mean 5, k.mean 6,
        k.mean 7 * s]
      -- the source re-symmetrizes against float drift
      cov := (1 / 2 : R) • (cov + covᵀ) }

/-- Overwrite the velocities by the displacement to a measured box over `dt` frames. -/
def seedVelocity (k : KalmanBox R) (z : BBox R) (dt : R) : KalmanBox R :=
  if dt ≤ 0 then k
  else
    let m := toMeasurement z
    { k with mean :=
        ![k.mean 0, k.mean 1, k.mean 2, k.mean 3, (m 0 - k.mean 0) / dt, (m 1 - k.mean 1) / dt,
          (m 2 - k.mean 2) / dt, (m 3 - k.mean 3) / dt] }

/-- The box the mean describes. -/
def box (k : KalmanBox R) : BBox R :=
  let h := k.mean 3
  let w := k.mean 2 * h
  ⟨k.mean 0 - 1 / 2 * w, k.mean 1 - 1 / 2 * h, w, h⟩

/-! ## Filters at rest -/

/-- The filter is at rest on the box `b`: its mean is the measurement of `b`, all velocities
are zero. -/
def Rests (k : KalmanBox R) (b : BBox R) : Prop :=
  k.mean = ![b.cx, b.cy, b.w / b.h, b.h, 0, 0, 0, 0]

/-- A box the clamps leave alone: height at least `1`, aspect in `[0.05, 20]`. -/
structure Regular (b : BBox R) : Prop where
  one_le_h : 1 ≤ b.h
  aspect_ge : 1 / 20 ≤ b.w / b.h
  aspect_le : b.w / b.h ≤ 20

section Rest

variable [IsStrictOrderedRing R] {b : BBox R}

/-- A regular box has positive height. -/
theorem Regular.h_pos (hb : Regular b) : 0 < b.h := zero_lt_one.trans_le hb.one_le_h

/-- A regular box has positive width. -/
theorem Regular.w_pos (hb : Regular b) : 0 < b.w := by
  have h : (0 : R) < b.w / b.h := lt_of_lt_of_le (by norm_num) hb.aspect_ge
  exact (div_pos_iff_of_pos_right hb.h_pos).mp h

omit [IsStrictOrderedRing R] in
/-- The clamp leaves a filter at rest on a regular box alone. -/
theorem clampState_of_rests (hb : Regular b) {k : KalmanBox R} (hk : k.Rests b) :
    k.clampState.Rests b := by
  unfold Rests at hk ⊢
  have haspect : clamp (b.w / b.h) (1 / 20) 20 = b.w / b.h :=
    clamp_eq_self hb.aspect_ge hb.aspect_le
  have hheight : max b.h 1 = b.h := max_eq_left hb.one_le_h
  funext i
  fin_cases i <;> simp [clampState, hk, -one_div, haspect, hheight]

/-- The measurement of a regular box. -/
theorem toMeasurement_of_regular (hb : Regular b) :
    toMeasurement b = ![b.cx, b.cy, b.w / b.h, b.h] := by
  have h : max b.h (1 / 1000) = b.h :=
    max_eq_left (le_trans (by norm_num) hb.one_le_h)
  simp only [toMeasurement, h]

/-- A filter started on a regular box is at rest on it. -/
theorem rests_initiate (hb : Regular b) : (initiate b).Rests b := by
  refine clampState_of_rests hb ?_
  simp [Rests, toMeasurement_of_regular hb]

omit [IsStrictOrderedRing R] in
/-- Prediction keeps a filter at rest. -/
theorem Rests.predict (hb : Regular b) {k : KalmanBox R} (hk : k.Rests b) (dt : R) :
    (k.predict dt).Rests b := by
  refine clampState_of_rests hb ?_
  unfold Rests at hk ⊢
  simp only [transition_mulVec]
  simp [hk]

/-- A measurement of the box a filter rests on has no innovation. -/
theorem Rests.innovation (hb : Regular b) {k : KalmanBox R} (hk : k.Rests b) :
    toMeasurement b - measurement *ᵥ k.mean = 0 := by
  unfold Rests at hk
  rw [toMeasurement_of_regular hb, measurement_mulVec]
  simp [hk]

/-- A measurement of the box a filter rests on leaves it at rest, whatever the gain. -/
theorem Rests.update (hb : Regular b) {k : KalmanBox R} (hk : k.Rests b) (rScale : R) :
    (k.update b rScale).Rests b := by
  refine clampState_of_rests hb ?_
  simp only [Rests, hk.innovation hb, mulVec_zero, add_zero]
  exact hk

/-- Seeding the velocity from the box a filter rests on seeds zero. -/
theorem Rests.seedVelocity (hb : Regular b) {k : KalmanBox R} (hk : k.Rests b) (dt : R) :
    (k.seedVelocity b dt).Rests b := by
  unfold KalmanBox.seedVelocity
  split_ifs with hdt
  · exact hk
  · unfold Rests at hk ⊢
    rw [toMeasurement_of_regular hb]
    simp [hk]

/-- A filter at rest on a regular box reports exactly that box. -/
theorem Rests.box_eq (hb : Regular b) {k : KalmanBox R} (hk : k.Rests b) : k.box = b := by
  have hw : b.w / b.h * b.h = b.w := div_mul_cancel₀ _ hb.h_pos.ne'
  unfold Rests at hk
  simp [box, hk, hw, BBox.cx, BBox.cy]

end Rest

end KalmanBox

end Ctrk
