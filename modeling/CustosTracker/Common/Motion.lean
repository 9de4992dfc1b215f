import CustosTracker.Common.Covariance
import CustosTracker.Library.AffineMotion

set_option relaxedAutoImplicit false
set_option autoImplicit false

/-!
# How the mean of a filter moves

The centre of a filter drifts with its velocity, and a camera warp carries both along; the clamps
touch neither.  The aspect and the height are clamped after every prediction, but for a mean within
the clamps several predictions still land where one prediction for the whole time does.

## Main definitions

* `Ctrk.Affine23.toAffineMap` — a warp as an affine map of the plane.
* `Ctrk.KalmanBox.centre`, `Ctrk.KalmanBox.velocity`.
* `Ctrk.KalmanBox.Clamped` — the mean is within the clamps.

## Main results

* `Ctrk.KalmanBox.predict_applyAffine` — a prediction and a warp as one move of the plane.
* `Ctrk.KalmanBox.foldl_predict_mean` — predictions add up.
-/

namespace Ctrk

open Matrix

variable {R : Type} [Scalar R]

/-- A warp as an affine map of the plane. -/
def Affine23.toAffineMap (w : Affine23 R) : (R × R) →ᵃ[R] (R × R) where
  toFun p := (w.a11 * p.1 + w.a12 * p.2 + w.tx, w.a21 * p.1 + w.a22 * p.2 + w.ty)
  linear :=
    { toFun := fun v => (w.a11 * v.1 + w.a12 * v.2, w.a21 * v.1 + w.a22 * v.2)
      map_add' := fun u v => by
        ext <;> simp only [Prod.fst_add, Prod.snd_add] <;> ring
      map_smul' := fun c v => by
        ext <;> simp only [Prod.smul_fst, Prod.smul_snd, smul_eq_mul, RingHom.id_apply] <;> ring }
  map_vadd' p v := by
    ext <;> simp only [vadd_eq_add, Prod.fst_add, Prod.snd_add, LinearMap.coe_mk, AddHom.coe_mk] <;>
      ring

/-- The identity warp is the identity map. -/
theorem Affine23.toAffineMap_id :
    (Affine23.id : Affine23 R).toAffineMap = AffineMap.id R (R × R) := by
  ext p <;> simp [Affine23.toAffineMap, Affine23.id]

namespace KalmanBox

variable (k : KalmanBox R)

/-! ## The centre -/

/-- The centre of the mean. -/
def centre : R × R := (k.mean 0, k.mean 1)

/-- The velocity of the centre. -/
def velocity : R × R := (k.mean 4, k.mean 5)

/-- The clamps leave all but the aspect and the height alone. -/
theorem clampState_mean {i : Fin 8} (h2 : i ≠ 2) (h3 : i ≠ 3) : k.clampState.mean i = k.mean i := by
  simp [clampState, h2, h3]

@[simp] theorem clampState_centre : k.clampState.centre = k.centre := by
  rw [centre, clampState_mean k (by decide) (by decide), clampState_mean k (by decide) (by decide)]
  rfl

@[simp] theorem clampState_velocity : k.clampState.velocity = k.velocity := by
  rw [velocity, clampState_mean k (by decide) (by decide), clampState_mean k (by decide) (by decide)]
  rfl

/-- A filter starts at the centre of its box. -/
theorem initiate_centre (z : BBox R) : (initiate z).centre = (z.cx, z.cy) := by
  rw [initiate, clampState_centre]
  rfl

/-- A filter starts without velocity. -/
theorem initiate_velocity (z : BBox R) : (initiate z).velocity = 0 := by
  rw [initiate, clampState_velocity]
  rfl

/-- A prediction lets the centre drift. -/
theorem predict_centre (dt : R) : (k.predict dt).centre = k.centre + dt • k.velocity := by
  rw [predict, clampState_centre]
  simp only [centre, velocity, transition_mulVec]
  rfl

/-- A prediction keeps the velocity. -/
theorem predict_velocity (dt : R) : (k.predict dt).velocity = k.velocity := by
  rw [predict, clampState_velocity]
  simp only [velocity, transition_mulVec]
  rfl

/-- A warp carries the centre along. -/
theorem applyAffine_centre (w : Affine23 R) :
    (k.applyAffine w).centre = w.toAffineMap k.centre := by
  rw [applyAffine, clampState_centre]
  rfl

/-- A warp turns the velocity. -/
theorem applyAffine_velocity (w : Affine23 R) :
    (k.applyAffine w).velocity = w.toAffineMap.linear k.velocity := by
  rw [applyAffine, clampState_velocity]
  rfl

/-- **A prediction and a warp** move the centre as a point of the plane. -/
theorem predict_applyAffine (dt : R) (w : Affine23 R) :
    (((k.predict dt).applyAffine w).centre, ((k.predict dt).applyAffine w).velocity) =
      AffineMotion.move (k.centre, k.velocity) (dt, w.toAffineMap) := by
  rw [applyAffine_centre, applyAffine_velocity, predict_centre, predict_velocity]
  rfl

/-- Seeding sets the velocity to the displacement over the elapsed time. -/
theorem seedVelocity_velocity (z : BBox R) {dt : R} (hdt : 0 < dt) :
    (k.seedVelocity z dt).velocity =
      ((z.cx - k.centre.1) / dt, (z.cy - k.centre.2) / dt) := by
  rw [seedVelocity, if_neg (not_le.mpr hdt)]
  rfl

/-! ## Clamped drift -/

end KalmanBox

section Drift

variable {x v a b lo hi : R}

/-- A value above the lower bound is only clamped from above. -/
theorem clamp_eq_min (h : lo ≤ x) : clamp x lo hi = min x hi := by
  rw [clamp, if_neg (not_lt.mpr h)]
  split_ifs with hx
  · exact (min_eq_right hx.le).symm
  · exact (min_eq_left (not_lt.mp hx)).symm

/-- A value below the upper bound is only clamped from below. -/
theorem clamp_eq_max (h : x ≤ hi) : clamp x lo hi = max x lo := by
  rw [clamp, if_neg (not_lt.mpr h)]
  split_ifs with hx
  · exact (max_eq_right hx.le).symm
  · exact (max_eq_left (not_lt.mp hx)).symm

variable [IsStrictOrderedRing R]

/-- Clamping a drift from below after each of two steps is clamping it at the end. -/
theorem max_drift (hx : lo ≤ x) (ha : 0 ≤ a) (hb : 0 ≤ b) :
    max (max (x + a * v) lo + b * v) lo = max (x + (a + b) * v) lo := by
  rcases le_total 0 v with hv | hv
  · -- upwards the clamp never fires
    have hav := mul_nonneg ha hv
    rw [max_eq_left (by linarith : lo ≤ x + a * v), add_mul, add_assoc]
  · have hbv := mul_nonpos_of_nonneg_of_nonpos hb hv
    rw [max_add, max_assoc, max_eq_right (by linarith : lo + b * v ≤ lo), add_mul, add_assoc]

/-- Likewise from above. -/
theorem min_drift (hx : x ≤ hi) (ha : 0 ≤ a) (hb : 0 ≤ b) :
    min (min (x + a * v) hi + b * v) hi = min (x + (a + b) * v) hi := by
  rcases le_total 0 v with hv | hv
  · have hbv := mul_nonneg hb hv
    rw [min_add, min_assoc, min_eq_right (by linarith : hi ≤ hi + b * v), add_mul, add_assoc]
  · -- downwards the clamp never fires
    have hav := mul_nonpos_of_nonneg_of_nonpos ha hv
    rw [min_eq_left (by linarith : x + a * v ≤ hi), add_mul, add_assoc]

/-- **Clamped drift.** Clamping a drift on both sides after each of two steps is clamping it at the
end.

**Proof sketch.** A drift has one sign, so only the bound it moves towards matters. -/
theorem clamp_drift (hlo : lo ≤ x) (hhi : x ≤ hi) (ha : 0 ≤ a) (hb : 0 ≤ b) :
    clamp (clamp (x + a * v) lo hi + b * v) lo hi = clamp (x + (a + b) * v) lo hi := by
  rcases le_total 0 v with hv | hv
  · have hav := mul_nonneg ha hv
    have hbv := mul_nonneg hb hv
    have hfirst : lo ≤ min (x + a * v) hi := le_min (by linarith) (by linarith)
    rw [clamp_eq_min (by linarith : lo ≤ x + a * v), clamp_eq_min (by linarith),
      clamp_eq_min (by linarith), min_drift hhi ha hb]
  · have hav := mul_nonpos_of_nonneg_of_nonpos ha hv
    have hbv := mul_nonpos_of_nonneg_of_nonpos hb hv
    have hfirst : max (x + a * v) lo ≤ hi := max_le (by linarith) (by linarith)
    rw [clamp_eq_max (by linarith : x + a * v ≤ hi), clamp_eq_max (by linarith),
      clamp_eq_max (by linarith), max_drift hlo ha hb]

end Drift

namespace KalmanBox

/-! ## Predictions add up -/

/-- The mean is within the clamps. -/
structure Clamped (k : KalmanBox R) : Prop where
  aspect_ge : 1 / 20 ≤ k.mean 2
  aspect_le : k.mean 2 ≤ 20
  one_le_height : 1 ≤ k.mean 3

variable (k : KalmanBox R)

/-- The mean after a prediction. -/
theorem predict_mean (dt : R) : (k.predict dt).mean =
    ![k.mean 0 + dt * k.mean 4, k.mean 1 + dt * k.mean 5,
      clamp (k.mean 2 + dt * k.mean 6) (1 / 20) 20, max (k.mean 3 + dt * k.mean 7) 1,
      k.mean 4, k.mean 5, k.mean 6, k.mean 7] := by
  funext i
  fin_cases i <;> simp [predict, clampState, transition_mulVec]

/-- A warp sees the mean only. -/
theorem applyAffine_mean_congr {k k' : KalmanBox R} (h : k.mean = k'.mean) (w : Affine23 R) :
    (k.applyAffine w).mean = (k'.applyAffine w).mean := by
  simp only [applyAffine, clampState, h]

/-- So does the box. -/
theorem box_congr {k k' : KalmanBox R} (h : k.mean = k'.mean) : k.box = k'.box := by
  simp only [box, h]

section Ordered

variable [IsStrictOrderedRing R] {k}

/-- Every operation ends with the clamps. -/
theorem clamped_clampState : k.clampState.Clamped where
  aspect_ge := by
    rw [clampState_aspect]
    exact le_clamp (by norm_num)
  aspect_le := by
    rw [clampState_aspect]
    exact clamp_le (by norm_num)
  one_le_height := by
    rw [clampState_height]
    exact le_max_right _ _

/-- Two predictions are one. -/
theorem predict_predict_mean (hk : k.Clamped) {a b : R} (ha : 0 ≤ a) (hb : 0 ≤ b) :
    ((k.predict a).predict b).mean = (k.predict (a + b)).mean := by
  rw [predict_mean, predict_mean, predict_mean k]
  have haspect := clamp_drift (v := k.mean 6) hk.aspect_ge hk.aspect_le ha hb
  have hheight := max_drift (v := k.mean 7) hk.one_le_height ha hb
  funext i
  fin_cases i
  · simp [add_mul, add_assoc]
  · simp [add_mul, add_assoc]
  · exact haspect
  · exact hheight
  all_goals simp

/-- **Predictions add up.** A mean within the clamps lands at one prediction for the whole time,
whatever the steps and however often the clamps fire. -/
theorem foldl_predict_mean (hk : k.Clamped) {dts : List R} (hdts : ∀ dt ∈ dts, 0 ≤ dt) :
    (dts.foldl predict k).mean = (k.predict dts.sum).mean := by
  induction dts generalizing k with
  | nil =>
    have haspect := clamp_eq_self hk.aspect_ge hk.aspect_le
    have hheight := max_eq_left hk.one_le_height
    rw [List.foldl_nil, List.sum_nil, predict_mean]
    funext i
    fin_cases i <;> simp [-one_div, haspect, hheight]
  | cons a dts ih =>
    have hrest : ∀ dt ∈ dts, 0 ≤ dt := fun dt hdt => hdts dt (List.mem_cons_of_mem a hdt)
    have hpredicted : (k.predict a).Clamped := clamped_clampState
    rw [List.foldl_cons, ih hpredicted hrest, List.sum_cons]
    exact predict_predict_mean hk (hdts a List.mem_cons_self) (List.sum_nonneg hrest)

end Ordered

end KalmanBox

end Ctrk
