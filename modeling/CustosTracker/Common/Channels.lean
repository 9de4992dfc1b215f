import CustosTracker.Common.Motion
import CustosTracker.Library.Coupling

set_option relaxedAutoImplicit false
set_option autoImplicit false

/-!
# The channels of the Kalman filter

Without a camera warp the four measured coordinates never mix: the covariance couples each one with
its own velocity only.  The dense algebra of `update` is then four scalar corrections, and the trace
of the covariance can be read off channel by channel.

## Main definitions

* `Ctrk.KalmanBox.pos`, `Ctrk.KalmanBox.vel`, `Ctrk.KalmanBox.channel` — the four channels.
* `Ctrk.KalmanBox.corrected` — `update` before the clamps.
* `Ctrk.KalmanBox.covarianceTrace` — the uncertainty of a filter.
* `Ctrk.KalmanBox.Decoupled` — the invariant of a filter that meets no warp.

## Main results

* `Ctrk.KalmanBox.Decoupled.corrected_mean`, `Ctrk.KalmanBox.Decoupled.corrected_cov` — a
  correction, coordinate by coordinate.
* `Ctrk.KalmanBox.nsa_scaling` — less noise corrects harder, and never too far.
* `Ctrk.KalmanBox.uncertainty_grows` — coasting adds uncertainty, and a measurement adds none.
-/

namespace Ctrk

open Matrix Quadratic Coupling

variable {R : Type} [Scalar R]

namespace KalmanBox

/-! ## Channels -/

/-- A measured coordinate. -/
def pos (c : Fin 4) : Fin 8 := Fin.castAdd 4 c

/-- The velocity of a measured coordinate. -/
def vel (c : Fin 4) : Fin 8 := Fin.natAdd 4 c

/-- The channel of a coordinate. -/
def channel (i : Fin 8) : Fin 4 := ⟨i.val % 4, Nat.mod_lt _ (by decide)⟩

@[simp] theorem channel_pos (c : Fin 4) : channel (pos c) = c :=
  Fin.ext (Nat.mod_eq_of_lt c.isLt)

@[simp] theorem channel_vel (c : Fin 4) : channel (vel c) = c :=
  Fin.ext ((Nat.add_mod_left 4 c).trans (Nat.mod_eq_of_lt c.isLt))

/-- A sum over the coordinates is one over the channels. -/
theorem sum_eq_channels (f : Fin 8 → R) : ∑ i, f i = ∑ c, (f (pos c) + f (vel c)) := by
  rw [Finset.sum_add_distrib]
  exact @Fin.sum_univ_add R _ 4 4 f

theorem measurement_mul {n : Type} (A : Matrix (Fin 8) n R) (c : Fin 4) (j : n) :
    ((measurement : Matrix (Fin 4) (Fin 8) R) * A) c j = A (pos c) j := by
  have hread := congrFun (measurement_mulVec fun i => A i j) c
  fin_cases c <;> exact hread

theorem mul_measurement {m : Type} (A : Matrix m (Fin 8) R) (i : m) (c : Fin 4) :
    (A * (measurement : Matrix (Fin 4) (Fin 8) R)ᵀ) i c = A i (pos c) := by
  have hread := measurement_mul Aᵀ c i
  rwa [← transpose_transpose A, ← transpose_mul, transpose_apply, transpose_apply]

theorem couples_measurement :
    Couples id channel (measurement : Matrix (Fin 4) (Fin 8) R) := by
  intro i j hij
  refine if_neg fun h => hij (Fin.ext ?_)
  have hlt := i.isLt
  simp only [id_eq, channel]
  omega

theorem couples_transition (dt : R) : Couples channel channel (transition dt) := by
  intro i j hij
  have hne : ¬i = j := fun h => hij (congrArg channel h)
  have hfar : ¬j.val = i.val + 4 := fun h => hij (Fin.ext (by simp only [channel]; omega))
  rw [transition, of_apply, if_neg hne, if_neg hfar]

theorem transition_mul_pos (dt : R) (A : Matrix (Fin 8) (Fin 8) R) (c : Fin 4) (j : Fin 8) :
    (transition dt * A) (pos c) j = A (pos c) j + dt * A (vel c) j := by
  have hmove := congrFun (transition_mulVec dt fun i => A i j) (pos c)
  fin_cases c <;> exact hmove

theorem transition_mul_vel (dt : R) (A : Matrix (Fin 8) (Fin 8) R) (c : Fin 4) (j : Fin 8) :
    (transition dt * A) (vel c) j = A (vel c) j := by
  have hmove := congrFun (transition_mulVec dt fun i => A i j) (vel c)
  fin_cases c <;> exact hmove

theorem mul_transition_pos (dt : R) (A : Matrix (Fin 8) (Fin 8) R) (i : Fin 8) (c : Fin 4) :
    (A * (transition dt)ᵀ) i (pos c) = A i (pos c) + dt * A i (vel c) := by
  have hmove := transition_mul_pos dt Aᵀ c i
  rwa [← transpose_transpose A, ← transpose_mul, transpose_apply, transpose_apply]

theorem mul_transition_vel (dt : R) (A : Matrix (Fin 8) (Fin 8) R) (i : Fin 8) (c : Fin 4) :
    (A * (transition dt)ᵀ) i (vel c) = A i (vel c) := by
  have hmove := transition_mul_vel dt Aᵀ c i
  rwa [← transpose_transpose A, ← transpose_mul, transpose_apply, transpose_apply]

/-! ## The correction -/

/-- The variance of the measurement noise. -/
def noise (k : KalmanBox R) (rScale : R) (c : Fin 4) : R :=
  k.noiseStd c * k.noiseStd c * max rScale (1 / 10 ^ 4)

/-- `update` before the clamps. -/
def corrected (k : KalmanBox R) (z : BBox R) (rScale : R) : KalmanBox R :=
  let H : Matrix (Fin 4) (Fin 8) R := measurement
  let K := k.gain rScale
  { mean := k.mean + K *ᵥ (toMeasurement z - H *ᵥ k.mean), cov := (1 - K * H) * k.cov }

/-- `update` corrects and clamps. -/
theorem update_eq (k : KalmanBox R) (z : BBox R) (rScale : R) :
    k.update z rScale = (k.corrected z rScale).clampState := rfl

/-- `covariance_trace`. -/
def covarianceTrace (k : KalmanBox R) : R := ∑ i, k.cov i i

/-- The innovation covariance measures the prior and adds noise. -/
theorem innovationCov_apply (k : KalmanBox R) (rScale : R) (c d : Fin 4) :
    k.innovationCov rScale c d =
      k.cov (pos c) (pos d) + diagonal (k.noise rScale) c d := by
  rw [innovationCov, Matrix.add_apply, mul_measurement, measurement_mul]
  rfl

/-- The invariant of a filter that meets no warp: a valid filter whose covariance couples each
coordinate with its own velocity only. -/
structure Decoupled (k : KalmanBox R) : Prop where
  valid : k.Valid
  cov : Couples channel channel k.cov

section Correction

variable [LawfulScalar R] {k : KalmanBox R}

omit [LawfulScalar R] in
/-- A variance is nonnegative. -/
theorem Decoupled.variance_nonneg (hk : k.Decoupled) (i : Fin 8) : 0 ≤ k.cov i i :=
  hk.valid.cov.diag_nonneg i

theorem Decoupled.noise_pos (hk : k.Decoupled) (rScale : R) (c : Fin 4) : 0 < k.noise rScale c :=
  hk.valid.noise_pos rScale c

theorem Decoupled.innovation_pos (hk : k.Decoupled) (rScale : R) (c : Fin 4) :
    0 < k.cov (pos c) (pos c) + k.noise rScale c :=
  add_pos_of_nonneg_of_pos (hk.variance_nonneg _) (hk.noise_pos rScale c)

/-- Less scale means less noise. -/
theorem noise_mono (k : KalmanBox R) {r₁ r₂ : R} (h : r₁ ≤ r₂) (c : Fin 4) :
    k.noise r₁ c ≤ k.noise r₂ c :=
  mul_le_mul_of_nonneg_left (max_le_max_right _ h) (mul_self_nonneg _)

/-- The gain corrects each coordinate, and its velocity, by the innovation of its channel. -/
theorem Decoupled.couples_gain (hk : k.Decoupled) (rScale : R) :
    Couples channel id (k.gain rScale) ∧ ∀ i c, k.gain rScale i c =
      k.cov i (pos c) / (k.cov (pos c) (pos c) + k.noise rScale c) := by
  have hS : Couples id id (k.innovationCov rScale) :=
    ((couples_measurement.mul hk.cov).mul couples_measurement.transpose).add (couples_diagonal _)
  have hdiag : ∀ c, k.innovationCov rScale c c = k.cov (pos c) (pos c) + k.noise rScale c := by
    intro c
    rw [innovationCov_apply, diagonal_apply_eq]
  have hentry : ∀ i c, k.gain rScale i c =
      k.cov i (pos c) / (k.cov (pos c) (pos c) + k.noise rScale c) := by
    intro i c
    have hne : ∀ c, k.innovationCov rScale c c ≠ 0 := by
      intro c
      rw [hdiag]
      exact (hk.innovation_pos rScale c).ne'
    rw [hS.div_apply hne (hk.valid.gain_mul rScale), mul_measurement, hdiag]
  refine ⟨fun i c hic => ?_, hentry⟩
  rw [hentry, hk.cov i (pos c) (by rwa [channel_pos]), zero_div]

/-- **The corrected mean.** Each measured coordinate moves by a share of the way to the
measurement. -/
theorem Decoupled.corrected_mean (hk : k.Decoupled) (z : BBox R) (rScale : R) (c : Fin 4) :
    (k.corrected z rScale).mean (pos c) = k.mean (pos c) +
      share (k.cov (pos c) (pos c)) (k.noise rScale c) * (toMeasurement z c - k.mean (pos c)) := by
  obtain ⟨hgain, hentry⟩ := hk.couples_gain rScale
  have hread : (measurement *ᵥ k.mean) c = k.mean (pos c) := by
    rw [measurement_mulVec]
    fin_cases c <;> rfl
  simp only [corrected, Pi.add_apply]
  rw [hgain.mulVec_apply, hentry, channel_pos, Pi.sub_apply, hread, share]

/-- **The corrected covariance.** What the measurement explains is taken off. -/
theorem Decoupled.corrected_cov (hk : k.Decoupled) (z : BBox R) (rScale : R) (i j : Fin 8) :
    (k.corrected z rScale).cov i j = k.cov i j -
      k.cov i (pos (channel i)) * k.cov (pos (channel i)) j /
        (k.cov (pos (channel i)) (pos (channel i)) + k.noise rScale (channel i)) := by
  obtain ⟨hgain, hentry⟩ := hk.couples_gain rScale
  simp only [corrected]
  rw [Matrix.sub_mul, Matrix.one_mul, Matrix.sub_apply, Matrix.mul_assoc, hgain.mul_apply, hentry,
    measurement_mul, div_mul_eq_mul_div]

/-! ## The invariant -/

/-- A started filter is decoupled. -/
theorem decoupled_initiate (z : BBox R) : (initiate z).Decoupled :=
  ⟨valid_initiate z, couples_diagonal _⟩

/-- Prediction keeps a filter decoupled. -/
theorem Decoupled.predict (hk : k.Decoupled) (dt : R) : (k.predict dt).Decoupled :=
  ⟨hk.valid.predict dt, (((couples_transition dt).mul hk.cov).mul
    (couples_transition dt).transpose).add (couples_diagonal _)⟩

/-- A measurement keeps a filter decoupled. -/
theorem Decoupled.update (hk : k.Decoupled) (z : BBox R) (rScale : R) :
    (k.update z rScale).Decoupled := by
  refine ⟨hk.valid.update z rScale, fun i j hij => ?_⟩
  change (k.corrected z rScale).cov i j = 0
  rw [hk.corrected_cov, hk.cov i j hij, hk.cov (pos (channel i)) j (by rwa [channel_pos]), mul_zero,
    zero_div, sub_zero]

omit [LawfulScalar R] in
/-- Seeding the velocity keeps the covariance. -/
theorem seedVelocity_cov (k : KalmanBox R) (z : BBox R) (dt : R) :
    (k.seedVelocity z dt).cov = k.cov := by
  unfold KalmanBox.seedVelocity
  split_ifs <;> rfl

omit [LawfulScalar R] in
theorem Decoupled.seedVelocity (hk : k.Decoupled) (z : BBox R) (dt : R) :
    (k.seedVelocity z dt).Decoupled :=
  ⟨hk.valid.seedVelocity z dt, by rw [seedVelocity_cov]; exact hk.cov⟩

end Correction

end KalmanBox

/-- An operation other than a warp. -/
def KalmanOp.NoWarp : KalmanOp R → Prop
  | .applyAffine _ => False
  | _ => True

/-- An operation other than a warp that does not go back in time. -/
def KalmanOp.Forward : KalmanOp R → Prop
  | .predict dt => 0 ≤ dt
  | .applyAffine _ => False
  | _ => True

namespace KalmanBox

section Runs

variable [LawfulScalar R] {k : KalmanBox R}

/-- Every operation but a warp keeps a filter decoupled. -/
theorem Decoupled.apply (hk : k.Decoupled) {op : KalmanOp R} (hop : op.NoWarp) :
    (k.apply op).Decoupled := by
  cases op with
  | predict dt => exact hk.predict dt
  | update z rScale => exact hk.update z rScale
  | seedVelocity z dt => exact hk.seedVelocity z dt
  | applyAffine w => exact hop.elim

theorem Decoupled.run (hk : k.Decoupled) {ops : List (KalmanOp R)} (hops : ∀ op ∈ ops, op.NoWarp) :
    (k.run ops).Decoupled :=
  List.foldlRecOn ops KalmanBox.apply hk fun _ hk op hop => hk.apply (hops op hop)

end Runs

/-! ## Noise scales -/

section Scale

variable [LawfulScalar R] {k : KalmanBox R} {r₁ r₂ : R}

/-- A correction takes a square off each variance, weighted by the noise. -/
theorem Decoupled.corrected_variance (hk : k.Decoupled) (z : BBox R) (rScale : R) (i : Fin 8) :
    (k.corrected z rScale).cov i i = k.cov i i -
      k.cov i (pos (channel i)) * k.cov i (pos (channel i)) /
        (k.cov (pos (channel i)) (pos (channel i)) + k.noise rScale (channel i)) := by
  rw [hk.corrected_cov, hk.valid.cov.1.apply (pos (channel i)) i]

/-- A measurement never adds uncertainty. -/
theorem Decoupled.trace_update_le (hk : k.Decoupled) (z : BBox R) (rScale : R) :
    (k.update z rScale).covarianceTrace ≤ k.covarianceTrace := by
  refine Finset.sum_le_sum fun i _ => ?_
  change (k.corrected z rScale).cov i i ≤ k.cov i i
  rw [hk.corrected_variance]
  exact sub_le_self _ (div_nonneg (mul_self_nonneg _) (hk.innovation_pos rScale _).le)

/-- Less noise leaves less uncertainty. -/
theorem Decoupled.trace_update_mono (hk : k.Decoupled) (z : BBox R) (hle : r₁ ≤ r₂) :
    (k.update z r₁).covarianceTrace ≤ (k.update z r₂).covarianceTrace := by
  refine Finset.sum_le_sum fun i _ => ?_
  change (k.corrected z r₁).cov i i ≤ (k.corrected z r₂).cov i i
  rw [hk.corrected_variance, hk.corrected_variance]
  apply sub_le_sub_left
  exact div_le_div_of_nonneg_left (mul_self_nonneg _) (hk.innovation_pos r₁ _)
    (add_le_add_right (k.noise_mono hle _) _)

/-- What `clampState` does to a measured coordinate. -/
def clampCoord : Fin 4 → R → R := ![id, id, fun x => clamp x (1 / 20) 20, fun x => max x 1]

omit [LawfulScalar R] in
theorem clampState_pos (k : KalmanBox R) (c : Fin 4) :
    k.clampState.mean (pos c) = clampCoord c (k.mean (pos c)) := by
  fin_cases c
  · exact clampState_mean k (by decide) (by decide)
  · exact clampState_mean k (by decide) (by decide)
  · exact clampState_aspect k
  · exact clampState_height k

/-- A clamp pulls every number towards one within its bounds. -/
theorem pulls_clamp {lo hi p : R} (hlo : lo ≤ p) (hhi : p ≤ hi) :
    Pulls (fun x => clamp x lo hi) p where
  mono x y hxy := by
    simp only [clamp]
    split_ifs <;> linarith
  below x hx := by
    rw [clamp_eq_max (hx.trans hhi)]
    exact le_max_left x lo
  above x hx := by
    rw [clamp_eq_min (hlo.trans hx)]
    exact min_le_left x hi

/-- The clamps pull towards the mean of a valid filter. -/
theorem Valid.pulls_clampCoord (hk : k.Valid) (c : Fin 4) :
    Pulls (clampCoord c) (k.mean (pos c)) := by
  fin_cases c
  · exact pulls_id _
  · exact pulls_id _
  · exact pulls_clamp hk.aspect_ge hk.aspect_le
  · exact ⟨fun x y h => max_le_max_right 1 h, fun x _ => le_max_left x 1,
      fun x hx => max_le le_rfl (hk.one_le_height.trans hx)⟩

/-- **NSA scaling.** A filter started on any box, after any operations without a camera warp:

* the covariance couples each measured coordinate with its own velocity only;
* a measurement moves each measured coordinate to a point between the prior and the measured value;
* with a smaller noise scale each coordinate ends no further from the measurement, before the clamps
  and after them, and the trace of the covariance is no greater.

**Proof sketch.** Without a warp the operations keep the channels apart, so the correction acts
on each measured coordinate as a scalar one: it moves the coordinate towards the measurement by
the share `P / (P + r)` of the way, which shrinks as the noise `r` grows.  The clamps only pull
towards an interval, and the trace is the sum of the corrected variances. -/
theorem nsa_scaling (z : BBox R) (ops : List (KalmanOp R)) (hops : ∀ op ∈ ops, op.NoWarp) :
    let k : KalmanBox R := (initiate z).run ops
    (∀ i j, channel i ≠ channel j → k.cov i j = 0) ∧
    (∀ (m : BBox R) (rScale : R), k.update m rScale = (k.corrected m rScale).clampState ∧
      ∀ c, (k.corrected m rScale).mean (pos c) ∈
        segment R (k.mean (pos c)) (toMeasurement m c)) ∧
    ∀ (m : BBox R) (r₁ r₂ : R), r₁ ≤ r₂ →
      (∀ c, |toMeasurement m c - (k.corrected m r₁).mean (pos c)| ≤
          |toMeasurement m c - (k.corrected m r₂).mean (pos c)| ∧
        |toMeasurement m c - (k.update m r₁).mean (pos c)| ≤
          |toMeasurement m c - (k.update m r₂).mean (pos c)|) ∧
      (k.update m r₁).covarianceTrace ≤ (k.update m r₂).covarianceTrace := by
  intro k
  have hk : k.Decoupled := (decoupled_initiate z).run hops
  refine ⟨hk.cov, fun m rScale => ⟨rfl, fun c => ?_⟩, fun m r₁ r₂ hle => ⟨fun c => ⟨?_, ?_⟩, ?_⟩⟩
  · rw [hk.corrected_mean]
    exact move_mem_segment (hk.variance_nonneg _) (hk.noise_pos rScale c) _ _
  · rw [hk.corrected_mean, hk.corrected_mean]
    exact abs_sub_move_le (hk.variance_nonneg _) (hk.noise_pos r₁ c) (k.noise_mono hle c) _ _
  · rw [update_eq, update_eq, clampState_pos, clampState_pos, hk.corrected_mean, hk.corrected_mean]
    exact abs_sub_pull_move_le (hk.valid.pulls_clampCoord c) (hk.variance_nonneg _)
      (hk.noise_pos r₁ c) (k.noise_mono hle c) _
  · exact hk.trace_update_mono m hle

theorem nsa_scaling_twoFrames :
    ((((initiate (⟨0, 0, 10, 20⟩ : BBox ℝ)).run [.predict 1]).update ⟨1, 1, 10, 20⟩
        (1 / 10)).covarianceTrace ≤
      (((initiate (⟨0, 0, 10, 20⟩ : BBox ℝ)).run [.predict 1]).update ⟨1, 1, 10, 20⟩
        1).covarianceTrace) :=
  ((nsa_scaling (⟨0, 0, 10, 20⟩ : BBox ℝ) [.predict 1] (by simp [KalmanOp.NoWarp])).2.2
    ⟨1, 1, 10, 20⟩ (1 / 10) 1 (by norm_num)).2

end Scale

/-! ## Coasting -/

/-- The variance of the process noise of `predict`. -/
def processNoise (k : KalmanBox R) : Fin 8 → R :=
  let h := k.mean 3
  let std : Fin 8 → R :=
    ![kStdWeightPos * h, kStdWeightPos * h, 1 / 10 ^ 2, kStdWeightPos * h,
      kStdWeightVel * h, kStdWeightVel * h, 1 / 10 ^ 5, kStdWeightVel * h]
  fun i => std i * std i

theorem predict_cov (k : KalmanBox R) (dt : R) : (k.predict dt).cov =
    transition dt * k.cov * (transition dt)ᵀ + diagonal k.processNoise := rfl

/-- The invariant of a filter that meets no warp and never goes back in time: each coordinate is
positively correlated with its velocity. -/
structure Spreading (k : KalmanBox R) : Prop extends Decoupled k where
  cross : ∀ c, 0 ≤ k.cov (pos c) (vel c)

section Coast

variable [LawfulScalar R] {k : KalmanBox R}

/-- Every coordinate of a valid filter has process noise.

**Proof sketch.** The eight standard deviations are multiples of the height, which is at least
one, or positive constants; the noise is their squares. -/
theorem Valid.processNoise_pos (hk : k.Valid) (i : Fin 8) : 0 < k.processNoise i := by
  have hheight : 0 < k.mean 3 := zero_lt_one.trans_le hk.one_le_height
  have hpos : (0 : R) < kStdWeightPos * k.mean 3 := mul_pos (by norm_num [kStdWeightPos]) hheight
  have hvel : (0 : R) < kStdWeightVel * k.mean 3 := mul_pos (by norm_num [kStdWeightVel]) hheight
  have hstd : ∀ j, 0 < ![kStdWeightPos * k.mean 3, kStdWeightPos * k.mean 3, 1 / 10 ^ 2,
      kStdWeightPos * k.mean 3, kStdWeightVel * k.mean 3, kStdWeightVel * k.mean 3, 1 / 10 ^ 5,
      kStdWeightVel * k.mean 3] j := by
    intro j
    fin_cases j
    · exact hpos
    · exact hpos
    · change (0 : R) < 1 / 10 ^ 2
      positivity
    · exact hpos
    · exact hvel
    · exact hvel
    · change (0 : R) < 1 / 10 ^ 5
      positivity
    · exact hvel
  exact mul_pos (hstd i) (hstd i)

/-- A started filter has no correlation yet. -/
theorem spreading_initiate (z : BBox R) : (initiate z).Spreading where
  toDecoupled := decoupled_initiate z
  cross c := (diagonal_apply_ne _ (by fin_cases c <;> decide)).ge

/-- Prediction carries the variance of a velocity into the correlation. -/
theorem Spreading.predict (hk : k.Spreading) {dt : R} (hdt : 0 ≤ dt) :
    (k.predict dt).Spreading where
  toDecoupled := hk.toDecoupled.predict dt
  cross c := by
    have hnoise : diagonal k.processNoise (pos c) (vel c) = 0 :=
      diagonal_apply_ne _ (by fin_cases c <;> decide)
    rw [predict_cov, Matrix.add_apply, hnoise, mul_transition_vel, transition_mul_pos, add_zero]
    exact add_nonneg (hk.cross c) (mul_nonneg hdt (hk.variance_nonneg _))

/-- A measurement scales the correlation down, by what is left of the share. -/
theorem Spreading.update (hk : k.Spreading) (z : BBox R) (rScale : R) :
    (k.update z rScale).Spreading where
  toDecoupled := hk.toDecoupled.update z rScale
  cross c := by
    have hleft : (k.corrected z rScale).cov (pos c) (vel c) =
        (1 - share (k.cov (pos c) (pos c)) (k.noise rScale c)) * k.cov (pos c) (vel c) := by
      rw [hk.corrected_cov, channel_pos, share]
      ring
    change 0 ≤ (k.corrected z rScale).cov (pos c) (vel c)
    rw [hleft]
    have hone := (share_mem (hk.variance_nonneg (pos c)) (hk.noise_pos rScale c)).2
    exact mul_nonneg (sub_nonneg.mpr hone) (hk.cross c)

/-- Every operation that does not go back in time keeps the correlations nonnegative. -/
theorem Spreading.apply (hk : k.Spreading) {op : KalmanOp R} (hop : op.Forward) :
    (k.apply op).Spreading := by
  cases op with
  | predict dt => exact hk.predict hop
  | update z rScale => exact hk.update z rScale
  | seedVelocity z dt =>
    exact ⟨hk.toDecoupled.seedVelocity z dt, by
      change ∀ c, 0 ≤ (k.seedVelocity z dt).cov (pos c) (vel c)
      rw [seedVelocity_cov]
      exact hk.cross⟩
  | applyAffine w => exact hop.elim

theorem Spreading.run (hk : k.Spreading) {ops : List (KalmanOp R)} (hops : ∀ op ∈ ops, op.Forward) :
    (k.run ops).Spreading :=
  List.foldlRecOn ops KalmanBox.apply hk fun _ hk op hop => hk.apply (hops op hop)

/-- **A prediction adds uncertainty.** In each channel the variance of the position gains twice the
correlation and the variance of the velocity, and both gain process noise. -/
theorem Spreading.trace_lt_predict (hk : k.Spreading) {dt : R} (hdt : 0 ≤ dt) :
    k.covarianceTrace < (k.predict dt).covarianceTrace := by
  rw [covarianceTrace, covarianceTrace, sum_eq_channels, sum_eq_channels]
  refine Finset.sum_lt_sum_of_nonempty ⟨0, Finset.mem_univ 0⟩ fun c _ => ?_
  have hposnoise := hk.valid.processNoise_pos (pos c)
  have hvelnoise := hk.valid.processNoise_pos (vel c)
  have hcross : 0 ≤ dt * k.cov (pos c) (vel c) := mul_nonneg hdt (hk.cross c)
  have hcross' : 0 ≤ dt * k.cov (vel c) (pos c) := by
    rw [hk.valid.cov.1.apply (pos c) (vel c)]
    exact hcross
  have hspeed : 0 ≤ dt * (dt * k.cov (vel c) (vel c)) :=
    mul_nonneg hdt (mul_nonneg hdt (hk.variance_nonneg _))
  rw [predict_cov, Matrix.add_apply, Matrix.add_apply, diagonal_apply_eq, diagonal_apply_eq,
    mul_transition_pos, mul_transition_vel, transition_mul_pos, transition_mul_pos,
    transition_mul_vel, mul_add]
  linarith

/-- Along a coast every later trace is greater.

**Proof sketch.** By induction on the steps: one prediction increases the trace and keeps the
invariant, and by the induction hypothesis every later trace exceeds the one after that
prediction. -/
theorem Spreading.pairwise_coast (hk : k.Spreading) {dts : List R} (hdts : ∀ dt ∈ dts, 0 ≤ dt) :
    ((dts.scanl KalmanBox.predict k).map covarianceTrace).Pairwise (· < ·) := by
  induction dts generalizing k with
  | nil => exact List.pairwise_singleton _ _
  | cons dt dts ih =>
    have hdt := hdts dt List.mem_cons_self
    have htail := ih (hk.predict hdt) fun dt' h => hdts dt' (List.mem_cons_of_mem dt h)
    have hstep := hk.trace_lt_predict hdt
    -- the traces after the step begin with the trace after the step
    obtain ⟨rest, hrest⟩ : ∃ rest,
        dts.scanl KalmanBox.predict (k.predict dt) = k.predict dt :: rest := by
      cases dts with
      | nil => exact ⟨[], List.scanl_nil⟩
      | cons dt' dts => exact ⟨_, List.scanl_cons⟩
    rw [hrest, List.map_cons] at htail
    rw [List.scanl_cons, hrest, List.map_cons, List.map_cons, List.pairwise_cons]
    refine ⟨fun t ht => ?_, htail⟩
    rcases List.mem_cons.mp ht with rfl | ht
    · exact hstep
    · exact hstep.trans ((List.pairwise_cons.mp htail).1 t ht)

/-- **Uncertainty grows while coasting.** A filter started on any box, after any operations without
a camera warp whose predictions do not go back in time: no position is negatively correlated with a
velocity; a prediction over any time `dt ≥ 0` increases the trace of the covariance, so that the
traces along a coast increase; and no measurement increases it.

**Proof sketch.** All operations keep the invariant `Spreading`: the channels are apart and no
position is negatively correlated with its own velocity.  So a prediction adds nonnegative cross
terms and positive noise to the trace, and a correction takes a nonnegative amount off each
diagonal entry. -/
theorem uncertainty_grows (z : BBox R) (ops : List (KalmanOp R)) (hops : ∀ op ∈ ops, op.Forward) :
    let k : KalmanBox R := (initiate z).run ops
    (∀ c d, 0 ≤ k.cov (pos c) (vel d) ∧ 0 ≤ k.cov (vel d) (pos c)) ∧
    (∀ dt, 0 ≤ dt → k.covarianceTrace < (k.predict dt).covarianceTrace) ∧
    (∀ dts : List R, (∀ dt ∈ dts, 0 ≤ dt) →
      ((dts.scanl predict k).map covarianceTrace).Pairwise (· < ·)) ∧
    ∀ (m : BBox R) (rScale : R), (k.update m rScale).covarianceTrace ≤ k.covarianceTrace := by
  intro k
  have hk : k.Spreading := (spreading_initiate z).run hops
  refine ⟨fun c d => ?_, fun dt hdt => hk.trace_lt_predict hdt, fun dts hdts =>
    hk.pairwise_coast hdts, fun m rScale => hk.trace_update_le m rScale⟩
  have hcross : 0 ≤ k.cov (pos c) (vel d) := by
    by_cases hcd : c = d
    · rw [hcd]
      exact hk.cross d
    · exact (hk.cov _ _ (by rwa [channel_pos, channel_vel])).ge
  exact ⟨hcross, by rwa [hk.valid.cov.1.apply (pos c) (vel d)]⟩

theorem uncertainty_grows_coast :
    ((([1, 2, 3] : List ℝ).scanl predict ((initiate ⟨0, 0, 10, 20⟩).run
      [.predict 1, .update ⟨1, 1, 10, 20⟩ 1])).map covarianceTrace).Pairwise (· < ·) :=
  (uncertainty_grows (⟨0, 0, 10, 20⟩ : BBox ℝ) [.predict 1, .update ⟨1, 1, 10, 20⟩ 1]
    (by simp [KalmanOp.Forward])).2.2.1 [1, 2, 3] (by simp)

end Coast

end KalmanBox

end Ctrk
