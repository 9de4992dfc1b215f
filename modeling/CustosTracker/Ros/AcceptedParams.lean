import CustosTracker.Ros.ParamConfig
import CustosTracker.Sot.Step
import CustosTracker.Tbd.Schedule

set_option relaxedAutoImplicit false
set_option autoImplicit false

/-!
# Parameters that divide by zero

The single-object facade has one integer division by a parameter: the count of lost frames modulo
`reacquire.detect_every`.  `declare_sot_params` takes that parameter as it is.  The multi-object
facade has none: its cadence is a countdown, and `MultiTracker.update` is total.

## Main definitions

* `Ctrk.SotParams.tracker` — the facade `on_configure` builds.
* `Ctrk.steadyBackend` — a backend that answers every frame alike.

## Main results

* `Ctrk.SotTracker.exists_run_eq_none` — a zero cadence fails once the target is lost.
* `Ctrk.never_divides_by_zero_iff` — which accepted parameters are safe.
* `Ctrk.accepted_divides_by_zero` — parameters that are accepted and fail.
-/

namespace Ctrk

open Params

variable {R : Type} [Scalar R]

/-- The facade `on_configure` builds from parameters. -/
def SotParams.tracker (p : SotParams R) {K : Backend R} (backend : K.State) : SotTracker K :=
  let tracker := SotTracker.new p.cfg backend
  if p.reacquire.enable then tracker.enableReacquire p.reacquire.config else tracker

/-- A backend that answers every frame with one score. -/
def steadyBackend (score : R) : Backend R where
  State := Unit
  init _ _ _ := ()
  update _ _ := (⟨default, score, .tracking⟩, ())
  isNano _ := false
  embed _ _ _ := []
  zf _ := []

/-- The state of a steady backend. -/
def steadyState (score : R) : (steadyBackend score).State := ()

theorem steadyBackend_update (score : R) (b : (steadyBackend score).State) (img : Image Bgr) :
    (steadyBackend score).update b img = (⟨default, score, .tracking⟩, b) := rfl

namespace SotTracker

/-- A frame with a low score fails once the patience is exhausted, when the cadence is zero. -/
theorem update_eq_none (ops : HistOps R) {score : R} {s : SotTracker (steadyBackend score)}
    {rc : ReacquireConfig R} (hrc : s.reacquire = some rc) (hzero : rc.detectEvery = 0)
    (hscore : score < s.cfg.lostScoreThr) (h0 : 0 ≤ s.lowStreak)
    (hlost : s.cfg.lostPatience ≤ s.lowStreak + 1) (frame : Frame R) :
    s.update ops frame = none := by
  have hstreak : s.nextStreak score = s.lowStreak + 1 := if_pos hscore
  have hverdict : s.classify score = .lost := by
    rw [classify, hstreak, if_neg (by omega), if_pos hlost]
  rw [update, steadyBackend_update]
  simp only [hverdict, judge, reacquireStep, hrc, hzero, if_true]

/-- A frame with a low score and patience left counts one more low score. -/
theorem update_of_patience (ops : HistOps R) {score : R} {s : SotTracker (steadyBackend score)}
    (hscore : score < s.cfg.lostScoreThr) (h0 : 0 ≤ s.lowStreak)
    (hpatience : s.lowStreak + 1 < s.cfg.lostPatience) (frame : Frame R) :
    ∃ rep, s.update ops frame = some (rep, { s with lowStreak := s.lowStreak + 1 }) := by
  have hstreak : s.nextStreak score = s.lowStreak + 1 := if_pos hscore
  have hverdict : s.classify score = .unstable := by
    rw [classify, hstreak, if_neg (by omega), if_neg (by omega)]
  refine ⟨⟨⟨default, score, .tracking⟩, none, .unstable, none, none, ⟨default, score, .unstable⟩⟩, ?_⟩
  rw [update, steadyBackend_update]
  simp only [hverdict, hstreak, judge]

/-- **A zero cadence fails** once enough frames in a row have a low score.

**Proof sketch.** Induction on the patience that is left. Each frame uses up one low score; the
frame that exhausts the patience is judged lost and divides by the cadence. -/
theorem exists_run_eq_none (ops : HistOps R) {score : R} (frame : Frame R)
    {rc : ReacquireConfig R} (hzero : rc.detectEvery = 0) (k : ℕ) :
    ∀ s : SotTracker (steadyBackend score), s.reacquire = some rc → score < s.cfg.lostScoreThr →
      0 ≤ s.lowStreak → s.cfg.lostPatience ≤ s.lowStreak + 1 + k →
      ∃ calls : List (SotOp R), s.run ops calls = none := by
  induction k with
  | zero =>
    intro s hrc hscore h0 hlost
    refine ⟨[.update frame], ?_⟩
    rw [run, Trace.run, step, update_eq_none ops hrc hzero hscore h0 (by omega)]
    rfl
  | succ k ih =>
    intro s hrc hscore h0 hlost
    by_cases hlast : s.cfg.lostPatience ≤ s.lowStreak + 1
    · refine ⟨[.update frame], ?_⟩
      rw [run, Trace.run, step, update_eq_none ops hrc hzero hscore h0 hlast]
      rfl
    · obtain ⟨rep, hup⟩ := update_of_patience ops hscore h0 (not_le.mp hlast) frame
      obtain ⟨calls, hcalls⟩ := ih { s with lowStreak := s.lowStreak + 1 } hrc hscore
        (by simp only; omega) (by push_cast at hlost; simp only; omega)
      refine ⟨.update frame :: calls, ?_⟩
      rw [run] at hcalls
      rw [run, Trace.run, step, hup]
      simp [hcalls]

end SotTracker

theorem SotParams.tracker_of_enable {p : SotParams R} (h : p.reacquire.enable = true)
    {K : Backend R} (backend : K.State) : p.tracker backend =
      (SotTracker.new p.cfg backend).enableReacquire p.reacquire.config := if_pos h

/-- The facade has a detector exactly when re-acquisition is enabled. -/
theorem SotParams.tracker_reacquire (p : SotParams R) {K : Backend R} (backend : K.State) :
    (p.tracker backend).reacquire =
      if p.reacquire.enable then some p.reacquire.config else none := by
  unfold SotParams.tracker
  split_ifs <;> rfl

section Ordered

variable [IsStrictOrderedRing R]

/-- With a detector and a zero cadence, some run from a fresh facade divides by zero. -/
theorem exists_divides_by_zero (ops : HistOps R) {p : SotParams R}
    (henable : p.reacquire.enable = true) (hzero : p.reacquire.config.detectEvery = 0) :
    ∃ (K : Backend R) (backend : K.State) (calls : List (SotOp R)),
      (p.tracker backend).run ops calls = none := by
  refine ⟨steadyBackend (p.cfg.resolve.lostScoreThr - 1), steadyState _, ?_⟩
  rw [SotParams.tracker_of_enable henable]
  refine SotTracker.exists_run_eq_none ops (blueFrame 0) hzero p.cfg.resolve.lostPatience.toNat _ rfl
    (sub_one_lt _) le_rfl ?_
  change p.cfg.resolve.lostPatience ≤ 0 + 1 + _
  omega

/-- Every run over parameters goes through exactly when re-acquisition is off or the detector
cadence, as an `int`, is not zero.

**Proof sketch.** With re-acquisition on and a cadence of zero, a backend that reports scores
below the threshold runs out of patience and divides at the next frame.  Otherwise no call
divides by zero, by induction on the calls. -/
theorem run_isSome_iff (p : SotParams R) :
    (∀ (ops : HistOps R) (K : Backend R) (backend : K.State) (calls : List (SotOp R)),
      ((p.tracker backend).run ops calls).isSome = true) ↔
      (p.reacquire.enable = false ∨ p.reacquire.config.detectEvery ≠ 0) := by
  constructor
  · intro h
    by_contra hbad
    rw [not_or, Bool.not_eq_false, not_not] at hbad
    obtain ⟨K, backend, calls, hnone⟩ := exists_divides_by_zero pixelOps hbad.1 hbad.2
    have hsome := h pixelOps K backend calls
    rw [hnone] at hsome
    cases hsome
  · intro h ops K backend calls
    refine SotTracker.run_isSome ops (fun rc hrc => ?_) calls
    rw [SotParams.tracker_reacquire] at hrc
    split_ifs at hrc with henable
    obtain rfl := Option.some.inj hrc
    rcases h with hoff | hne
    · rw [henable] at hoff
      cases hoff
    · exact hne

/-- **Which accepted parameters never divide by zero.** For all parameters that
`declare_sot_params` accepts, every run of the facade over every backend goes through exactly when
re-acquisition is off or the detector cadence, as an `int`, is not zero.  For all parameters that
`declare_tbd_params` accepts, the cadence is over at least one frame and the countdown that stands
for a division by it stays within it, in every run.

**Proof sketch.** Accepting the values plays no part in the first half, which is
`run_isSome_iff`; it is stated for accepted values since only those reach the tracker.  The
countdown of the second half is an invariant of every run of the facade. -/
theorem never_divides_by_zero_iff :
    (∀ (values : String → Option (ParamValue R)) (p : SotParams R),
      declareSotParams.accepts ParamValue.sameType values [] = some p →
      ((∀ (ops : HistOps R) (K : Backend R) (backend : K.State) (calls : List (SotOp R)),
        ((p.tracker backend).run ops calls).isSome = true) ↔
        (p.reacquire.enable = false ∨ p.reacquire.config.detectEvery ≠ 0))) ∧
    (∀ (values : String → Option (ParamValue R)) (p : TbdParams R),
      declareTbdParams.accepts ParamValue.sameType values [] = some p →
      ∀ (ops : TbdOps R) (frames : List (Frame R)), max 1 p.cfg.detectInterval ≠ 0 ∧
        0 ≤ ((MultiTracker.new p.cfg).run ops frames).untilDetect ∧
        ((MultiTracker.new p.cfg).run ops frames).untilDetect < max 1 p.cfg.detectInterval) := by
  refine ⟨fun values p _ => run_isSome_iff p, ?_⟩
  intro values p _ ops frames
  obtain ⟨hnonneg, hlt, -⟩ := MultiTracker.untilDetect_run ops p.cfg frames
  exact ⟨by omega, hnonneg, hlt⟩

end Ordered

/-- Parameters as a launch file may set them: MOSSE, with re-acquisition on and a cadence. -/
def reacquireValues (detectEvery : ℤ) (name : String) : Option (ParamValue ℚ) :=
  if name = "backend" then some (.string "mosse")
  else if name = "reacquire.enable" then some (.bool true)
  else if name = "reacquire.detect_every" then some (.int detectEvery)
  else none

/-- What is read of these parameters. -/
theorem accepts_reacquireValues {detectEvery : ℤ} (h : detectEvery = 0 ∨ detectEvery = 3) :
    ∃ p, declareSotParams.accepts ParamValue.sameType (reacquireValues detectEvery) [] = some p ∧
      p.reacquire.enable = true ∧ p.reacquire.config.detectEvery = detectEvery := by
  have hread : (declareSotParams.accepts ParamValue.sameType (reacquireValues detectEvery) []).map
      (fun p => (p.reacquire.enable, p.reacquire.config.detectEvery)) =
        some (true, detectEvery) := by
    rcases h with rfl | rfl
    · decide +kernel
    · decide +kernel
  obtain ⟨p, hp, hfields⟩ := Option.map_eq_some_iff.mp hread
  obtain ⟨henable, hevery⟩ := Prod.mk.inj hfields
  exact ⟨p, hp, henable, hevery⟩

/-- With a cadence of three frames every run goes through. -/
theorem never_divides_by_zero_iff_three :
    ∃ p, declareSotParams.accepts ParamValue.sameType (reacquireValues 3) [] = some p ∧
      ∀ (ops : HistOps ℚ) (K : Backend ℚ) (backend : K.State) (calls : List (SotOp ℚ)),
        ((p.tracker backend).run ops calls).isSome = true := by
  obtain ⟨p, hp, -, hthree⟩ := accepts_reacquireValues (Or.inr rfl)
  refine ⟨p, hp, (never_divides_by_zero_iff.1 _ p hp).mpr (Or.inr ?_)⟩
  rw [hthree]
  decide

/-- **Accepted parameters that divide by zero.** With a cadence of `0`. -/
theorem accepted_divides_by_zero :
    ¬∀ (values : String → Option (ParamValue ℚ)) (p : SotParams ℚ),
      declareSotParams.accepts ParamValue.sameType values [] = some p →
      ∀ (ops : HistOps ℚ) (K : Backend ℚ) (backend : K.State) (calls : List (SotOp ℚ)),
        ((p.tracker backend).run ops calls).isSome = true := by
  intro h
  obtain ⟨p, hp, henable, hzero⟩ := accepts_reacquireValues (Or.inl rfl)
  obtain ⟨K, backend, calls, hnone⟩ := exists_divides_by_zero pixelOps henable hzero
  have hsome := h _ p hp pixelOps K backend calls
  rw [hnone] at hsome
  cases hsome

end Ctrk
