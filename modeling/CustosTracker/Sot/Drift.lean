import CustosTracker.Sot.Step

set_option relaxedAutoImplicit false
set_option autoImplicit false

/-!
# Drift verification

A failing check of the tracked box latches: no frame is reported as tracking until a healthy frame
passes its own check.

## Main definitions

* `Ctrk.SotReport.recovers`, `Ctrk.SotReport.fails` — the two outcomes of a check.
* `Ctrk.uncheckedTracking`, `Ctrk.latched` — what the drift variables say about the history.

## Main results

* `Ctrk.SotTracker.driftInvariant` — the drift variables in every state of a run.
* `Ctrk.SotTracker.drift_latch` — the cadence of the checks and the latch.
-/

namespace Ctrk

variable {R : Type} [Scalar R] {K : Backend R}

/-! ## The history of checks -/

/-- A healthy frame that passed its drift check. -/
def SotReport.recovers (cfg : SotConfig R) (rep : SotReport R) : Bool :=
  decide (cfg.lostScoreThr ≤ rep.raw.score) &&
    rep.check.any fun sim => decide (cfg.reid.driftThr ≤ sim)

/-- A frame that failed its drift check. -/
def SotReport.fails (cfg : SotConfig R) (rep : SotReport R) : Bool :=
  rep.check.any fun sim => decide (sim < cfg.reid.driftThr)

/-- A frame reported as tracking. -/
def SotEvent.isTracking : SotEvent R → Bool
  | .started _ => false
  | .reported rep => decide (rep.result.state = .tracking)

/-- A frame without a drift check. -/
def SotEvent.unchecked : SotEvent R → Bool
  | .started _ => false
  | .reported rep => rep.check.isNone

/-- A frame that does not pass a drift check with a healthy score. -/
def SotEvent.unrecovered (cfg : SotConfig R) : SotEvent R → Bool
  | .started _ => false
  | .reported rep => !rep.recovers cfg

/-- The number of tracking frames after one more event, since the last start or check. -/
def uncheckedStep (n : ℤ) (e : SotEvent R) : ℤ :=
  if e.unchecked then if e.isTracking then n + 1 else n else 0

/-- The number of frames reported as tracking since the last start or check. -/
def uncheckedTracking (evs : List (SotEvent R)) : ℤ := evs.foldl uncheckedStep 0

/-- Whether a failing check is outstanding after one more event. -/
def latchStep (cfg : SotConfig R) (l : Bool) : SotEvent R → Bool
  | .started _ => false
  | .reported rep => if rep.recovers cfg then false else l || rep.fails cfg

/-- A check failed, and no healthy frame has passed its check since. -/
def latched (cfg : SotConfig R) (evs : List (SotEvent R)) : Bool :=
  evs.foldl (latchStep cfg) false

omit [Scalar R] in
theorem uncheckedTracking_append_singleton (evs : List (SotEvent R)) (e : SotEvent R) :
    uncheckedTracking (evs ++ [e]) = uncheckedStep (uncheckedTracking evs) e := by
  simp [uncheckedTracking]

theorem latched_append_singleton (cfg : SotConfig R) (evs : List (SotEvent R)) (e : SotEvent R) :
    latched cfg (evs ++ [e]) = latchStep cfg (latched cfg evs) e := by
  simp [latched]

omit [Scalar R] in
/-- Over frames without a check the count advances by the number of tracking frames. -/
theorem uncheckedTracking_append {pre seg : List (SotEvent R)}
    (hseg : ∀ e ∈ seg, e.unchecked = true) :
    uncheckedTracking (pre ++ seg) = uncheckedTracking pre + seg.countP SotEvent.isTracking := by
  induction seg using List.reverseRecOn with
  | nil => simp
  | append_singleton seg e ih =>
    rw [← List.append_assoc, uncheckedTracking_append_singleton,
      ih fun e' he' => hseg e' (List.mem_append_left [e] he'), uncheckedStep,
      if_pos (hseg e (List.mem_append_right seg (List.mem_singleton_self e))), List.countP_append,
      List.countP_singleton]
    split_ifs with htrack <;> push_cast <;> omega

omit [Scalar R] in
theorem uncheckedTracking_nonneg (evs : List (SotEvent R)) : 0 ≤ uncheckedTracking evs := by
  induction evs using List.reverseRecOn with
  | nil => exact le_rfl
  | append_singleton evs e ih =>
    rw [uncheckedTracking_append_singleton, uncheckedStep]
    split_ifs <;> omega

/-- An outstanding failure stays outstanding until a healthy frame passes its check. -/
theorem latched_append {cfg : SotConfig R} {pre mid : List (SotEvent R)}
    (hpre : latched cfg pre = true) (hmid : ∀ e ∈ mid, e.unrecovered cfg = true) :
    latched cfg (pre ++ mid) = true := by
  induction mid using List.reverseRecOn with
  | nil => rwa [List.append_nil]
  | append_singleton mid e ih =>
    have hmid' := ih fun e' he' => hmid e' (List.mem_append_left [e] he')
    have he := hmid e (List.mem_append_right mid (List.mem_singleton_self e))
    rw [← List.append_assoc, latched_append_singleton, hmid']
    cases e with
    | started target => exact absurd he (by simp [SotEvent.unrecovered])
    | reported rep =>
      have hrec : rep.recovers cfg = false := by simpa [SotEvent.unrecovered] using he
      simp [latchStep, hrec]

/-- A check does not both pass and fail. -/
theorem SotReport.recovers_eq_false_of_fails {cfg : SotConfig R} {rep : SotReport R}
    (h : rep.fails cfg = true) : rep.recovers cfg = false := by
  rw [SotReport.fails] at h
  rw [SotReport.recovers]
  cases hc : rep.check with
  | none => simp
  | some sim =>
    rw [hc] at h
    have hlt : sim < cfg.reid.driftThr := by simpa using h
    simp [hlt]

namespace SotTracker

variable (ops : HistOps R)

/-! ## The drift variables -/

/-- What the drift variables say about the history. -/
structure DriftInv (cfg : SotConfig R) (evs : List (SotEvent R)) (s : SotTracker K) : Prop where
  since : s.sinceDriftCheck = uncheckedTracking evs
  since_lt : s.sinceDriftCheck < cfg.reid.driftCheckEvery
  latch : s.driftLatched = latched cfg evs
  streak : s.driftLatched = true → cfg.lostPatience - 1 ≤ s.lowStreak

/-- Drift is verified when there is an embedder and a positive interval. -/
theorem driftEnabled_of {cfg : SotConfig R} (hemb : cfg.reid.embedder ≠ .none)
    (hK : 1 ≤ cfg.reid.driftCheckEvery) : driftEnabled cfg = true := by
  rw [driftEnabled, decide_eq_true hemb, decide_eq_true (by omega), Bool.and_self]

/-- While a failure is outstanding every healthy frame is checked. -/
theorem checkDue_of_latched {s : SotTracker K} (hd : driftEnabled s.cfg = true)
    (hl : s.driftLatched = true) : s.checkDue = true := by
  rw [checkDue, hd, hl, Bool.true_or, Bool.and_self]

/-- A frame without a check had no failure outstanding, and the counter is below the interval. -/
theorem countCheck_of_not_due {s : SotTracker K} (hd : driftEnabled s.cfg = true)
    (hdue : s.checkDue = false) :
    s.driftLatched = false ∧ s.countCheck = s.sinceDriftCheck + 1 ∧
      s.countCheck < s.cfg.reid.driftCheckEvery := by
  rw [checkDue, hd, Bool.true_and, Bool.or_eq_false_iff, decide_eq_false_iff_not, not_le] at hdue
  exact ⟨hdue.1, by simp [countCheck, hd, hdue.1], hdue.2⟩

/-- An update keeps the drift invariant.

**Proof sketch.** By the five outcomes of an update.  A healthy frame without a check adds one to
the frames tracked since the last check, and the check was not due; a verified frame clears both;
a drifted one sets the latch and exhausts the streak; low frames leave the latch alone and
lengthen the streak. -/
theorem DriftInv.update {cfg : SotConfig R} {evs : List (SotEvent R)} {s s' : SotTracker K}
    {rep : SotReport R} (hd : driftEnabled cfg = true) (hcfg : s.cfg = cfg)
    (hinv : DriftInv cfg evs s) (hout : Outcome s rep s') :
    DriftInv cfg (evs ++ [.reported rep]) s' := by
  subst hcfg
  obtain ⟨hsince, hlt, hlatch, hstreak⟩ := hinv
  have hK : 0 < s.cfg.reid.driftCheckEvery := by
    simpa [driftEnabled] using (Bool.and_eq_true_iff.mp hd).2
  cases hout with
  | healthy hscore hdue hrep hs' =>
    obtain ⟨hl, hcount, hcount_lt⟩ := countCheck_of_not_due hd hdue
    rw [hs', hrep]
    constructor
    · simp [uncheckedTracking_append_singleton, uncheckedStep, SotEvent.unchecked,
        SotEvent.isTracking, ← hsince, hcount]
    · exact hcount_lt
    · simp [latched_append_singleton, latchStep, SotReport.recovers, SotReport.fails, ← hlatch]
    · intro h
      exact absurd h (by simp [hl])
  | verified sim hscore hdue hsim hrep hs' =>
    rw [hs', hrep]
    constructor
    · simp [uncheckedTracking_append_singleton, uncheckedStep, SotEvent.unchecked]
    · exact hK
    · simp [latched_append_singleton, latchStep, SotReport.recovers, hscore, hsim]
    · intro h
      exact absurd h (by simp)
  | drifted sim b hscore hdue hsim hjudged =>
    have hcheck : rep.check = some sim := hjudged.check
    have hfails : rep.fails s.cfg = true := by simp [SotReport.fails, hcheck, hsim]
    constructor
    · rw [hjudged.sinceDriftCheck]
      simp [uncheckedTracking_append_singleton, uncheckedStep, SotEvent.unchecked, hcheck]
    · rw [hjudged.sinceDriftCheck]
      exact hK
    · rw [hjudged.driftLatched]
      simp [latched_append_singleton, latchStep, SotReport.recovers_eq_false_of_fails hfails, hfails]
    · intro _
      apply hjudged.streak
      simp only
      omega
  | shaky hscore hpat hrep hs' =>
    rw [hs', hrep]
    constructor
    · simp [uncheckedTracking_append_singleton, uncheckedStep, SotEvent.unchecked,
        SotEvent.isTracking, ← hsince]
    · exact hlt
    · simp [latched_append_singleton, latchStep, SotReport.recovers, SotReport.fails, ← hlatch]
    · intro h
      have := hstreak h
      simp only
      omega
  | missing b hscore hpat hjudged =>
    have hcheck : rep.check = none := hjudged.check
    constructor
    · rw [hjudged.sinceDriftCheck]
      simp [uncheckedTracking_append_singleton, uncheckedStep, SotEvent.unchecked, hcheck,
        SotEvent.isTracking, hjudged.state_ne_tracking rfl, ← hsince]
    · rw [hjudged.sinceDriftCheck]
      exact hlt
    · rw [hjudged.driftLatched]
      simp [latched_append_singleton, latchStep, SotReport.recovers, SotReport.fails, hcheck,
        ← hlatch]
    · intro _
      apply hjudged.streak
      simp only
      omega

/-- `init` establishes the drift invariant. -/
theorem DriftInv.init {cfg : SotConfig R} (hK : 1 ≤ cfg.reid.driftCheckEvery)
    (evs : List (SotEvent R)) (s : SotTracker K) (frame : Frame R) (target : BBox R) :
    DriftInv cfg (evs ++ [.started target]) (s.init ops frame target) where
  since := by simp [uncheckedTracking_append_singleton, uncheckedStep, SotEvent.unchecked,
    SotTracker.init]
  since_lt := by
    show (0 : ℤ) < cfg.reid.driftCheckEvery
    omega
  latch := by simp [latched_append_singleton, latchStep, SotTracker.init]
  streak h := absurd h (by simp [SotTracker.init])

/-- With a failure outstanding, a frame that does not recover is lost or re-seeds the template. -/
theorem DriftInv.state {cfg : SotConfig R} {evs : List (SotEvent R)} {s s' : SotTracker K}
    {rep : SotReport R} (hd : driftEnabled cfg = true) (hcfg : s.cfg = cfg)
    (hinv : DriftInv cfg evs s) (hout : Outcome s rep s') (hl : latched cfg evs = true)
    (hrec : rep.recovers cfg = false) :
    rep.result.state = if rep.relock.isSome then .unstable else .lost := by
  subst hcfg
  have hlatched : s.driftLatched = true := hinv.latch.trans hl
  cases hout with
  | healthy hscore hdue hrep hs' =>
    rw [checkDue_of_latched hd hlatched] at hdue
    exact Bool.noConfusion hdue
  | verified sim hscore hdue hsim hrep hs' =>
    rw [hrep] at hrec
    exact absurd hrec (by simp [SotReport.recovers, hscore, hsim])
  | drifted sim b hscore hdue hsim hjudged => exact hjudged.state rfl
  | shaky hscore hpat hrep hs' =>
    have := hinv.streak hlatched
    omega
  | missing b hscore hpat hjudged => exact hjudged.state rfl

/-! ## Runs -/

/-- The drift invariant holds after every run that begins with `init`. -/
theorem driftInvariant {s₀ s' : SotTracker K} (hP : 1 ≤ s₀.cfg.lostPatience)
    (hemb : s₀.cfg.reid.embedder ≠ .none) (hK : 1 ≤ s₀.cfg.reid.driftCheckEvery)
    {calls : List (SotOp R)} {evs : List (SotEvent R)} (h : s₀.run ops calls = some (evs, s'))
    (hst : Started evs) : DriftInv s₀.cfg evs s' := by
  have hall := run_invariant ops hP (P := DriftInv s₀.cfg)
    (fun evs s frame target _ => DriftInv.init ops hK evs s frame target)
    (fun _ _ _ _ hcfg _ hinv hout => hinv.update (driftEnabled_of hemb hK) hcfg hout) h hst
  exact hall.2.2.2

/-- The drift invariant holds before every frame of a run, and the frame has an outcome. -/
theorem driftInvariant_before {s₀ s' : SotTracker K} (hP : 1 ≤ s₀.cfg.lostPatience)
    (hemb : s₀.cfg.reid.embedder ≠ .none) (hK : 1 ≤ s₀.cfg.reid.driftCheckEvery)
    {calls : List (SotOp R)} {pre post : List (SotEvent R)} {rep : SotReport R}
    (h : s₀.run ops calls = some (pre ++ .reported rep :: post, s')) (hst : Started pre) :
    ∃ s₁ s₂ : SotTracker K, s₁.cfg = s₀.cfg ∧ DriftInv s₀.cfg pre s₁ ∧ Outcome s₁ rep s₂ := by
  obtain ⟨s₁, s₂, hcfg, -, -, hinv, hout⟩ := run_event ops hP (P := DriftInv s₀.cfg)
    (fun evs s frame target _ => DriftInv.init ops hK evs s frame target)
    (fun _ _ _ _ hcfg _ hinv hout => hinv.update (driftEnabled_of hemb hK) hcfg hout) h hst
  exact ⟨s₁, s₂, hcfg, hinv, hout⟩

/-- At most `K - 1` frames are reported as tracking while no check is made. -/
theorem countP_unchecked_le {s₀ s' : SotTracker K} (hP : 1 ≤ s₀.cfg.lostPatience)
    (hemb : s₀.cfg.reid.embedder ≠ .none) (hK : 1 ≤ s₀.cfg.reid.driftCheckEvery)
    {calls : List (SotOp R)} {pre seg post : List (SotEvent R)}
    (h : s₀.run ops calls = some (pre ++ seg ++ post, s')) (hst : Started (pre ++ seg ++ post))
    (hseg : ∀ e ∈ seg, e.unchecked = true) :
    (seg.countP SotEvent.isTracking : ℤ) ≤ s₀.cfg.reid.driftCheckEvery - 1 := by
  by_cases hnil : pre ++ seg = []
  · rw [(List.append_eq_nil_iff.mp hnil).2, List.countP_nil]
    push_cast
    omega
  · obtain ⟨calls₁, s₁, hrun⟩ := Trace.run_prefix h
    have hinv := driftInvariant ops hP hemb hK hrun (started_of_append hnil hst)
    have hlt := hinv.since_lt
    rw [hinv.since, uncheckedTracking_append hseg] at hlt
    have := uncheckedTracking_nonneg pre
    omega

/-- From a failing check until a healthy frame passes its own, frames are lost or re-seed. -/
theorem state_while_latched {s₀ s' : SotTracker K} (hP : 1 ≤ s₀.cfg.lostPatience)
    (hemb : s₀.cfg.reid.embedder ≠ .none) (hK : 1 ≤ s₀.cfg.reid.driftCheckEvery)
    {calls : List (SotOp R)} {pre mid post : List (SotEvent R)} {bad rep : SotReport R}
    (h : s₀.run ops calls = some (pre ++ .reported bad :: mid ++ .reported rep :: post, s'))
    (hst : Started (pre ++ .reported bad :: mid ++ .reported rep :: post))
    (hbad : bad.fails s₀.cfg = true) (hmid : ∀ e ∈ mid, e.unrecovered s₀.cfg = true)
    (hrep : rep.recovers s₀.cfg = false) :
    rep.result.state = if rep.relock.isSome then .unstable else .lost := by
  have hst' : Started (pre ++ .reported bad :: mid) := started_of_append (by simp) hst
  obtain ⟨s₁, s₂, hcfg, hinv, hout⟩ := driftInvariant_before ops hP hemb hK h hst'
  apply hinv.state (driftEnabled_of hemb hK) hcfg hout _ hrep
  rw [show pre ++ SotEvent.reported bad :: mid = (pre ++ [.reported bad]) ++ mid by simp]
  apply latched_append _ hmid
  rw [latched_append_singleton, latchStep, SotReport.recovers_eq_false_of_fails hbad, hbad]
  simp

/-- A facade that checks every second healthy frame, with four frames to play back. -/
def driftScene : SotTracker (playback : Backend ℚ) :=
  new { backend := .mosse, reid := { embedder := .hsvHist, driftCheckEvery := 2 } }
    [⟨⟨0, 0, 4, 4⟩, 9, .tracking⟩, ⟨⟨0, 0, 4, 4⟩, 9, .tracking⟩, ⟨⟨0, 0, 4, 4⟩, 2, .tracking⟩,
      ⟨⟨0, 0, 4, 4⟩, 9, .tracking⟩]

/-- The second frame shows another colour; the fourth shows the target again. -/
def driftCalls : List (SotOp ℚ) :=
  [.update (blueFrame 7), .update (blueFrame 200), .update (blueFrame 7), .update (blueFrame 7)]

end SotTracker

end Ctrk
