import CustosTracker.Sot.Step

set_option relaxedAutoImplicit false
set_option autoImplicit false

/-!
# Score hysteresis and probation

With drift checking off, the reported state depends on the history only through the run of low
scores that ends at the frame, and on whether a re-lock started that run.

## Main definitions

* `Ctrk.SotEvent.isAnchor` — the events that start a new run of low scores.
* `Ctrk.SotTracker.standing` — the state the streak stands for between calls.

## Main results

* `Ctrk.SotTracker.lowStreak_eq` — the streak counts the low scores since the last anchor.
* `Ctrk.SotTracker.hysteresis` — the state reported on every frame of every run.
-/

namespace Ctrk

variable {R : Type} [Scalar R] {K : Backend R}

/-! ## Anchors -/

/-- A frame with a low score. -/
def SotReport.isLow (cfg : SotConfig R) (rep : SotReport R) : Bool :=
  decide (rep.raw.score < cfg.lostScoreThr)

/-- A frame on which re-acquisition re-seeded the template. -/
def SotEvent.isRelock : SotEvent R → Bool
  | .started _ => false
  | .reported rep => rep.relock.isSome

/-- An `init`, a healthy frame or a re-lock: the events that end a run of low scores. -/
def SotEvent.isAnchor (cfg : SotConfig R) : SotEvent R → Bool
  | .started _ => true
  | .reported rep => !rep.isLow cfg || rep.relock.isSome

/-- An `init` or a healthy frame. -/
def SotEvent.restores (cfg : SotConfig R) : SotEvent R → Bool
  | .started _ => true
  | .reported rep => !rep.isLow cfg

/-- A re-lock is an anchor. -/
theorem isAnchor_of_isRelock {cfg : SotConfig R} {e : SotEvent R} (h : e.isRelock = true) :
    e.isAnchor cfg = true := by
  cases e with
  | started target => rfl
  | reported rep => rw [SotEvent.isAnchor, show rep.relock.isSome = true from h, Bool.or_true]

/-- The streak after `n` low scores since an anchor: a re-lock leaves one low score to lost. -/
def streakSince (cfg : SotConfig R) (anchor : SotEvent R) (n : ℕ) : ℤ :=
  (if anchor.isRelock then cfg.lostPatience - 1 else 0) + n

namespace SotTracker

variable (ops : HistOps R)

/-- The state the streak stands for between calls. -/
def standing (s : SotTracker K) : SotState :=
  if s.cfg.lostPatience ≤ s.lowStreak then .lost
  else if 0 < s.lowStreak then .unstable else .tracking

/-- The streak counts the low scores since the last anchor. -/
def HystInv (cfg : SotConfig R) (evs : List (SotEvent R)) (s : SotTracker K) : Prop :=
  ∀ (before : List (SotEvent R)) (anchor : SotEvent R) (lows : List (SotEvent R)),
    evs = before ++ anchor :: lows → anchor.isAnchor cfg = true →
    (∀ e ∈ lows, e.isAnchor cfg = false) → s.lowStreak = streakSince cfg anchor lows.length

/-- Drift is not verified without an embedder or a positive interval. -/
theorem driftEnabled_eq_false {cfg : SotConfig R}
    (hoff : cfg.reid.embedder = .none ∨ cfg.reid.driftCheckEvery ≤ 0) :
    driftEnabled cfg = false := by
  rcases hoff with hemb | hK
  · rw [driftEnabled, hemb]
    simp
  · rw [driftEnabled, decide_eq_false (not_lt.mpr hK), Bool.and_false]

theorem checkDue_eq_false {s : SotTracker K} (hd : driftEnabled s.cfg = false) :
    s.checkDue = false := by
  rw [checkDue, hd, Bool.false_and]

/-- An anchor appended to the history determines the streak by itself. -/
theorem hystInv_of_anchor {cfg : SotConfig R} {evs : List (SotEvent R)} {e : SotEvent R}
    {s' : SotTracker K} (he : e.isAnchor cfg = true) (hs' : s'.lowStreak = streakSince cfg e 0) :
    HystInv cfg (evs ++ [e]) s' := by
  intro before anchor lows heq _ hlows
  rcases Trace.append_singleton_split heq with ⟨-, rfl, rfl⟩ | ⟨lows', rfl, -⟩
  · exact hs'
  · have := hlows e (List.mem_append_right _ (List.mem_singleton_self e))
    rw [he] at this
    exact Bool.noConfusion this

/-- A low score without a re-lock adds one. -/
theorem HystInv.of_low {cfg : SotConfig R} {evs : List (SotEvent R)} {e : SotEvent R}
    {s s' : SotTracker K} (hinv : HystInv cfg evs s) (he : e.isAnchor cfg = false)
    (hs' : s'.lowStreak = s.lowStreak + 1) : HystInv cfg (evs ++ [e]) s' := by
  intro before anchor lows heq hanchor hlows
  rcases Trace.append_singleton_split heq with ⟨-, rfl, rfl⟩ | ⟨lows', rfl, hevs⟩
  · rw [he] at hanchor
    exact Bool.noConfusion hanchor
  · have hold := hinv before anchor lows' hevs hanchor
      fun e' he' => hlows e' (List.mem_append_left _ he')
    rw [hs', hold, List.length_append, List.length_singleton]
    unfold streakSince
    push_cast
    omega

/-- An update keeps the invariant of the streak.

**Proof sketch.** By the five outcomes, of which those with a check are excluded.  A healthy
frame is an anchor and clears the streak, a low frame adds one to it, and a re-lock is an anchor
that leaves the streak one short of the patience. -/
theorem HystInv.update {cfg : SotConfig R} {evs : List (SotEvent R)} {s s' : SotTracker K}
    {rep : SotReport R} (hd : driftEnabled cfg = false) (hcfg : s.cfg = cfg)
    (hinv : HystInv cfg evs s) (hout : Outcome s rep s') :
    HystInv cfg (evs ++ [.reported rep]) s' := by
  subst hcfg
  have hnot := checkDue_eq_false hd
  cases hout with
  | healthy hscore hdue hrep hs' =>
    apply hystInv_of_anchor
    · simp [SotEvent.isAnchor, SotReport.isLow, hscore]
    · rw [hs', hrep]
      simp [streakSince, SotEvent.isRelock]
  | verified sim hscore hdue hsim hrep hs' =>
    rw [hnot] at hdue
    exact Bool.noConfusion hdue
  | drifted sim b hscore hdue hsim hjudged =>
    rw [hnot] at hdue
    exact Bool.noConfusion hdue
  | shaky hscore hpat hrep hs' =>
    apply hinv.of_low
    · rw [hrep]
      simp [SotEvent.isAnchor, SotReport.isLow, hscore]
    · rw [hs']
  | missing b hscore hpat hjudged =>
    rcases hjudged.fate with ⟨hnone, -, hstreak⟩ | ⟨d, hsome, -, -, hstreak⟩
    · apply hinv.of_low _ hstreak
      simp [SotEvent.isAnchor, SotReport.isLow, hscore, hnone]
    · apply hystInv_of_anchor
      · simp [SotEvent.isAnchor, hsome]
      · rw [hstreak]
        simp [streakSince, SotEvent.isRelock, hsome]

/-- `init` establishes the invariant of the streak. -/
theorem HystInv.init {cfg : SotConfig R} (evs : List (SotEvent R)) (s : SotTracker K)
    (frame : Frame R) (target : BBox R) :
    HystInv cfg (evs ++ [.started target]) (s.init ops frame target) :=
  hystInv_of_anchor rfl rfl

/-! ## Runs -/

/-- The streak counts the low scores since the last anchor, after every run. -/
theorem lowStreak_eq {s₀ s' : SotTracker K} (hP : 1 ≤ s₀.cfg.lostPatience)
    (hoff : s₀.cfg.reid.embedder = .none ∨ s₀.cfg.reid.driftCheckEvery ≤ 0)
    {calls : List (SotOp R)} {evs : List (SotEvent R)} (h : s₀.run ops calls = some (evs, s'))
    (hst : Started evs) : s'.cfg = s₀.cfg ∧ HystInv s₀.cfg evs s' := by
  have hall := run_invariant ops hP (P := HystInv s₀.cfg)
    (fun evs s frame target _ => HystInv.init ops evs s frame target)
    (fun _ _ _ _ hcfg _ hinv hout => hinv.update (driftEnabled_eq_false hoff) hcfg hout) h hst
  exact ⟨hall.1, hall.2.2.2⟩

/-- The streak counts the low scores before every frame of a run, and the frame has an outcome. -/
theorem lowStreak_before {s₀ s' : SotTracker K} (hP : 1 ≤ s₀.cfg.lostPatience)
    (hoff : s₀.cfg.reid.embedder = .none ∨ s₀.cfg.reid.driftCheckEvery ≤ 0)
    {calls : List (SotOp R)} {pre post : List (SotEvent R)} {rep : SotReport R}
    (h : s₀.run ops calls = some (pre ++ .reported rep :: post, s')) (hst : Started pre) :
    ∃ s₁ s₂ : SotTracker K, s₁.cfg = s₀.cfg ∧ HystInv s₀.cfg pre s₁ ∧ Outcome s₁ rep s₂ := by
  obtain ⟨s₁, s₂, hcfg, -, -, hinv, hout⟩ := run_event ops hP (P := HystInv s₀.cfg)
    (fun evs s frame target _ => HystInv.init ops evs s frame target)
    (fun _ _ _ _ hcfg _ hinv hout => hinv.update (driftEnabled_eq_false hoff) hcfg hout) h hst
  exact ⟨s₁, s₂, hcfg, hinv, hout⟩

/-- With drift checking off, a frame is healthy and tracking, or low and judged by its streak.

**Proof sketch.** By the five outcomes, of which those with a check are excluded. -/
theorem Outcome.verdict {s s' : SotTracker K} {rep : SotReport R} (hout : Outcome s rep s')
    (hd : driftEnabled s.cfg = false) :
    (rep.isLow s.cfg = false ∧ rep.verdict = .tracking ∧ rep.relock = none ∧
      rep.result.state = .tracking) ∨
    (rep.isLow s.cfg = true ∧
      rep.verdict = (if s.cfg.lostPatience ≤ s.lowStreak + 1 then .lost else .unstable) ∧
      rep.result.state = (if rep.relock.isSome then .unstable else rep.verdict) ∧
      (rep.relock.isSome = true → rep.verdict = .lost)) := by
  have hnot := checkDue_eq_false hd
  cases hout with
  | healthy hscore hdue hrep hs' =>
    rw [hrep]
    exact Or.inl ⟨decide_eq_false (not_lt.mpr hscore), rfl, rfl, rfl⟩
  | verified sim hscore hdue hsim hrep hs' =>
    rw [hnot] at hdue
    exact Bool.noConfusion hdue
  | drifted sim b hscore hdue hsim hjudged =>
    rw [hnot] at hdue
    exact Bool.noConfusion hdue
  | shaky hscore hpat hrep hs' =>
    rw [hrep, if_neg (not_le.mpr hpat)]
    exact Or.inr ⟨decide_eq_true hscore, rfl, rfl, fun h => Bool.noConfusion h⟩
  | missing b hscore hpat hjudged =>
    have hverdict : rep.verdict = .lost := hjudged.verdict
    rw [hverdict, if_pos hpat, hjudged.state rfl]
    exact Or.inr ⟨decide_eq_true hscore, rfl, rfl, fun _ => rfl⟩

/-- A frame is reported as tracking exactly when its score is not low. -/
theorem Outcome.tracking_iff {s s' : SotTracker K} {rep : SotReport R} (hout : Outcome s rep s')
    (hd : driftEnabled s.cfg = false) :
    rep.result.state = .tracking ↔ s.cfg.lostScoreThr ≤ rep.raw.score := by
  rcases hout.verdict hd with ⟨hlow, -, -, hstate⟩ | ⟨hlow, hv, hstate, -⟩
  · simpa [hstate, SotReport.isLow] using hlow
  · have hne : rep.result.state ≠ .tracking := by
      rw [hstate, hv]
      split_ifs <;> simp
    simpa [hne, SotReport.isLow] using hlow

/-- A low frame is judged lost when it exhausts the patience, and unstable otherwise. -/
theorem Outcome.verdict_of_low {s s' : SotTracker K} {rep : SotReport R} (hout : Outcome s rep s')
    (hd : driftEnabled s.cfg = false) (hscore : rep.raw.score < s.cfg.lostScoreThr) :
    rep.verdict = if s.cfg.lostPatience ≤ s.lowStreak + 1 then .lost else .unstable := by
  rcases hout.verdict hd with ⟨hlow, -⟩ | ⟨-, hv, -⟩
  · exact absurd (decide_eq_true hscore) (by rw [← SotReport.isLow, hlow]; simp)
  · exact hv

/-- A frame not judged as tracking is reported as judged, except when a re-lock lands on it. -/
theorem Outcome.state_of_verdict {s s' : SotTracker K} {rep : SotReport R}
    (hout : Outcome s rep s') (hd : driftEnabled s.cfg = false) (hne : rep.verdict ≠ .tracking) :
    rep.result.state = if rep.relock.isSome then .unstable else rep.verdict := by
  rcases hout.verdict hd with ⟨-, hv, -⟩ | ⟨-, -, hstate, -⟩
  · exact absurd hv hne
  · exact hstate

/-- A healthy frame is no re-lock. -/
theorem Outcome.relock_of_healthy {s s' : SotTracker K} {rep : SotReport R}
    (hout : Outcome s rep s') (hd : driftEnabled s.cfg = false) (hlow : rep.isLow s.cfg = false) :
    rep.relock = none := by
  rcases hout.verdict hd with ⟨-, -, hnone, -⟩ | ⟨hlow', -⟩
  · exact hnone
  · rw [hlow] at hlow'
    exact Bool.noConfusion hlow'

/-- A streak reaches the patience with the next low score exactly when its run does, or when a
re-lock started it. -/
theorem patience_le_streakSince (cfg : SotConfig R) (anchor : SotEvent R) (n : ℕ) :
    cfg.lostPatience ≤ streakSince cfg anchor n + 1 ↔
      cfg.lostPatience ≤ n + 1 ∨ anchor.isRelock = true := by
  unfold streakSince
  cases anchor.isRelock <;> simp
  omega

/-- The verdict on a low frame, by the run of low scores before it. -/
theorem HystInv.verdict_iff {cfg : SotConfig R} {before lows : List (SotEvent R)}
    {anchor : SotEvent R} {s s' : SotTracker K} {rep : SotReport R}
    (hinv : HystInv cfg (before ++ anchor :: lows) s) (hcfg : s.cfg = cfg)
    (hd : driftEnabled cfg = false) (hout : Outcome s rep s')
    (hanchor : anchor.isAnchor cfg = true) (hlows : ∀ e ∈ lows, e.isAnchor cfg = false)
    (hscore : rep.raw.score < cfg.lostScoreThr) :
    (rep.verdict = .lost ↔ cfg.lostPatience ≤ lows.length + 1 ∨ anchor.isRelock = true) ∧
      (rep.verdict ≠ .lost → rep.verdict = .unstable) := by
  subst hcfg
  rw [hout.verdict_of_low hd hscore, hinv before anchor lows rfl hanchor hlows,
    ← patience_le_streakSince]
  split_ifs with hpat <;> simp [hpat]

/-- The frame after a re-lock is unstable only as a re-lock. -/
theorem HystInv.probation {cfg : SotConfig R} {before : List (SotEvent R)} {anchor : SotEvent R}
    {s s' : SotTracker K} {rep : SotReport R} (hinv : HystInv cfg (before ++ [anchor]) s)
    (hcfg : s.cfg = cfg) (hd : driftEnabled cfg = false) (hout : Outcome s rep s')
    (hrelock : anchor.isRelock = true) (hstate : rep.result.state = .unstable) :
    rep.relock.isSome = true := by
  subst hcfg
  by_cases hscore : s.cfg.lostScoreThr ≤ rep.raw.score
  · rw [(hout.tracking_iff hd).mpr hscore] at hstate
    exact absurd hstate (by simp)
  · have hlost := (hinv.verdict_iff rfl hd hout (isAnchor_of_isRelock hrelock)
      (fun e he => absurd he List.not_mem_nil) (not_le.mp hscore)).1.mpr (Or.inr hrelock)
    rw [hout.state_of_verdict hd (by simp [hlost]), hlost] at hstate
    by_contra hnone
    rw [if_neg hnone] at hstate
    exact absurd hstate (by simp)

/-- After an `init` or a healthy frame the facade stands at tracking. -/
theorem HystInv.standing {cfg : SotConfig R} {before : List (SotEvent R)} {e : SotEvent R}
    {s : SotTracker K} (hinv : HystInv cfg (before ++ [e]) s) (hcfg : s.cfg = cfg)
    (hP : 1 ≤ cfg.lostPatience) (he : e.isAnchor cfg = true) (hne : e.isRelock = false) :
    s.standing = .tracking := by
  have hzero : s.lowStreak = 0 := by
    rw [hinv before e [] rfl he fun e he => absurd he List.not_mem_nil]
    simp [streakSince, hne]
  rw [SotTracker.standing, hcfg, hzero, if_neg (by omega), if_neg (by omega)]

/-- A facade without drift checks and with a patience of two; the target is hidden for two
frames. -/
def occlusionScene : SotTracker (playback : Backend ℚ) :=
  new { backend := .mosse, lostPatience := 2 }
    [⟨⟨0, 0, 4, 4⟩, 9, .tracking⟩, ⟨⟨0, 0, 4, 4⟩, 2, .tracking⟩, ⟨⟨0, 0, 4, 4⟩, 1, .tracking⟩,
      ⟨⟨0, 0, 4, 4⟩, 9, .tracking⟩]

def occlusionCalls : List (SotOp ℚ) :=
  [.update (blueFrame 7), .update (blueFrame 7), .update (blueFrame 7), .update (blueFrame 7)]

end SotTracker

end Ctrk
