import CustosTracker.Sot.Step

set_option relaxedAutoImplicit false
set_option autoImplicit false

/-!
# The cadence and the anchor of re-acquisition

The detector looks for the target around the last credible box, at a fixed cadence over the frames
judged lost since that box was set, with a radius that does not shrink meanwhile.

## Main definitions

* `Ctrk.SotEvent.setsGood`, `Ctrk.SotEvent.goodBox` — the events that set the last credible box.

## Main results

* `Ctrk.SotTracker.Outcome.anchor` — what a frame does to the last credible box and the lost count.
* `Ctrk.SotTracker.reacquisition` — anchor, count, cadence and radius over every run.
-/

namespace Ctrk

variable {R : Type} [Scalar R] {K : Backend R}

/-! ## The last credible box -/

/-- An `init` or a frame reported as tracking. -/
def SotEvent.setsGood : SotEvent R → Bool
  | .started _ => true
  | .reported rep => decide (rep.result.state = .tracking)

/-- The box such an event makes credible: the target, or the reported box. -/
def SotEvent.goodBox : SotEvent R → BBox R
  | .started target => target
  | .reported rep => rep.result.box

/-- A frame judged lost, by its score or by a drift check. -/
def SotEvent.judgedLost : SotEvent R → Bool
  | .started _ => false
  | .reported rep => decide (rep.verdict = .lost)

namespace SotTracker

variable (ops : HistOps R)

/-- The last credible box is that of the last event that set one, and the lost count is the number
of frames judged lost since. -/
def GoodInv (evs : List (SotEvent R)) (s : SotTracker K) : Prop :=
  ∀ (before : List (SotEvent R)) (good : SotEvent R) (since : List (SotEvent R)),
    evs = before ++ good :: since → good.setsGood = true → (∀ e ∈ since, e.setsGood = false) →
    s.lastGood = good.goodBox ∧ s.framesLost = since.countP SotEvent.judgedLost

/-- The radius of a search: it grows with the lost count. -/
theorem searchRadius_eq (s : SotTracker K) (rc : ReacquireConfig R) : s.searchRadius rc =
    hypot s.lastGood.w s.lastGood.h * (rc.baseRadiusFrac + rc.growthPerFrame * s.framesLost) :=
  rfl

/-- What a frame does to the last credible box and the lost count, and when it calls the
detector. -/
inductive AnchorStep (s : SotTracker K) (rc : ReacquireConfig R) (rep : SotReport R)
    (s' : SotTracker K) : Prop
  | tracking (hstate : rep.result.state = .tracking) (hverdict : rep.verdict = .tracking)
      (hsearch : rep.search = none) (hgood : s'.lastGood = rep.result.box) (hlost : s'.framesLost = 0)
  | unstable (hstate : rep.result.state = .unstable) (hverdict : rep.verdict = .unstable)
      (hsearch : rep.search = none) (hgood : s'.lastGood = s.lastGood)
      (hlost : s'.framesLost = s.framesLost)
  | lost (hstate : rep.result.state ≠ .tracking) (hverdict : rep.verdict = .lost)
      (hsearch : rep.search = if rc.detectEvery ∣ s.framesLost + 1 then
        some (hypot s.lastGood.w s.lastGood.h *
          (rc.baseRadiusFrac + rc.growthPerFrame * (s.framesLost + 1 : ℤ))) else none)
      (hgood : s'.lastGood = s.lastGood) (hlost : s'.framesLost = s.framesLost + 1)

/-- A frame judged lost counts, and calls the detector at its cadence. -/
theorem Judged.anchor {s b s' : SotTracker K} {rc : ReacquireConfig R} {rep₀ rep : SotReport R}
    (h : Judged b rep₀ rep s') (hrc : s.reacquire = some rc) (hb : b.reacquire = s.reacquire)
    (hgood : b.lastGood = s.lastGood) (hlost : b.framesLost = s.framesLost)
    (h₀ : rep₀.verdict = .lost) (hstate : rep₀.result.state = .lost) : AnchorStep s rc rep s' := by
  have hbrc : b.reacquire = some rc := hb.trans hrc
  apply AnchorStep.lost
  · exact h.state_ne_tracking hstate
  · rw [h.verdict, h₀]
  · obtain ⟨-, hsearch⟩ := h.search rc hbrc
    rw [hsearch, searchRadius_eq, hlost, hgood]
    simp only [Int.dvd_iff_tmod_eq_zero]
  · rw [h.lastGood, hgood]
  · rw [h.framesLost, hbrc, hlost]
    simp

/-- Every outcome of an update is such a step. -/
theorem Outcome.anchor {s s' : SotTracker K} {rc : ReacquireConfig R} {rep : SotReport R}
    (hrc : s.reacquire = some rc) (hout : Outcome s rep s') : AnchorStep s rc rep s' := by
  cases hout with
  | healthy hscore hdue hrep hs' =>
    rw [hrep, hs']
    exact .tracking rfl rfl rfl rfl rfl
  | verified sim hscore hdue hsim hrep hs' =>
    rw [hrep, hs']
    exact .tracking rfl rfl rfl rfl rfl
  | drifted sim b hscore hdue hsim hjudged => exact hjudged.anchor hrc rfl rfl rfl rfl rfl
  | shaky hscore hpat hrep hs' =>
    rw [hrep, hs']
    exact .unstable rfl rfl rfl rfl rfl
  | missing b hscore hpat hjudged => exact hjudged.anchor hrc rfl rfl rfl rfl rfl

/-- An event that sets the last credible box resets the count. -/
theorem goodInv_of_setsGood {evs : List (SotEvent R)} {e : SotEvent R} {s' : SotTracker K}
    (he : e.setsGood = true) (hgood : s'.lastGood = e.goodBox) (hlost : s'.framesLost = 0) :
    GoodInv (evs ++ [e]) s' := by
  intro before good since heq _ hsince
  rcases Trace.append_singleton_split heq with ⟨-, rfl, rfl⟩ | ⟨since', rfl, -⟩
  · exact ⟨hgood, by rw [hlost, List.countP_nil, Nat.cast_zero]⟩
  · have := hsince e (List.mem_append_right _ (List.mem_singleton_self e))
    rw [he] at this
    exact Bool.noConfusion this

/-- Any other event keeps the box and counts when it is judged lost. -/
theorem GoodInv.of_not_setsGood {evs : List (SotEvent R)} {e : SotEvent R} {s s' : SotTracker K}
    (hinv : GoodInv evs s) (he : e.setsGood = false) (hgood : s'.lastGood = s.lastGood)
    (hlost : s'.framesLost = s.framesLost + if e.judgedLost then 1 else 0) :
    GoodInv (evs ++ [e]) s' := by
  intro before good since heq hsets hsince
  rcases Trace.append_singleton_split heq with ⟨-, rfl, rfl⟩ | ⟨since', rfl, hevs⟩
  · rw [he] at hsets
    exact Bool.noConfusion hsets
  · obtain ⟨hbox, hcount⟩ := hinv before good since' hevs hsets
      fun e' he' => hsince e' (List.mem_append_left _ he')
    refine ⟨hgood.trans hbox, ?_⟩
    rw [hlost, hcount, List.countP_append, List.countP_singleton]
    split_ifs <;> push_cast <;> ring

/-- An update keeps the invariant. -/
theorem GoodInv.update {evs : List (SotEvent R)} {s s' : SotTracker K} {rc : ReacquireConfig R}
    {rep : SotReport R} (hinv : GoodInv evs s) (hstep : AnchorStep s rc rep s') :
    GoodInv (evs ++ [.reported rep]) s' := by
  cases hstep with
  | tracking hstate hverdict hsearch hgood hlost =>
    exact goodInv_of_setsGood (decide_eq_true hstate) hgood hlost
  | unstable hstate hverdict hsearch hgood hlost =>
    apply hinv.of_not_setsGood _ hgood
    · rw [hlost]
      simp [SotEvent.judgedLost, hverdict]
    · simp [SotEvent.setsGood, hstate]
  | lost hstate hverdict hsearch hgood hlost =>
    apply hinv.of_not_setsGood _ hgood
    · rw [hlost]
      simp [SotEvent.judgedLost, hverdict]
    · simp [SotEvent.setsGood, hstate]

/-- The detector is called on the frames judged lost whose ordinal is a multiple of its cadence. -/
theorem AnchorStep.search_isSome {s s' : SotTracker K} {rc : ReacquireConfig R} {rep : SotReport R}
    (hstep : AnchorStep s rc rep s') :
    rep.search.isSome = true ↔ rep.verdict = .lost ∧ rc.detectEvery ∣ s.framesLost + 1 := by
  cases hstep with
  | tracking hstate hverdict hsearch hgood hlost => simp [hverdict, hsearch]
  | unstable hstate hverdict hsearch hgood hlost => simp [hverdict, hsearch]
  | lost hstate hverdict hsearch hgood hlost =>
    rw [hsearch]
    split_ifs with hdvd <;> simp [hverdict, hdvd]

/-- The detector is not called on frames reported as tracking or judged unstable. -/
theorem AnchorStep.search_eq_none {s s' : SotTracker K} {rc : ReacquireConfig R}
    {rep : SotReport R} (hstep : AnchorStep s rc rep s')
    (h : rep.result.state = .tracking ∨ rep.verdict = .unstable) : rep.search = none := by
  cases hstep with
  | tracking hstate hverdict hsearch hgood hlost => exact hsearch
  | unstable hstate hverdict hsearch hgood hlost => exact hsearch
  | lost hstate hverdict hsearch hgood hlost =>
    rcases h with htrack | hunstable
    · exact absurd htrack hstate
    · rw [hverdict] at hunstable
      exact absurd hunstable (by simp)

/-- A search does not set the last credible box, and its radius follows from box and count. -/
theorem AnchorStep.radius {s s' : SotTracker K} {rc : ReacquireConfig R} {rep : SotReport R} {r : R}
    (hstep : AnchorStep s rc rep s') (hr : rep.search = some r) :
    rep.result.state ≠ .tracking ∧ r = hypot s.lastGood.w s.lastGood.h *
      (rc.baseRadiusFrac + rc.growthPerFrame * (s.framesLost + 1 : ℤ)) := by
  cases hstep with
  | tracking hstate hverdict hsearch hgood hlost =>
    rw [hsearch] at hr
    exact absurd hr (by simp)
  | unstable hstate hverdict hsearch hgood hlost =>
    rw [hsearch] at hr
    exact absurd hr (by simp)
  | lost hstate hverdict hsearch hgood hlost =>
    rw [hsearch] at hr
    split_ifs at hr
    exact ⟨hstate, (Option.some.inj hr).symm⟩

/-- The radius around one box grows with the lost count. -/
theorem radius_mono [LawfulScalar R] {rc : ReacquireConfig R} (hgrowth : 0 ≤ rc.growthPerFrame)
    (box : BBox R) {m n : ℤ} (hmn : m ≤ n) :
    hypot box.w box.h * (rc.baseRadiusFrac + rc.growthPerFrame * (m + 1 : ℤ)) ≤
      hypot box.w box.h * (rc.baseRadiusFrac + rc.growthPerFrame * (n + 1 : ℤ)) := by
  have hdiag : 0 ≤ hypot box.w box.h := LawfulScalar.sqrt_nonneg _
  have hcount : ((m + 1 : ℤ) : R) ≤ ((n + 1 : ℤ) : R) := by
    apply Int.cast_le.mpr
    omega
  gcongr

/-! ## Runs -/

/-- The invariant holds after every run that begins with `init`. -/
theorem goodInvariant {s₀ s' : SotTracker K} {rc : ReacquireConfig R}
    (hP : 1 ≤ s₀.cfg.lostPatience) (hrc : s₀.reacquire = some rc) {calls : List (SotOp R)}
    {evs : List (SotEvent R)} (h : s₀.run ops calls = some (evs, s')) (hst : Started evs) :
    GoodInv evs s' := by
  have hall := run_invariant ops hP (P := GoodInv)
    (fun evs s frame target _ => goodInv_of_setsGood rfl rfl rfl)
    (fun _ _ _ _ _ hrq hinv hout => hinv.update (hout.anchor (hrq.trans hrc))) h hst
  exact hall.2.2.2

/-- The invariant holds before every frame of a run, and the frame is such a step. -/
theorem goodInvariant_before {s₀ s' : SotTracker K} {rc : ReacquireConfig R}
    (hP : 1 ≤ s₀.cfg.lostPatience) (hrc : s₀.reacquire = some rc) {calls : List (SotOp R)}
    {pre post : List (SotEvent R)} {rep : SotReport R}
    (h : s₀.run ops calls = some (pre ++ .reported rep :: post, s')) (hst : Started pre) :
    ∃ s₁ s₂ : SotTracker K, GoodInv pre s₁ ∧ AnchorStep s₁ rc rep s₂ := by
  obtain ⟨s₁, s₂, -, hrq, -, hinv, hout⟩ := run_event ops hP (P := GoodInv)
    (fun evs s frame target _ => goodInv_of_setsGood rfl rfl rfl)
    (fun _ _ _ _ _ hrq hinv hout => hinv.update (hout.anchor (hrq.trans hrc))) h hst
  exact ⟨s₁, s₂, hinv, hout.anchor (hrq.trans hrc)⟩

omit [Scalar R] in
/-- A history that begins with `init` has a last event that sets the credible box. -/
theorem exists_good {evs : List (SotEvent R)} (hst : Started evs) :
    ∃ (before : List (SotEvent R)) (good : SotEvent R) (since : List (SotEvent R)),
      evs = before ++ good :: since ∧ good.setsGood = true ∧ ∀ e ∈ since, e.setsGood = false := by
  obtain ⟨target, hmem⟩ := exists_started hst
  exact Trace.exists_last ⟨_, hmem, rfl⟩

/-- Between two searches without a credible box in between the radius does not shrink.

**Proof sketch.** Both searches come after the same last good box, so they grow from the same
radius, the second by at least as many lost frames. -/
theorem radius_le [LawfulScalar R] {s₀ s' : SotTracker K} {rc : ReacquireConfig R}
    (hP : 1 ≤ s₀.cfg.lostPatience) (hrc : s₀.reacquire = some rc) (hgrowth : 0 ≤ rc.growthPerFrame)
    {calls : List (SotOp R)} {pre mid post : List (SotEvent R)} {rep₁ rep₂ : SotReport R} {r₁ r₂ : R}
    (h : s₀.run ops calls = some (pre ++ .reported rep₁ :: mid ++ .reported rep₂ :: post, s'))
    (hst : Started (pre ++ .reported rep₁ :: mid ++ .reported rep₂ :: post))
    (hmid : ∀ e ∈ mid, e.setsGood = false) (h₁ : rep₁.search = some r₁)
    (h₂ : rep₂.search = some r₂) : r₁ ≤ r₂ := by
  have hst₂ : Started (pre ++ .reported rep₁ :: mid) := started_before hst
  have hst₁ : Started pre := started_before hst₂
  obtain ⟨s₂, _, hinv₂, hstep₂⟩ := goodInvariant_before ops hP hrc h hst₂
  rw [show pre ++ SotEvent.reported rep₁ :: mid ++ .reported rep₂ :: post =
    pre ++ .reported rep₁ :: (mid ++ .reported rep₂ :: post) by simp] at h
  obtain ⟨s₁, _, hinv₁, hstep₁⟩ := goodInvariant_before ops hP hrc h hst₁
  obtain ⟨hstate, rfl⟩ := hstep₁.radius h₁
  obtain ⟨-, rfl⟩ := hstep₂.radius h₂
  -- both searches look around the box set by the last such event before the first of them
  obtain ⟨before, good, since, rfl, hgood, hsince⟩ := exists_good hst₁
  have hnone : ∀ e ∈ since ++ .reported rep₁ :: mid, e.setsGood = false := by
    intro e he
    rcases List.mem_append.mp he with hold | hnew
    · exact hsince e hold
    · rcases List.mem_cons.mp hnew with rfl | hlater
      · exact decide_eq_false hstate
      · exact hmid e hlater
  obtain ⟨hbox₁, hcount₁⟩ := hinv₁ before good since rfl hgood hsince
  obtain ⟨hbox₂, hcount₂⟩ := hinv₂ before good (since ++ .reported rep₁ :: mid) (by simp) hgood hnone
  rw [hbox₁, hbox₂]
  apply radius_mono hgrowth
  rw [hcount₁, hcount₂, List.countP_append]
  push_cast
  omega

/-- **Anchor and cadence of re-acquisition.** With a patience of at least one and a detector, for
every run that begins with `init`:

* there is a last `init` or frame reported as tracking; `last_good` is its target or its box, and
  `frames_lost` is the number of frames judged lost since;
* the detector is called on exactly the frames judged lost whose ordinal in that count is a
  multiple of the cadence, and never on a frame reported as tracking or judged unstable;
* with a nonnegative growth, the radius of the searches does not shrink until the box is set
  again.

**Proof sketch.** The invariant of the run says what `last_good` and `frames_lost` are since the
last event that sets the box.  What a step searches depends on these two only: a frame judged
lost counts one more and asks the detector when the cadence divides the count. -/
theorem reacquisition [LawfulScalar R] {s s' : SotTracker K} {rc : ReacquireConfig R}
    (hP : 1 ≤ s.cfg.lostPatience) (hrc : s.reacquire = some rc) (frame : Frame R)
    (target : BBox R) (calls : List (SotOp R)) (evs : List (SotEvent R))
    (h : s.run ops (.init frame target :: calls) = some (evs, s')) :
    (∃ (before : List (SotEvent R)) (good : SotEvent R) (since : List (SotEvent R)),
      evs = before ++ good :: since ∧ good.setsGood = true ∧ ∀ e ∈ since, e.setsGood = false) ∧
    (∀ (before : List (SotEvent R)) (good : SotEvent R) (since : List (SotEvent R)),
      evs = before ++ good :: since → good.setsGood = true → (∀ e ∈ since, e.setsGood = false) →
      s'.lastGood = good.goodBox ∧ s'.framesLost = since.countP SotEvent.judgedLost) ∧
    (∀ (before : List (SotEvent R)) (good : SotEvent R) (since : List (SotEvent R))
        (rep : SotReport R) (post : List (SotEvent R)),
      evs = before ++ good :: since ++ .reported rep :: post → good.setsGood = true →
      (∀ e ∈ since, e.setsGood = false) →
      (rep.search.isSome = true ↔ rep.verdict = .lost ∧
        rc.detectEvery ∣ (since.countP SotEvent.judgedLost : ℤ) + 1)) ∧
    (∀ rep : SotReport R, .reported rep ∈ evs →
      rep.result.state = .tracking ∨ rep.verdict = .unstable → rep.search = none) ∧
    (0 ≤ rc.growthPerFrame →
      ∀ (pre : List (SotEvent R)) (rep₁ : SotReport R) (mid : List (SotEvent R))
        (rep₂ : SotReport R) (post : List (SotEvent R)) (r₁ r₂ : R),
      evs = pre ++ .reported rep₁ :: mid ++ .reported rep₂ :: post →
      (∀ e ∈ mid, e.setsGood = false) → rep₁.search = some r₁ → rep₂.search = some r₂ →
      r₁ ≤ r₂) := by
  have hst := started_of_run ops h
  refine ⟨exists_good hst, goodInvariant ops hP hrc h hst, ?_, ?_, ?_⟩
  · intro before good since rep post heq hgood hsince
    subst heq
    obtain ⟨s₁, s₂, hinv, hstep⟩ := goodInvariant_before ops hP hrc h (started_before hst)
    rw [hstep.search_isSome, (hinv before good since rfl hgood hsince).2]
  · intro rep hmem hkind
    obtain ⟨pre, post, heq⟩ := List.append_of_mem hmem
    subst heq
    obtain ⟨s₁, s₂, -, hstep⟩ := goodInvariant_before ops hP hrc h (started_before hst)
    exact hstep.search_eq_none hkind
  · intro hgrowth pre rep₁ mid rep₂ post r₁ r₂ heq hmid h₁ h₂
    subst heq
    exact radius_le ops hP hrc hgrowth h hst hmid h₁ h₂

/-- A facade with the default detector settings; the target disappears for six frames. -/
noncomputable def searchScene : SotTracker (playback : Backend ℝ) :=
  (new { backend := .mosse } (⟨⟨0, 0, 4, 4⟩, 9, .tracking⟩ ::
    List.replicate 6 ⟨⟨0, 0, 4, 4⟩, 1, .tracking⟩)).enableReacquire {}

theorem reacquisition_disappearance :
    ∃ (evs : List (SotEvent ℝ)) (s' : SotTracker (playback : Backend ℝ)),
    searchScene.run pixelOps (.init (blueFrame 7) ⟨0, 0, 4, 4⟩ ::
      List.replicate 7 (.update (blueFrame 7))) = some (evs, s') ∧
    ∀ (before : List (SotEvent ℝ)) (good : SotEvent ℝ) (since : List (SotEvent ℝ)),
      evs = before ++ good :: since → good.setsGood = true → (∀ e ∈ since, e.setsGood = false) →
      s'.lastGood = good.goodBox ∧ s'.framesLost = since.countP SotEvent.judgedLost := by
  have hP : 1 ≤ searchScene.cfg.lostPatience := show (1 : ℤ) ≤ 5 by omega
  have hrc : searchScene.reacquire = some {} := rfl
  obtain ⟨⟨evs, s'⟩, h⟩ := Option.isSome_iff_exists.mp (run_isSome pixelOps
    (s := searchScene) (fun rc h => by
      rw [← Option.some.inj (hrc.symm.trans h)]
      exact (show (3 : ℤ) ≠ 0 by omega))
    (.init (blueFrame 7) ⟨0, 0, 4, 4⟩ :: List.replicate 7 (.update (blueFrame 7))))
  exact ⟨evs, s', h, (reacquisition pixelOps hP hrc _ _ _ _ h).2.1⟩

end SotTracker

end Ctrk
