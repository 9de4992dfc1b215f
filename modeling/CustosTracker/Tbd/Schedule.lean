import CustosTracker.Common.Covariance
import CustosTracker.Tbd.GmcAlignment

set_option relaxedAutoImplicit false
set_option autoImplicit false

/-!
# The schedule of the facade

Every frame is one call of the association core: an update every `max 1 detect_interval` frames,
a coast on the frames between.  The call's time step comes from two successive timestamps and its
warp from the one call of the camera estimator on that frame.

## Main definitions

* `Ctrk.MultiTracker.call`, `Ctrk.MultiTracker.calls` — the call a frame makes, and those of a
  sequence of frames.
* `Ctrk.MultiTracker.nominalGap` — the time between two frames, in nominal frames.
* `Ctrk.FilteredOnce` — how a filter leaves a call.

## Main results

* `Ctrk.MultiTracker.update_eq_step`, `Ctrk.MultiTracker.run_tracker` — the facade refines the
  association core.
* `Ctrk.MultiTracker.untilDetect_run` — the detect cadence.
* `Ctrk.MultiTracker.sum_dt` — on a regular stream the time steps add up to the elapsed time.
* `Ctrk.MultiTracker.schedule` — all of it, for every run.
-/

namespace Ctrk

variable {R : Type} [Scalar R]

/-! ## What a call does to the filters -/

/-- How a filter leaves a call: predicted once and warped once, and on a match corrected. -/
inductive FilteredOnce (dt : R) (warp : Affine23 R) (k : KalmanBox R) : KalmanBox R → Prop
  | advanced : FilteredOnce dt warp k ((k.predict dt).applyAffine warp)
  | corrected (z : BBox R) (rScale : R) :
      FilteredOnce dt warp k (((k.predict dt).applyAffine warp).update z rScale)
  | seeded (z : BBox R) (effDt rScale : R) :
      FilteredOnce dt warp k
        ((((k.predict dt).applyAffine warp).seedVelocity z effDt).update z rScale)

/-- A call keeps a valid filter valid. -/
theorem FilteredOnce.valid [LawfulScalar R] {dt : R} {warp : Affine23 R} {k k' : KalmanBox R}
    (h : FilteredOnce dt warp k k') (hk : k.Valid) : k'.Valid := by
  have hadvanced := (hk.predict dt).applyAffine warp
  cases h with
  | advanced => exact hadvanced
  | corrected z rScale => exact hadvanced.update z rScale
  | seeded z effDt rScale => exact (hadvanced.seedVelocity z effDt).update z rScale

namespace ByteTracker

/-- Every stored filter is valid. -/
def FiltersValid (s : ByteTracker R) : Prop := ∀ t ∈ s.tracks, t.kf.Valid

section Filters

variable [LawfulScalar R]

/-- Skipping the identity warp makes no difference to a valid filter. -/
theorem advance_kf (dt : R) (warp : Affine23 R) {t : STrack R} (ht : t.kf.Valid) :
    (advance dt warp t).kf = (t.kf.predict dt).applyAffine warp := by
  change (if warp.identity then t.kf.predict dt else (t.kf.predict dt).applyAffine warp) = _
  split_ifs with hid
  · rw [Affine23.eq_id_of_identity hid, (ht.predict dt).applyAffine_id]
  · rfl

/-- A carried track is predicted once and warped once.

**Proof sketch.** Both calls advance the track once.  An update then leaves it, corrects it or
seeds its velocity, which are the cases of `FilteredOnce`. -/
theorem carried_kf (s : ByteTracker R) (c : Call R) (i : ℕ) {t : STrack R} (ht : t.kf.Valid) :
    FilteredOnce c.dt c.warp t.kf (s.carried c i t).kf := by
  cases c with
  | coast dt warp =>
    change FilteredOnce dt warp t.kf (advance dt warp t).kf
    rw [advance_kf dt warp ht]
    exact .advanced
  | update m dets dt warp =>
    have hpredicted : (predictTrack dt warp t).kf = (t.kf.predict dt).applyAffine warp :=
      advance_kf dt warp ht
    change FilteredOnce dt warp t.kf
      (settle s.cfg (s.coastedDt + dt) dets (s.fate m dets dt warp i) (predictTrack dt warp t)).kf
    cases s.fate m dets dt warp i with
    | none =>
      rw [settle, missTrack_kf, hpredicted]
      exact .advanced
    | some j =>
      simp only [settle, markMatched]
      split_ifs
      all_goals rw [hpredicted]
      · exact .seeded _ _ _
      · exact .seeded _ _ _
      · exact .corrected _ _
      · exact .corrected _ _

/-- Every track after a call was carried, predicted and warped once, or is new. -/
theorem step_filters {s : ByteTracker R} (hs : s.FiltersValid) (c : Call R) {u : STrack R}
    (hu : u ∈ (s.step c).2.tracks) :
    (∃ t ∈ s.tracks, u.id = t.id ∧ FilteredOnce c.dt c.warp t.kf u.kf) ∨
      ∃ z, u.kf = KalmanBox.initiate z := by
  obtain ⟨k, hk⟩ := List.mem_iff_getElem?.mp hu
  rcases s.carries_or_spawns hk with ⟨i, t, hcarries, ht, rfl⟩ | hspawns
  · have hmem := List.mem_of_getElem? ht
    exact Or.inl ⟨t, hmem, s.carried_id c i t, s.carried_kf c i (hs t hmem)⟩
  · obtain ⟨id, det, hspawn⟩ := s.getElem?_step_of_spawns hspawns
    rw [hk] at hspawn
    rw [Option.some.inj hspawn]
    exact Or.inr ⟨det.box, rfl⟩

/-- Every call keeps the stored filters valid. -/
theorem FiltersValid.step {s : ByteTracker R} (hs : s.FiltersValid) (c : Call R) :
    (s.step c).2.FiltersValid := by
  intro u hu
  rcases step_filters hs c hu with ⟨t, ht, -, hfilter⟩ | ⟨z, hz⟩
  · exact hfilter.valid (hs t ht)
  · rw [hz]
    exact KalmanBox.valid_initiate z

/-- The stored filters are valid after every run. -/
theorem filtersValid_run (cfg : AssocConfig R) (cs : List (Call R)) :
    ((new cfg).run cs).FiltersValid :=
  run_induction (fun _ c hs => hs.step c) (fun _ ht => absurd ht List.not_mem_nil) cs

end Filters

end ByteTracker

namespace MultiTracker

/-! ## Frames as calls -/

/-- The call of the association core a frame makes. -/
def call (ops : TbdOps R) (s : MultiTracker R) (frame : Frame R) : Call R :=
  if 0 < s.untilDetect then .coast (s.frameDt frame) (s.cameraWarp ops frame).1
  else .update ops.matcher (s.detect ops frame) (s.frameDt frame) (s.cameraWarp ops frame).1

/-- The calls a sequence of frames makes. -/
def calls (ops : TbdOps R) (s : MultiTracker R) : List (Frame R) → List (Call R)
  | [] => []
  | frame :: frames => s.call ops frame :: calls ops (s.update ops frame).2 frames

section Update

variable (ops : TbdOps R) (s : MultiTracker R) (frame : Frame R)

/-- **One frame is one call.** -/
theorem update_eq_step : (s.update ops frame).1 = (s.tracker.step (s.call ops frame)).1 ∧
    (s.update ops frame).2.tracker = (s.tracker.step (s.call ops frame)).2 := by
  unfold update call
  by_cases hcoast : 0 < s.untilDetect
  · simp only [hcoast, if_true]
    exact ⟨rfl, rfl⟩
  · simp only [hcoast, if_false]
    exact ⟨rfl, rfl⟩

@[simp] theorem call_dt : (s.call ops frame).dt = s.frameDt frame := by
  unfold call
  split_ifs <;> rfl

@[simp] theorem call_warp : (s.call ops frame).warp = (s.cameraWarp ops frame).1 := by
  unfold call
  split_ifs <;> rfl

@[simp] theorem update_prevTNs : (s.update ops frame).2.prevTNs = frame.tNs := by
  unfold update
  split_ifs <;> rfl

theorem update_untilDetect : (s.update ops frame).2.untilDetect =
    if 0 < s.untilDetect then s.untilDetect - 1 else max 1 s.cfg.detectInterval - 1 := by
  unfold update
  split_ifs <;> rfl

end Update

section Run

variable (ops : TbdOps R)

theorem run_concat (s : MultiTracker R) (frames : List (Frame R)) (frame : Frame R) :
    s.run ops (frames ++ [frame]) = ((s.run ops frames).update ops frame).2 := by
  rw [run, List.foldl_append]
  rfl

/-- **The facade refines the association core.** -/
theorem run_tracker (s : MultiTracker R) (frames : List (Frame R)) :
    (s.run ops frames).tracker = s.tracker.run (s.calls ops frames) := by
  induction frames generalizing s with
  | nil => rfl
  | cons frame frames ih =>
    have hstep := (s.update_eq_step ops frame).2
    have hrest := ih (s.update ops frame).2
    rw [hstep] at hrest
    exact hrest

/-- The facade remembers the time of the last frame. -/
theorem prevTNs_run (cfg : TbdConfig R) (frames : List (Frame R)) :
    ((new cfg).run ops frames).prevTNs = (frames.getLast?.map Frame.tNs).getD (-1) := by
  cases frames using List.reverseRecOn with
  | nil => rfl
  | append_singleton frames frame => simp [run_concat]

/-- **The cadence.** After `k` frames, the frames left to coast fill up the interval.

**Proof sketch.** By induction on the frames from the end: a coast takes one off the counter, and
a detect frame finds it at zero and sets it to a full interval less one. -/
theorem untilDetect_run (cfg : TbdConfig R) (frames : List (Frame R)) :
    0 ≤ ((new cfg).run ops frames).untilDetect ∧
    ((new cfg).run ops frames).untilDetect < max 1 cfg.detectInterval ∧
    ((frames.length : ℤ) + ((new cfg).run ops frames).untilDetect) % max 1 cfg.detectInterval =
      0 := by
  induction frames using List.reverseRecOn with
  | nil =>
    refine ⟨le_rfl, ?_, by simp [run, new]⟩
    exact lt_max_of_lt_left one_pos
  | append_singleton frames frame ih =>
    obtain ⟨hnonneg, hlt, hmod⟩ := ih
    rw [run_concat, update_untilDetect, run_cfg, List.length_append, List.length_singleton]
    push_cast
    split_ifs with hcoast
    · refine ⟨by omega, by omega, ?_⟩
      rw [← hmod]
      congr 1
      ring
    · -- a detect frame: the frames so far are full intervals
      have hzero : ((new cfg).run ops frames).untilDetect = 0 := by omega
      rw [hzero, add_zero] at hmod
      refine ⟨?_, sub_one_lt _, ?_⟩
      · exact sub_nonneg.mpr (le_max_left _ _)
      · change ((frames.length : ℤ) + 1 + (max 1 cfg.detectInterval - 1)) % _ = 0
        rw [show (frames.length : ℤ) + 1 + (max 1 cfg.detectInterval - 1) =
          frames.length + max 1 cfg.detectInterval by ring, Int.add_emod_right]
        exact hmod

/-- The detector runs exactly on the frames whose number is a multiple of the interval. -/
theorem untilDetect_pos_iff (cfg : TbdConfig R) (frames : List (Frame R)) :
    0 < ((new cfg).run ops frames).untilDetect ↔
      (frames.length : ℤ) % max 1 cfg.detectInterval ≠ 0 := by
  obtain ⟨hnonneg, hlt, hmod⟩ := untilDetect_run ops cfg frames
  generalize ((new cfg).run ops frames).untilDetect = u at hnonneg hlt hmod
  constructor
  · intro hpos hzero
    rw [Int.add_emod, hzero, zero_add, Int.emod_emod, Int.emod_eq_of_lt hnonneg hlt] at hmod
    exact absurd hmod hpos.ne'
  · intro hne
    rcases hnonneg.lt_or_eq with hpos | hzero
    · exact hpos
    · rw [← hzero, add_zero] at hmod
      exact absurd hmod hne

/-- The call of a frame, by the number of the frame. -/
theorem call_run (cfg : TbdConfig R) (pre : List (Frame R)) (frame : Frame R) :
    ((new cfg).run ops pre).call ops frame =
      if (pre.length : ℤ) % max 1 cfg.detectInterval = 0 then
        .update ops.matcher (((new cfg).run ops pre).detect ops frame)
          (((new cfg).run ops pre).frameDt frame) (((new cfg).run ops pre).cameraWarp ops frame).1
      else
        .coast (((new cfg).run ops pre).frameDt frame)
          (((new cfg).run ops pre).cameraWarp ops frame).1 := by
  have hcadence := untilDetect_pos_iff ops cfg pre
  by_cases hdetect : (pre.length : ℤ) % max 1 cfg.detectInterval = 0
  · rw [call, if_neg fun hpos => hcadence.mp hpos hdetect, if_pos hdetect]
  · rw [call, if_pos (hcadence.mpr hdetect), if_neg hdetect]

end Run

/-! ## Time steps -/

/-- The time from one timestamp to a later one, in nominal frames. -/
def nominalGap (cfg : TbdConfig R) (t t' : ℤ) : R :=
  ((t' - t : ℤ) : R) * (1 / 10 ^ 9) * cfg.nominalFps

section Time

variable (ops : TbdOps R) {cfg : TbdConfig R}

/-- The time step of the frame after a run. -/
theorem frameDt_run (frames : List (Frame R)) (frame : Frame R) :
    ((new cfg).run ops frames).frameDt frame = match frames.getLast? with
      | some prev =>
        if 0 ≤ prev.tNs ∧ prev.tNs < frame.tNs then
          clamp (nominalGap cfg prev.tNs frame.tNs) (1 / 10) 5
        else 1
      | none => 1 := by
  rw [frameDt, prevTNs_run, run_cfg]
  cases frames.getLast? with
  | none => rfl
  | some prev => rfl

variable [IsStrictOrderedRing R]

/-- Every time step lies between a tenth of a frame and five frames. -/
theorem frameDt_mem (s : MultiTracker R) (frame : Frame R) :
    1 / 10 ≤ s.frameDt frame ∧ s.frameDt frame ≤ 5 := by
  unfold frameDt
  split_ifs
  · exact ⟨le_clamp (by norm_num), clamp_le (by norm_num)⟩
  · norm_num

/-- Two frames of a regular stream: no negative timestamp, and a gap between a tenth of a nominal
frame and five. -/
def RegularGap (cfg : TbdConfig R) (a b : Frame R) : Prop :=
  0 ≤ a.tNs ∧ 0 ≤ b.tNs ∧ 1 / 10 ≤ nominalGap cfg a.tNs b.tNs ∧ nominalGap cfg a.tNs b.tNs ≤ 5

/-- With a nonnegative frame rate, the gaps of a regular stream go forward. -/
theorem RegularGap.lt (hfps : 0 ≤ cfg.nominalFps) {a b : Frame R} (h : RegularGap cfg a b) :
    a.tNs < b.tNs := by
  by_contra hle
  have hdiff : ((b.tNs - a.tNs : ℤ) : R) ≤ 0 := by
    exact_mod_cast sub_nonpos.mpr (not_lt.mp hle)
  have hgap : nominalGap cfg a.tNs b.tNs ≤ 0 := by
    refine mul_nonpos_of_nonpos_of_nonneg ?_ hfps
    exact mul_nonpos_of_nonpos_of_nonneg hdiff (by norm_num)
  have hpos : (0 : R) < 1 / 10 := by norm_num
  exact absurd (hpos.trans_le h.2.2.1) (not_lt.mpr hgap)

/-- **The time steps add up.** Behind a frame of a stream that is regular from there on, the time
steps of the calls sum to the time from that frame to the last, in nominal frames.

**Proof sketch.** By induction on the span.  The time step of a regular frame is not clamped and
is the gap from the frame before, so the sum telescopes. -/
theorem sum_dt (hfps : 0 ≤ cfg.nominalFps) (pre : List (Frame R)) (first : Frame R)
    (span : List (Frame R)) (hspan : List.IsChain (RegularGap cfg) (first :: span)) :
    ((((new cfg).run ops (pre ++ [first])).calls ops span).map Call.dt).sum =
      nominalGap cfg first.tNs ((first :: span).getLast (List.cons_ne_nil _ _)).tNs := by
  induction span generalizing pre first with
  | nil => simp [calls, nominalGap]
  | cons frame span ih =>
    obtain ⟨hgap, hrest⟩ := List.isChain_cons_cons.mp hspan
    have hdt : ((new cfg).run ops (pre ++ [first])).frameDt frame =
        nominalGap cfg first.tNs frame.tNs := by
      rw [frameDt_run, List.getLast?_concat]
      simp only
      rw [if_pos ⟨hgap.1, hgap.lt hfps⟩, clamp_eq_self hgap.2.2.1 hgap.2.2.2]
    have hsum := ih (pre ++ [first]) frame hrest
    rw [run_concat ops (new cfg) (pre ++ [first]) frame] at hsum
    rw [calls, List.map_cons, List.sum_cons, hsum, call_dt, hdt,
      List.getLast_cons (List.cons_ne_nil _ _)]
    simp only [nominalGap]
    push_cast
    ring

end Time

/-! ## The schedule -/

section Schedule

variable [LawfulScalar R]

/-- The stored filters are valid after every run of the facade. -/
theorem filtersValid_run (ops : TbdOps R) (cfg : TbdConfig R) (frames : List (Frame R)) :
    ((new cfg).run ops frames).tracker.FiltersValid := by
  rw [run_tracker]
  exact ByteTracker.filtersValid_run cfg.assoc _

/-- **The schedule.** Every frame of every run is one call of the association core: an update with
the frame's detections when the number of the frame is a multiple of the interval, a coast
otherwise.  Its time step is between `0.1` and `5`; it is the clamped time since the frame before
when that one is neither negative nor later, and `1` otherwise, and the difference of these two
timestamps fits into 64 bits.  The camera estimator is called once, and every track the call leaves
was predicted once and warped once, with this step and this warp, or is new.  With a nonnegative
frame rate, the time steps along a regular stream add up to the elapsed time.

**Proof sketch.** The first part reads the call that the facade makes off the number of frames
(`call_run`), its time step off the last timestamp (`frameDt_run`) and the filters off the call
(`step_filters`).  The second is `sum_dt`. -/
theorem schedule (ops : TbdOps R) (cfg : TbdConfig R) :
    (∀ (pre : List (Frame R)) (frame : Frame R),
      let s := (new cfg).run ops pre
      let dt := s.frameDt frame
      let warp := (s.cameraWarp ops frame).1
      let c : Call R :=
        if (pre.length : ℤ) % max 1 cfg.detectInterval = 0 then
          .update ops.matcher (s.detect ops frame) dt warp
        else .coast dt warp
      ((s.update ops frame).1 = (s.tracker.step c).1 ∧
        (s.update ops frame).2.tracker = (s.tracker.step c).2) ∧
      (1 / 10 ≤ dt ∧ dt ≤ 5) ∧
      (dt = match pre.getLast? with
        | some prev =>
          if 0 ≤ prev.tNs ∧ prev.tNs < frame.tNs then
            clamp (nominalGap cfg prev.tNs frame.tNs) (1 / 10) 5
          else 1
        | none => 1) ∧
      (frame.tNs < 2 ^ 63 → ∀ prev, pre.getLast? = some prev → 0 ≤ prev.tNs →
        prev.tNs < frame.tNs → -2 ^ 63 ≤ frame.tNs - prev.tNs ∧ frame.tNs - prev.tNs < 2 ^ 63) ∧
      (cfg.gmc = .sparseFlow →
        (warp, (s.update ops frame).2.gmc) =
          s.gmc.estimate ops.flow frame.image s.gmcExclude) ∧
      ∀ u ∈ (s.update ops frame).2.tracker.tracks,
        (∃ t ∈ s.tracker.tracks, u.id = t.id ∧ FilteredOnce dt warp t.kf u.kf) ∨
          ∃ z, u.kf = KalmanBox.initiate z) ∧
    (0 ≤ cfg.nominalFps → ∀ (pre : List (Frame R)) (first : Frame R) (span : List (Frame R)),
      List.IsChain (RegularGap cfg) (first :: span) →
      let s := (new cfg).run ops (pre ++ [first])
      (s.run ops span).tracker = s.tracker.run (s.calls ops span) ∧
      ((s.calls ops span).map Call.dt).sum =
        nominalGap cfg first.tNs ((first :: span).getLast (List.cons_ne_nil _ _)).tNs) := by
  refine ⟨fun pre frame => ?_, fun hfps pre first span hspan => ?_⟩
  · intro s dt warp c
    have hcall : s.call ops frame = c := call_run ops cfg pre frame
    have hstep := s.update_eq_step ops frame
    rw [hcall] at hstep
    refine ⟨hstep, frameDt_mem s frame, frameDt_run ops pre frame, ?_, fun hgmc => ?_, ?_⟩
    · intro hmax prev _ hnonneg hlt
      omega
    · have hcfg : s.cfg.gmc = .sparseFlow := by rw [run_cfg]; exact hgmc
      rw [s.update_gmc ops frame hcfg]
      simp only [warp, cameraWarp, if_pos hcfg]
      rfl
    · intro u hu
      rw [hstep.2] at hu
      have hdt : c.dt = dt := by
        rw [← hcall]
        exact s.call_dt ops frame
      have hwarp : c.warp = warp := by
        rw [← hcall]
        exact s.call_warp ops frame
      rw [← hdt, ← hwarp]
      exact ByteTracker.step_filters (filtersValid_run ops cfg pre) c hu
  · exact ⟨run_tracker ops _ span, sum_dt ops hfps pre first span hspan⟩

end Schedule

/-- The image routines on black frames, over the reals. -/
noncomputable def realBlackOps : TbdOps ℝ where
  flow :=
    { cvtColor := fun m => ⟨m.cols, m.rows, fun _ _ => 0⟩
      resize := fun m _ => m
      goodFeaturesToTrack := fun _ _ _ _ _ => []
      calcOpticalFlowPyrLK := fun _ _ _ => []
      estimateAffinePartial2D := fun _ _ => none }
  hsvHist := fun _ => []
  matcher := iouMatcher

/-- An empty black frame. -/
def blackFrame {R : Type} (tNs : ℤ) : Frame R := ⟨⟨64, 48, fun _ _ => ⟨0, 0, 0⟩⟩, tNs, []⟩

/-- Ten nominal frames a second, the detector on every third frame: frames at `0`, `100` and
`300` milliseconds carry the tracks over three nominal frames. -/
theorem schedule_tenth :
    ((((new ({ nominalFps := 10, detectInterval := 3 } : TbdConfig ℝ)).run realBlackOps
        [blackFrame 0]).calls realBlackOps [blackFrame 100000000, blackFrame 300000000]).map
      Call.dt).sum = 3 := by
  have h := (schedule realBlackOps { nominalFps := 10, detectInterval := 3 }).2 (by norm_num) []
    (blackFrame 0) [blackFrame 100000000, blackFrame 300000000]
    (by norm_num [RegularGap, nominalGap, blackFrame])
  refine h.2.trans ?_
  norm_num [nominalGap, blackFrame]

/-- **Backwards time.** At a frame rate of `-1`, the step from two seconds back to zero is two
nominal frames long, but the tracks are carried over one. -/
theorem schedule_backwards :
    ¬∀ (ops : TbdOps ℚ) (cfg : TbdConfig ℚ) (pre : List (Frame ℚ)) (first : Frame ℚ)
      (span : List (Frame ℚ)), List.IsChain (RegularGap cfg) (first :: span) →
      ((((new cfg).run ops (pre ++ [first])).calls ops span).map Call.dt).sum =
        nominalGap cfg first.tNs ((first :: span).getLast (List.cons_ne_nil _ _)).tNs := by
  intro h
  have hsum := h blackOps { nominalFps := -1 } [] (blackFrame 2000000000) [blackFrame 0]
    (by norm_num [RegularGap, nominalGap, blackFrame])
  rw [calls, List.map_cons, call_dt, frameDt_run] at hsum
  norm_num [calls, nominalGap, blackFrame] at hsum

end MultiTracker

end Ctrk
