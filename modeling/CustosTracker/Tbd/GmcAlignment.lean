import CustosTracker.Tbd.MultiTracker

set_option relaxedAutoImplicit false
set_option autoImplicit false

/-!
# Which boxes are masked out of which image

The facade hands the boxes of the previous frame to the camera-motion estimator, which keeps them
for one more frame before it masks them.  The corners of frame `t` are therefore masked by the
boxes recorded at the end of frame `t - 1`, not by those of frame `t` itself.

## Main definitions

* `Ctrk.MultiTracker.boxesOf` — the boxes recorded at the end of a frame of a run.
* `Ctrk.MultiTracker.boxesBefore` — the boxes recorded when that frame was processed.
* `Ctrk.MultiTracker.cornersOf` — the image and the mask a frame of a run extracts corners with.

## Main results

* `Ctrk.MultiTracker.run_gmc` — the estimator's memory after a run.
* `Ctrk.MultiTracker.mask_aligned_iff` — when the mask belongs to the image.
* `Ctrk.MultiTracker.mask_misaligned` — a run in which it does not.
-/

namespace Ctrk

open GmcEstimator

variable {R : Type} [Scalar R]

namespace MultiTracker

/-- The boxes an update records: the detections of a detect frame, and the reported tracks. -/
def frameBoxes (ops : TbdOps R) (s : MultiTracker R) (frame : Frame R) : List (BBox R) :=
  (if 0 < s.untilDetect then [] else frame.detections.map Detection.box) ++
    (s.update ops frame).1.map Track.box

/-- The boxes recorded at the end of frame `t` of a run. -/
def boxesOf (ops : TbdOps R) (cfg : TbdConfig R) (frames : List (Frame R)) (t : ℕ) :
    List (BBox R) :=
  match frames[t]? with
  | none => []
  | some frame => ((new cfg).run ops (frames.take t)).frameBoxes ops frame

/-- The boxes recorded when frame `t` of a run comes in: those of the frame before, none at the
start. -/
def boxesBefore (ops : TbdOps R) (cfg : TbdConfig R) (frames : List (Frame R)) : ℕ → List (BBox R)
  | 0 => []
  | t + 1 => boxesOf ops cfg frames t

/-- The stored image frame `t` of a run extracts corners from, and the boxes masked out of it;
none when it extracts no corners. -/
def cornersOf (ops : TbdOps R) (cfg : TbdConfig R) (frames : List (Frame R)) (t : ℕ) :
    Option (Image UInt8 × List (BBox R)) :=
  frames[t]?.bind fun frame =>
    ((new cfg).run ops (frames.take t)).gmc.cornerSource (workGray ops.flow frame.image)

/-- Two lists with the same boxes. -/
def SameBoxes (l l' : List (BBox R)) : Prop := ∀ b, b ∈ l ↔ b ∈ l'

section Update

variable (ops : TbdOps R) (s : MultiTracker R) (frame : Frame R)

/-- Descriptors do not move detections. -/
theorem detect_box : (s.detect ops frame).map Detection.box = frame.detections.map Detection.box := by
  unfold detect
  split_ifs
  · rw [List.map_map]
    rfl
  · rfl

@[simp] theorem update_cfg : (s.update ops frame).2.cfg = s.cfg := by
  unfold update
  split_ifs <;> rfl

/-- With camera compensation, an update records its boxes. -/
theorem update_gmcExclude (hgmc : s.cfg.gmc = .sparseFlow) :
    (s.update ops frame).2.gmcExclude = s.frameBoxes ops frame := by
  have hbox := s.detect_box ops frame
  unfold frameBoxes update
  by_cases hcoast : 0 < s.untilDetect
  · simp [hcoast, hgmc]
  · simp [hcoast, hgmc, hbox]

/-- With camera compensation, the estimator keeps the frame's gray image and the boxes recorded
before the frame. -/
theorem update_gmc (hgmc : s.cfg.gmc = .sparseFlow) :
    (s.update ops frame).2.gmc = ⟨workGray ops.flow frame.image, s.gmcExclude⟩ := by
  have hwarp : (s.cameraWarp ops frame).2 = ⟨workGray ops.flow frame.image, s.gmcExclude⟩ := by
    rw [cameraWarp, if_pos hgmc]
    rfl
  rw [← hwarp]
  unfold update
  split_ifs <;> rfl

end Update

section Run

variable (ops : TbdOps R) {cfg : TbdConfig R} {frames : List (Frame R)}

theorem run_take_succ (s : MultiTracker R) {t : ℕ} (ht : t < frames.length) :
    s.run ops (frames.take (t + 1)) = ((s.run ops (frames.take t)).update ops frames[t]).2 := by
  rw [run, List.take_succ_eq_append_getElem ht, List.foldl_append]
  rfl

theorem run_cfg (s : MultiTracker R) (fs : List (Frame R)) : (s.run ops fs).cfg = s.cfg := by
  induction fs using List.reverseRecOn with
  | nil => rfl
  | append_singleton fs f ih =>
    rw [run, List.foldl_append]
    exact (update_cfg ops _ f).trans ih

/-- After `t` frames the facade holds the boxes of the last one. -/
theorem run_gmcExclude (hgmc : cfg.gmc = .sparseFlow) {t : ℕ} (ht : t ≤ frames.length) :
    ((new cfg).run ops (frames.take t)).gmcExclude = boxesBefore ops cfg frames t := by
  cases t with
  | zero => rfl
  | succ t =>
    have hcfg := run_cfg ops (new cfg) (frames.take t)
    rw [run_take_succ ops _ ht, update_gmcExclude _ _ _ (by rw [hcfg]; exact hgmc), boxesBefore,
      boxesOf, List.getElem?_eq_getElem ht]

/-- After frame `t` the estimator holds its gray image, with the boxes recorded before it. -/
theorem run_gmc (hgmc : cfg.gmc = .sparseFlow) {t : ℕ} (ht : t < frames.length) :
    ((new cfg).run ops (frames.take (t + 1))).gmc =
      ⟨workGray ops.flow frames[t].image, boxesBefore ops cfg frames t⟩ := by
  have hcfg := run_cfg ops (new cfg) (frames.take t)
  rw [run_take_succ ops _ ht, update_gmc _ _ _ (by rw [hcfg]; exact hgmc),
    run_gmcExclude ops hgmc ht.le]

end Run

/-- **When the mask belongs to the image.** With camera compensation, consider any frame `t + 1`
of any run that extracts corners.  It extracts them from the gray image of frame `t`.  The masked
boxes are the boxes recorded at the end of frame `t` exactly when these are the boxes that were
recorded at the end of the frame before (at the start of the run: exactly when frame `t` recorded
no boxes).

**Proof sketch.** Frame `t` stores its gray image together with the boxes it is given, which were
recorded before it (`run_gmc`). Frame `t + 1` masks these stored boxes. -/
theorem mask_aligned_iff (ops : TbdOps R) {cfg : TbdConfig R} (hgmc : cfg.gmc = .sparseFlow)
    (frames : List (Frame R)) (t : ℕ) (ht : t + 1 < frames.length) (img : Image UInt8)
    (boxes : List (BBox R)) (hcorners : cornersOf ops cfg frames (t + 1) = some (img, boxes)) :
    img = workGray ops.flow (frames[t]).image ∧
      (SameBoxes boxes (boxesOf ops cfg frames t) ↔
        SameBoxes (boxesOf ops cfg frames t) (boxesBefore ops cfg frames t)) := by
  rw [cornersOf, List.getElem?_eq_getElem ht, Option.bind_some, run_gmc ops hgmc (by omega),
    cornerSource] at hcorners
  split_ifs at hcorners
  obtain ⟨rfl, rfl⟩ := Prod.mk.inj (Option.some.inj hcorners)
  refine ⟨rfl, ?_⟩
  constructor
  · intro h b
    exact (h b).symm
  · intro h b
    exact (h b).symm

/-- Image routines that behave like the library's on black frames: the gray image is black and
has no corners. -/
def blackOps : TbdOps ℚ where
  flow :=
    { cvtColor := fun m => ⟨m.cols, m.rows, fun _ _ => 0⟩
      resize := fun m _ => m
      goodFeaturesToTrack := fun _ _ _ _ _ => []
      calcOpticalFlowPyrLK := fun _ _ _ => []
      estimateAffinePartial2D := fun _ _ => none }
  hsvHist := fun _ => []
  matcher := iouMatcher

/-- Two black frames; a person is detected on the first one. -/
def twoFrames : List (Frame ℚ) :=
  [⟨⟨64, 48, fun _ _ => ⟨0, 0, 0⟩⟩, 0, [⟨⟨4, 4, 8, 16⟩, 9 / 10, 0, []⟩]⟩,
    ⟨⟨64, 48, fun _ _ => ⟨0, 0, 0⟩⟩, 33000000, []⟩]

theorem workGray_black (m : Image Bgr) :
    workGray blackOps.flow m = ⟨m.cols, m.rows, fun _ _ => 0⟩ := by
  simp only [workGray]
  split_ifs <;> rfl

/-- The second frame extracts corners from the first, without a mask. -/
theorem cornersOf_twoFrames : cornersOf blackOps { gmc := .sparseFlow } twoFrames 1 =
    some (⟨64, 48, fun _ _ => 0⟩, []) := by
  rw [cornersOf, List.getElem?_eq_getElem (show 1 < twoFrames.length by decide), Option.bind_some,
    run_gmc blackOps rfl (show 0 < twoFrames.length by decide), workGray_black, workGray_black]
  rfl

theorem mask_aligned_iff_twoFrames :
    SameBoxes [] (boxesOf blackOps { gmc := .sparseFlow } twoFrames 0) ↔
      SameBoxes (boxesOf blackOps { gmc := .sparseFlow } twoFrames 0) [] :=
  (mask_aligned_iff blackOps rfl twoFrames 0 (by decide) _ [] cornersOf_twoFrames).2

/-- **A misaligned mask.** The second frame masks no boxes out of the first frame's image, although
the first frame recorded its detection. -/
theorem mask_misaligned :
    ¬∀ (ops : TbdOps ℚ) (cfg : TbdConfig ℚ) (frames : List (Frame ℚ)) (t : ℕ) (img : Image UInt8)
      (boxes : List (BBox ℚ)), cfg.gmc = .sparseFlow → t + 1 < frames.length →
      cornersOf ops cfg frames (t + 1) = some (img, boxes) →
      SameBoxes boxes (boxesOf ops cfg frames t) := by
  intro h
  have hsame := h blackOps { gmc := .sparseFlow } twoFrames 0 _ [] rfl (by decide)
    cornersOf_twoFrames
  have hmem : (⟨4, 4, 8, 16⟩ : BBox ℚ) ∈ boxesOf blackOps { gmc := .sparseFlow } twoFrames 0 :=
    List.mem_append_left _ List.mem_cons_self
  exact absurd ((hsame _).mpr hmem) List.not_mem_nil

end MultiTracker

end Ctrk
