import CustosTracker.Library.Indexed
import CustosTracker.Tbd.Yolov8

set_option relaxedAutoImplicit false
set_option autoImplicit false

/-!
# Suppression across classes

`decode_yolov8` runs one suppression over all classes, on boxes moved by `4096` pixels a class.
Boxes of two classes stay apart when the frame is no larger than their offset, in width or in
height.  On larger frames boxes of different classes can suppress each other.

## Main definitions

* `Ctrk.classNms` — suppression among the candidates of one class.
* `Ctrk.ClassAware` — decoding is suppression class by class.
* `Ctrk.pairTensor` — a head output with two boxes.

## Main results

* `Ctrk.classAware_iff_separate` — when decoding is class-aware, for one head output.
* `Ctrk.classAware_of_small` — when it always is, for the size of the frame and the classes.
* `Ctrk.decode_class_aware` — both conditions are exact.
-/

namespace Ctrk

open Greedy Indexed

variable {R : Type} [Scalar R]

/-! ## Suppression in one class -/

section OneClass

variable (sorter : Sorter R) (cands : List (Detection R)) (c : ℤ)

/-- The candidates of a class. -/
def classCandidates : List (Detection R) := cands.filter fun d => d.classId = c

/-- The positions of the candidates of a class among all candidates. -/
def classIndices : List ℕ :=
  (List.range cands.length).filter fun i => (cands.getD i default).classId = c

/-- The order of the candidates of a class, with equal scores ordered as among all candidates. -/
def classOrder : List ℕ :=
  ((sorter.order (cands.map Detection.score)).filter fun i =>
    (cands.getD i default).classId = c).map (classIndices cands c).idxOf

/-- `nms` on the candidates of one class alone. -/
def classNms (iouThr : R) : List (Detection R) :=
  let own := classCandidates cands c
  (nms (fun _ => classOrder sorter cands c) (own.map Detection.box) (own.map Detection.score)
    iouThr).map fun idx => own.getD idx default

/-- The candidates in the order they are visited. -/
def sortedCandidates : List (Detection R) :=
  (sorter.order (cands.map Detection.score)).map fun i => cands.getD i default

theorem classCandidates_eq_map :
    classCandidates cands c = (classIndices cands c).map fun i => cands.getD i default :=
  filter_eq_map_range _ cands default

theorem nodup_classIndices : (classIndices cands c).Nodup := List.nodup_range.filter _

/-- A candidate of a class is found at its position. -/
theorem getD_classCandidates {i : ℕ} (hi : i ∈ classIndices cands c) :
    (classCandidates cands c).getD ((classIndices cands c).idxOf i) default =
      cands.getD i default := by
  have hlt := List.idxOf_lt_length_of_mem hi
  rw [classCandidates_eq_map, List.getD_eq_getElem _ _ (by rwa [List.length_map]),
    List.getElem_map, List.getElem_idxOf]

theorem mem_order_iff {i : ℕ} :
    i ∈ sorter.order (cands.map Detection.score) ↔ i < cands.length := by
  rw [(sorter.descending _).mem_iff, List.length_map]

/-- The visited candidates of a class are candidates of the class. -/
theorem mem_classIndices_of_mem_order {i : ℕ}
    (hi : i ∈ (sorter.order (cands.map Detection.score)).filter fun i =>
      (cands.getD i default).classId = c) : i ∈ classIndices cands c := by
  obtain ⟨horder, hcls⟩ := List.mem_filter.mp hi
  exact List.mem_filter.mpr ⟨List.mem_range.mpr ((mem_order_iff sorter cands).mp horder), hcls⟩

/-- The order of a class is an order by descending score.

**Proof sketch.** Filtering the order of all candidates by class permutes the indices of the
class and leaves it sorted; the scores at the new positions are those at the old ones. -/
theorem isDescending_classOrder :
    IsDescending ((classCandidates cands c).map Detection.score) (classOrder sorter cands c) where
  perm := by
    have hperm := (sorter.descending (cands.map Detection.score)).perm
    rw [List.length_map] at hperm
    rw [classOrder, List.length_map, classCandidates_eq_map, List.length_map,
      ← map_idxOf_self (nodup_classIndices cands c)]
    exact (hperm.filter _).map _
  sorted := by
    have hscore : ∀ i ∈ (sorter.order (cands.map Detection.score)).filter fun i =>
        (cands.getD i default).classId = c,
        ((classCandidates cands c).map Detection.score).getD
          ((classIndices cands c).idxOf i) 0 = (cands.map Detection.score).getD i 0 := by
      intro i hi
      have hmem := mem_classIndices_of_mem_order sorter cands c hi
      rw [getD_map_score, getD_map_score, getD_classCandidates cands c hmem]
    rw [classOrder, List.pairwise_map]
    refine List.Pairwise.imp_of_mem ?_ ((sorter.descending _).sorted.filter _)
    intro i j hi hj hle
    rw [hscore i hi, hscore j hj]
    exact hle

/-- The order of a class visits its candidates as the order of all candidates does. -/
theorem classOrder_map : ((classOrder sorter cands c).map fun idx =>
    (classCandidates cands c).getD idx default) =
      (sortedCandidates sorter cands).filter fun d => d.classId = c := by
  rw [classOrder, sortedCandidates, List.filter_map, List.map_map]
  refine List.map_congr_left fun i hi => ?_
  exact getD_classCandidates cands c (mem_classIndices_of_mem_order sorter cands c hi)

end OneClass

/-- `nms` on detections is greedy selection along the order. -/
theorem map_nms {order : List ℕ} {scores : List R} {cands : List (Detection R)}
    (horder : IsDescending scores order) (hlen : scores.length = cands.length)
    (box : Detection R → BBox R) (iouThr : R) :
    ((nms (fun _ => order) (cands.map box) scores iouThr).map fun idx => cands.getD idx default) =
      select (fun d d' => decide (iouThr < iou (box d) (box d')))
        (order.map fun idx => cands.getD idx default) := by
  rw [nms_eq_select horder.nodup, select_map]
  congr 1
  refine select_congr fun i hi j hj => ?_
  have hbox : ∀ k ∈ order, (cands.map box).getD k default = box (cands.getD k default) := by
    intro k hk
    have hlt : k < cands.length := hlen ▸ horder.mem_iff.mp hk
    rw [List.getD_eq_getElem _ _ (by rwa [List.length_map]), List.getD_eq_getElem _ _ hlt,
      List.getElem_map]
  rw [suppresses, hbox i hi, hbox j hj]

/-! ## Decoding class by class -/

/-- A detection overlaps another one too much. -/
def overlaps (iouThr : R) (d d' : Detection R) : Bool := decide (iouThr < iou d.box d'.box)

/-- A detection overlaps another one too much, after both moved by their classes. -/
def overlapsShifted (iouThr : R) (d d' : Detection R) : Bool :=
  decide (iouThr < iou (shiftByClass d) (shiftByClass d'))

/-- Decoding is class-aware: what it returns of a class is what suppression leaves of the
candidates of that class alone. -/
def ClassAware (sorter : Sorter R) (out : ℕ → R) (numClasses numAnchors : ℕ) (confThr nmsIou : R)
    (m : LetterboxMap R) (keepClasses : List ℤ) : Prop :=
  ∀ c : ℤ, ((decodeYolov8 sorter out numClasses numAnchors confThr nmsIou m keepClasses).filter
    fun d => d.classId = c) =
      classNms sorter (candidates out numClasses numAnchors confThr m keepClasses) c nmsIou

/-- No two detections that suppression leaves in two classes overlap too much after they moved by
their classes. -/
def Separate (sorter : Sorter R) (cands : List (Detection R)) (nmsIou : R) : Prop :=
  ∀ c c', c ≠ c' → ∀ d ∈ classNms sorter cands c nmsIou, ∀ d' ∈ classNms sorter cands c' nmsIou,
    ¬nmsIou < iou (shiftByClass d) (shiftByClass d')

theorem classNms_eq_selectGroup (sorter : Sorter R) (cands : List (Detection R)) (c : ℤ)
    (nmsIou : R) : classNms sorter cands c nmsIou =
      selectGroup (overlaps nmsIou) Detection.classId (sortedCandidates sorter cands) c := by
  rw [classNms, map_nms (isDescending_classOrder sorter cands c) (List.length_map _),
    classOrder_map]
  rfl

theorem decodeYolov8_eq_select (sorter : Sorter R) (out : ℕ → R) (numClasses numAnchors : ℕ)
    (confThr nmsIou : R) (m : LetterboxMap R) (keepClasses : List ℤ) :
    decodeYolov8 sorter out numClasses numAnchors confThr nmsIou m keepClasses =
      select (overlapsShifted nmsIou) (sortedCandidates sorter
        (candidates out numClasses numAnchors confThr m keepClasses)) :=
  map_nms (sorter.descending _) (List.length_map _) shiftByClass nmsIou

section Ordered

variable [IsStrictOrderedRing R]

/-- Within a class, moving by the class changes no overlap. -/
theorem overlapsShifted_of_eq {nmsIou : R} {d d' : Detection R} (h : d.classId = d'.classId) :
    overlapsShifted nmsIou d d' = overlaps nmsIou d d' := by
  simp only [overlapsShifted, overlaps, shiftByClass, h, iou_shift]

/-- **When decoding is class-aware**, for one head output. -/
theorem classAware_iff_separate (sorter : Sorter R) (out : ℕ → R) (numClasses numAnchors : ℕ)
    (confThr nmsIou : R) (m : LetterboxMap R) (keepClasses : List ℤ) :
    ClassAware sorter out numClasses numAnchors confThr nmsIou m keepClasses ↔
      Separate sorter (candidates out numClasses numAnchors confThr m keepClasses) nmsIou := by
  have hsymm : ∀ d d' : Detection R, overlapsShifted nmsIou d d' = overlapsShifted nmsIou d' d := by
    intro d d'
    rw [overlapsShifted, overlapsShifted, iou_comm]
  simp only [ClassAware, Separate, decodeYolov8_eq_select, classNms_eq_selectGroup]
  rw [filter_select_iff hsymm fun d d' => overlapsShifted_of_eq]
  simp only [overlapsShifted, decide_eq_false_iff_not]

end Ordered

/-! ## Small frames -/

/-- Any two classes are further apart than the frame is wide, or than it is high. -/
def FrameSeparates (numClasses : ℕ) (keepClasses : List ℤ) (srcW srcH : ℤ) : Prop :=
  ∀ c c' : ℤ, 0 ≤ c → c < c' → c' < numClasses → c' < 32768 → wanted keepClasses c = true →
    wanted keepClasses c' = true → srcW ≤ 4096 * (c' - c) ∨ srcH ≤ 4096 * (c' - c)

/-- The sorted candidates are the candidates. -/
theorem sortedCandidates_perm (sorter : Sorter R) (cands : List (Detection R)) :
    (sortedCandidates sorter cands).Perm cands := by
  have hperm := (sorter.descending (cands.map Detection.score)).perm
  rw [List.length_map] at hperm
  have hmap := hperm.map fun i => cands.getD i default
  rwa [map_getD_range] at hmap

/-- What suppression leaves of a class are candidates of the class. -/
theorem mem_classNms {sorter : Sorter R} {cands : List (Detection R)} {c : ℤ} {nmsIou : R}
    {d : Detection R} (h : d ∈ classNms sorter cands c nmsIou) : d ∈ cands ∧ d.classId = c := by
  rw [classNms_eq_selectGroup] at h
  refine ⟨?_, mem_selectGroup h⟩
  have hsorted := (List.mem_filter.mp ((select_sublist _).subset h)).1
  exact (sortedCandidates_perm sorter cands).subset hsorted

/-- The only candidate of its class survives. -/
theorem classNms_of_single (sorter : Sorter R) {cands : List (Detection R)} {c : ℤ} (nmsIou : R)
    {d : Detection R} (h : classCandidates cands c = [d]) : classNms sorter cands c nmsIou = [d] := by
  have hperm := (sortedCandidates_perm sorter cands).filter fun d => decide (d.classId = c)
  change (List.filter _ _).Perm (classCandidates cands c) at hperm
  rw [h, List.perm_singleton] at hperm
  rw [classNms_eq_selectGroup, selectGroup, hperm]
  rfl

section Small

variable [IsStrictOrderedRing R] {numClasses : ℕ} {m : LetterboxMap R} {keepClasses : List ℤ}

/-- Candidates of two classes stay apart when they are moved further than the frame is large. -/
theorem iou_shiftByClass_of_small {d d' : Detection R} (hd : Candidate numClasses m keepClasses d)
    (hd' : Candidate numClasses m keepClasses d')
    (hsmall : m.srcW ≤ 4096 * (d'.classId - d.classId) ∨
      m.srcH ≤ 4096 * (d'.classId - d.classId)) :
    iou (shiftByClass d) (shiftByClass d') = 0 := by
  apply iou_of_apart
  simp only [shiftByClass, BBox.shift]
  rcases hsmall with hw | hh
  · left
    have hw' : (m.srcW : R) ≤ 4096 * ((d'.classId : R) - d.classId) := by exact_mod_cast hw
    linarith [hd.right_le, hd'.x_nonneg]
  · right
    have hh' : (m.srcH : R) ≤ 4096 * ((d'.classId : R) - d.classId) := by exact_mod_cast hh
    linarith [hd.bottom_le, hd'.y_nonneg]

/-- **On small frames decoding is class-aware**, for every head output. -/
theorem classAware_of_small (sorter : Sorter R) (out : ℕ → R) (numAnchors : ℕ) (confThr : R)
    {nmsIou : R} (h0 : 0 ≤ nmsIou) (hsmall : FrameSeparates numClasses keepClasses m.srcW m.srcH) :
    ClassAware sorter out numClasses numAnchors confThr nmsIou m keepClasses := by
  rw [classAware_iff_separate]
  intro c c' hc d hd d' hd'
  obtain ⟨hmem, rfl⟩ := mem_classNms hd
  obtain ⟨hmem', rfl⟩ := mem_classNms hd'
  have hcand := Candidate.of_mem hmem
  have hcand' := Candidate.of_mem hmem'
  rcases lt_or_gt_of_ne hc with hlt | hgt
  · have hzero := iou_shiftByClass_of_small hcand hcand' (hsmall _ _ hcand.cls_nonneg hlt
      hcand'.cls_lt hcand'.cls_lt_int16 hcand.wanted hcand'.wanted)
    rw [hzero]
    exact not_lt.mpr h0
  · have hzero := iou_shiftByClass_of_small hcand' hcand (hsmall _ _ hcand'.cls_nonneg hgt
      hcand.cls_lt hcand.cls_lt_int16 hcand'.wanted hcand.wanted)
    rw [iou_comm, hzero]
    exact not_lt.mpr h0

end Small

/-! ## Large frames -/

/-- What an anchor predicts: a box in letterbox pixels, and the high score on one class. -/
def anchorColumn (b : BBox R) (cls : ℕ) (hi lo : R) : ℕ → R
  | 0 => b.x + 1 / 2 * b.w
  | 1 => b.y + 1 / 2 * b.h
  | 2 => b.w
  | 3 => b.h
  | n + 4 => if n = cls then hi else lo

/-- A head output with two anchors. -/
def pairTensor (b b' : BBox R) (cls cls' : ℕ) (hi lo : R) (k : ℕ) : R :=
  if k % 2 = 0 then anchorColumn b cls hi lo (k / 2) else anchorColumn b' cls' hi lo (k / 2)

/-- An anchor with one high score gets the class of that score. -/
theorem scanClasses_single {out : ℕ → R} {numAnchors a cls : ℕ} {confThr hi lo : R}
    (hlo : lo < confThr) (hhi : confThr ≤ hi)
    (hout : ∀ n, out ((4 + n) * numAnchors + a) = if n = cls then hi else lo) (numClasses : ℕ) :
    (scanClasses out numClasses numAnchors confThr).best a =
        (if cls < numClasses then hi else confThr) ∧
      (scanClasses out numClasses numAnchors confThr).bestCls a =
        if cls < numClasses then wrapInt16 cls else -1 := by
  induction numClasses with
  | zero => exact ⟨rfl, rfl⟩
  | succ n ih =>
    obtain ⟨ihbest, ihcls⟩ := ih
    simp only [scanClasses_succ, scanRow, ihbest, ihcls, hout]
    rcases lt_trichotomy n cls with h | rfl | h
    · have h1 : ¬cls < n := by omega
      have h2 : ¬cls < n + 1 := by omega
      simp [h1, h2, h.ne, not_le.mpr hlo]
    · simp [hhi]
    · have h2 : cls < n + 1 := by omega
      simp [h, h2, h.ne', not_le.mpr (hlo.trans_le hhi)]

/-- A box inside the frame, larger than a pixel. -/
structure InFrame (m : LetterboxMap R) (b : BBox R) : Prop where
  x_nonneg : 0 ≤ b.x
  y_nonneg : 0 ≤ b.y
  right_le : b.x + b.w ≤ m.srcW
  bottom_le : b.y + b.h ≤ m.srcH
  one_lt_w : 1 < b.w
  one_lt_h : 1 < b.h

/-- A box inside the frame is not clipped. -/
theorem InFrame.clipToFrame {m : LetterboxMap R} {b : BBox R} (h : InFrame m b) :
    clipToFrame m b = b := by
  simp [Ctrk.clipToFrame, max_eq_left h.x_nonneg, max_eq_left h.y_nonneg, min_eq_left h.right_le,
    min_eq_left h.bottom_le]

section Pair

variable {m : LetterboxMap R} {keepClasses : List ℤ} {confThr hi lo : R} {numClasses : ℕ}

/-- The candidate of an anchor that predicts a box inside the frame.

**Proof sketch.** Only the class of the column reaches the threshold, so the scan finds it with
its score.  The box maps back to itself and clipping leaves it, since it lies inside the frame. -/
theorem candidate_of_anchorColumn (hm : m.scale ≠ 0) (hlo : lo < confThr) (hhi : confThr ≤ hi)
    {out : ℕ → R} {numAnchors a cls : ℕ} {b : BBox R} (hb : InFrame m b)
    (hout : ∀ r, out (r * numAnchors + a) = anchorColumn (toLetterbox b m) cls hi lo r)
    (hcls : cls < numClasses) (hint : cls < 32768) (hwanted : wanted keepClasses cls = true) :
    candidate out numAnchors (scanClasses out numClasses numAnchors confThr) m keepClasses a =
      some ⟨b, hi, cls, []⟩ := by
  have hscore : ∀ n, out ((4 + n) * numAnchors + a) = if n = cls then hi else lo := by
    intro n
    rw [hout, Nat.add_comm 4 n]
    rfl
  have hscan := scanClasses_single hlo hhi hscore numClasses
  rw [if_pos hcls, if_pos hcls] at hscan
  rw [wrapInt16_of_lt hint] at hscan
  have hbox : anchorBox out numAnchors m a = b := by
    simp only [anchorBox, hout, anchorColumn, add_sub_cancel_right]
    rw [fromLetterbox_toLetterbox hm, hb.clipToFrame]
  have hkeep : ¬((cls : ℤ) < 0 ∨ ¬wanted keepClasses cls = true) := by
    simp [hwanted]
  have hsize : ¬(b.w ≤ 1 ∨ b.h ≤ 1) := by
    simp [not_le.mpr hb.one_lt_w, not_le.mpr hb.one_lt_h]
  simp only [candidate, hscan.1, hscan.2, hbox]
  rw [if_neg hkeep, if_neg hsize]

/-- The candidates of a head output with two boxes inside the frame. -/
theorem candidates_pairTensor (hm : m.scale ≠ 0) (hlo : lo < confThr) (hhi : confThr ≤ hi)
    {b b' : BBox R} (hb : InFrame m b) (hb' : InFrame m b') {cls cls' : ℕ}
    (hcls : cls < numClasses) (hcls' : cls' < numClasses) (hint : cls < 32768)
    (hint' : cls' < 32768) (hwanted : wanted keepClasses cls = true)
    (hwanted' : wanted keepClasses cls' = true) :
    candidates (pairTensor (toLetterbox b m) (toLetterbox b' m) cls cls' hi lo) numClasses 2
      confThr m keepClasses = [⟨b, hi, cls, []⟩, ⟨b', hi, cls', []⟩] := by
  have hfirst : ∀ r, pairTensor (toLetterbox b m) (toLetterbox b' m) cls cls' hi lo (r * 2 + 0) =
      anchorColumn (toLetterbox b m) cls hi lo r := by
    intro r
    simp [pairTensor]
  have hsecond : ∀ r, pairTensor (toLetterbox b m) (toLetterbox b' m) cls cls' hi lo (r * 2 + 1) =
      anchorColumn (toLetterbox b' m) cls' hi lo r := by
    intro r
    have hmod : (r * 2 + 1) % 2 = 1 := by omega
    have hdiv : (r * 2 + 1) / 2 = r := by omega
    simp [pairTensor, hmod, hdiv]
  have hcand := candidate_of_anchorColumn hm hlo hhi hb hfirst hcls hint hwanted
  have hcand' := candidate_of_anchorColumn hm hlo hhi hb' hsecond hcls' hint' hwanted'
  simp only [candidates, show List.range 2 = [0, 1] from rfl, List.filterMap_cons, hcand, hcand',
    List.filterMap_nil]

/-- Two boxes of two classes that overlap too much after they moved are decoded wrongly.

**Proof sketch.** Suppression class by class keeps the single candidate of each class.  So the
two classes are separate only if the moved boxes do not overlap too much, which they do. -/
theorem not_classAware_pairTensor [IsStrictOrderedRing R] (sorter : Sorter R) {nmsIou : R}
    (hm : m.scale ≠ 0) (hlo : lo < confThr) (hhi : confThr ≤ hi) {b b' : BBox R}
    (hb : InFrame m b) (hb' : InFrame m b') {cls cls' : ℕ} (hne : cls ≠ cls')
    (hcls : cls < numClasses) (hcls' : cls' < numClasses) (hint : cls < 32768)
    (hint' : cls' < 32768) (hwanted : wanted keepClasses cls = true)
    (hwanted' : wanted keepClasses cls' = true)
    (hover : nmsIou < iou (b.shift ((cls : R) * 4096) ((cls : R) * 4096))
      (b'.shift ((cls' : R) * 4096) ((cls' : R) * 4096))) :
    ¬ClassAware sorter (pairTensor (toLetterbox b m) (toLetterbox b' m) cls cls' hi lo) numClasses 2
      confThr nmsIou m keepClasses := by
  have hne' : (cls : ℤ) ≠ cls' := by exact_mod_cast hne
  rw [classAware_iff_separate,
    candidates_pairTensor hm hlo hhi hb hb' hcls hcls' hint hint' hwanted hwanted']
  intro hseparate
  have hown : classNms sorter [⟨b, hi, cls, []⟩, ⟨b', hi, cls', []⟩] cls nmsIou =
      [⟨b, hi, cls, []⟩] := by
    apply classNms_of_single
    simp [classCandidates, hne'.symm]
  have hown' : classNms sorter [⟨b, hi, cls, []⟩, ⟨b', hi, cls', []⟩] cls' nmsIou =
      [⟨b', hi, cls', []⟩] := by
    apply classNms_of_single
    simp [classCandidates, hne']
  refine hseparate cls cls' hne' ⟨b, hi, cls, []⟩ (by rw [hown]; simp) ⟨b', hi, cls', []⟩
    (by rw [hown']; simp) ?_
  simpa [shiftByClass] using hover

end Pair

/-! ## The exact condition -/

section Exact

variable [IsStrictOrderedRing R]

/-- Two equal squares, moved against each other along the diagonal, so that they share a pixel. -/
theorem iou_diagonal {x y ε : R} (hε : 0 ≤ ε) :
    iou ⟨x, y, 1 + ε, 1 + ε⟩ ⟨x + ε, y + ε, 1 + ε, 1 + ε⟩ = 1 / (2 * (1 + ε) ^ 2 - 1) := by
  have hside : ¬(1 + ε ≤ 0) := by linarith
  have hspan : ∀ z : R, min (z + (1 + ε)) (z + ε + (1 + ε)) - max z (z + ε) = 1 := by
    intro z
    rw [min_eq_left (by linarith), max_eq_right (by linarith)]
    ring
  have hone : ¬((1 : R) ≤ 0) := not_le.mpr one_pos
  simp only [iou, hspan, BBox.area, hside, hone, or_self, if_false, mul_one]
  congr 1
  ring

/-- On a frame larger than the offset of two kept classes, in both directions, some head output is
decoded wrongly.

**Proof sketch.** Put one box in the lower right corner of the frame and the other one up and to
the left of it by nearly the offset between the classes.  After they moved, the boxes differ by
`ε` along the diagonal, and their overlap tends to one with `ε`. -/
theorem exists_not_classAware (sorter : Sorter R) {m : LetterboxMap R} {keepClasses : List ℤ}
    {numClasses : ℕ} (confThr : R) {nmsIou : R} (h0 : 0 ≤ nmsIou) (h1 : nmsIou < 1)
    (hm : m.scale ≠ 0) {cls cls' : ℕ} (hlt : cls < cls') (hcls' : cls' < numClasses)
    (hint' : cls' < 32768) (hwanted : wanted keepClasses cls = true)
    (hwanted' : wanted keepClasses cls' = true) (hw : 4096 * ((cls' : ℤ) - cls) < m.srcW)
    (hh : 4096 * ((cls' : ℤ) - cls) < m.srcH) :
    ∃ out numAnchors,
      ¬ClassAware sorter out numClasses numAnchors confThr nmsIou m keepClasses := by
  -- the boxes share one pixel in the corner; the closer `ε` is to zero, the closer the overlap to 1
  let ε : R := (1 - nmsIou) / 8
  have hε : 0 < ε := by
    simp only [ε]
    linarith
  have hε1 : ε < 1 := by
    simp only [ε]
    linarith
  let off : R := 4096 * ((cls' : R) - cls)
  have hoff : 1 ≤ off := by
    have h : (1 : R) ≤ (cls' : R) - cls := by
      have hcast : ((cls + 1 : ℕ) : R) ≤ cls' := by exact_mod_cast hlt
      push_cast at hcast
      linarith
    simp only [off]
    linarith
  have hw' : off + 1 ≤ m.srcW := by
    have hcast : ((4096 * ((cls' : ℤ) - cls) + 1 : ℤ) : R) ≤ m.srcW := by exact_mod_cast hw
    push_cast at hcast
    exact hcast
  have hh' : off + 1 ≤ m.srcH := by
    have hcast : ((4096 * ((cls' : ℤ) - cls) + 1 : ℤ) : R) ≤ m.srcH := by exact_mod_cast hh
    push_cast at hcast
    exact hcast
  let b : BBox R := ⟨m.srcW - 1 - ε, m.srcH - 1 - ε, 1 + ε, 1 + ε⟩
  let b' : BBox R := ⟨m.srcW - 1 - off, m.srcH - 1 - off, 1 + ε, 1 + ε⟩
  have hb : InFrame m b := by
    constructor
    all_goals simp only [b]
    all_goals linarith
  have hb' : InFrame m b' := by
    constructor
    all_goals simp only [b']
    all_goals linarith
  have hover : nmsIou < iou (b.shift ((cls : R) * 4096) ((cls : R) * 4096))
      (b'.shift ((cls' : R) * 4096) ((cls' : R) * 4096)) := by
    have hb'_shift : b'.shift ((cls' : R) * 4096) ((cls' : R) * 4096) =
        BBox.shift ((cls : R) * 4096) ((cls : R) * 4096)
          ⟨m.srcW - 1 - ε + ε, m.srcH - 1 - ε + ε, 1 + ε, 1 + ε⟩ := by
      simp only [b', off, BBox.shift, BBox.mk.injEq, and_self, and_true]
      constructor
      all_goals ring
    rw [hb'_shift, iou_shift]
    simp only [b]
    rw [iou_diagonal hε.le, lt_div_iff₀ (by nlinarith)]
    have hthr : nmsIou = 1 - 8 * ε := by
      simp only [ε]
      ring
    rw [hthr]
    nlinarith [mul_pos hε hε, mul_pos (mul_pos hε hε) hε]
  refine ⟨_, 2, not_classAware_pairTensor sorter hm (sub_one_lt confThr) le_rfl hb hb' hlt.ne
    (hlt.trans hcls') hcls' (hlt.trans hint') hint' hwanted hwanted' hover⟩

/-- **Suppression across classes.** For one head output, decoding is suppression class by class
exactly when no two boxes that suppression leaves in two classes overlap too much after they moved
by their classes.  For all head outputs of a source frame, it is exactly when any two kept classes
are further apart than the frame is wide or than it is high, at `4096` pixels a class.

**Proof sketch.** The first part compares the two suppressions candidate by candidate.  In the
second, a frame larger than some offset has a head output that is decoded wrongly
(`exists_not_classAware`); in a frame that no offset fits into, boxes of two classes do not meet
after they moved. -/
theorem decode_class_aware (sorter : Sorter R) (numClasses : ℕ) (confThr nmsIou : R)
    (h0 : 0 ≤ nmsIou) (h1 : nmsIou < 1) (keepClasses : List ℤ) (srcW srcH dstW dstH : ℤ)
    (hsw : 0 < srcW) (hsh : 0 < srcH) (hdw : 0 < dstW) (hdh : 0 < dstH) :
    let m : LetterboxMap R := letterboxMap srcW srcH dstW dstH
    (∀ (out : ℕ → R) (numAnchors : ℕ),
      ClassAware sorter out numClasses numAnchors confThr nmsIou m keepClasses ↔
        Separate sorter (candidates out numClasses numAnchors confThr m keepClasses) nmsIou) ∧
    ((∀ (out : ℕ → R) (numAnchors : ℕ),
      ClassAware sorter out numClasses numAnchors confThr nmsIou m keepClasses) ↔
        FrameSeparates numClasses keepClasses srcW srcH) := by
  intro m
  refine ⟨fun out numAnchors => classAware_iff_separate sorter out numClasses numAnchors confThr
    nmsIou m keepClasses, fun h => ?_, fun h out numAnchors => ?_⟩
  · intro c c' hc hlt hC hint hwanted hwanted'
    obtain ⟨cls, rfl⟩ := Int.eq_ofNat_of_zero_le hc
    obtain ⟨cls', rfl⟩ := Int.eq_ofNat_of_zero_le (hc.trans hlt.le)
    by_contra hlarge
    rw [not_or, not_le, not_le] at hlarge
    have hm : m.scale ≠ 0 := (letterboxMap_scale_pos hsw hsh hdw hdh).ne'
    obtain ⟨out, numAnchors, hnot⟩ := exists_not_classAware sorter confThr h0 h1 hm
      (by exact_mod_cast hlt) (by exact_mod_cast hC) (by exact_mod_cast hint) hwanted hwanted'
      hlarge.1 hlarge.2
    exact hnot (h out numAnchors)
  · exact classAware_of_small sorter out numAnchors confThr h0 h

end Exact

/-- A frame of `1920 × 1080` pixels is smaller than the offset of one class. -/
theorem decode_class_aware_1080p :
    ClassAware stableSorter (fun _ => (1 / 2 : ℚ)) 80 8400 (1 / 4) (9 / 20)
      (letterboxMap 1920 1080 640 640) [] := by
  have h := decode_class_aware (stableSorter : Sorter ℚ) 80 (1 / 4) (9 / 20) (by norm_num)
    (by norm_num) [] 1920 1080 640 640 (by decide) (by decide) (by decide) (by decide)
  refine h.2.mpr ?_ _ _
  intro c c' _ hlt _ _ _ _
  left
  omega

/-- **Boxes of two classes that suppress each other.** On a frame of `7680 × 4320` pixels, a box of
class `0` around `(4200, 4200)` suppresses a box of class `1` in the upper left corner. -/
theorem decode_not_class_aware :
    ¬∀ (sorter : Sorter ℚ) (out : ℕ → ℚ) (numClasses numAnchors : ℕ) (confThr nmsIou : ℚ)
      (keepClasses : List ℤ) (srcW srcH dstW dstH : ℤ), 0 ≤ nmsIou → nmsIou < 1 → 0 < srcW →
      0 < srcH → 0 < dstW → 0 < dstH →
      ClassAware sorter out numClasses numAnchors confThr nmsIou
        (letterboxMap srcW srcH dstW dstH) keepClasses := by
  intro h
  have hmap : (letterboxMap 7680 4320 640 640 : LetterboxMap ℚ) =
      ⟨1 / 12, 0, 140, 7680, 4320, 640, 640⟩ := by
    norm_num [letterboxMap]
  have haware := h stableSorter (pairTensor (toLetterbox ⟨4080, 4080, 240, 240⟩
    (letterboxMap 7680 4320 640 640)) (toLetterbox ⟨0, 0, 240, 240⟩
    (letterboxMap 7680 4320 640 640)) 0 1 (9 / 10) (1 / 10)) 80 2 (1 / 4) (9 / 20) [] 7680 4320 640
    640 (by norm_num) (by norm_num) (by decide) (by decide) (by decide) (by decide)
  have hin : InFrame (letterboxMap 7680 4320 640 640 : LetterboxMap ℚ) ⟨4080, 4080, 240, 240⟩ := by
    rw [hmap]
    constructor
    all_goals norm_num
  have hin' : InFrame (letterboxMap 7680 4320 640 640 : LetterboxMap ℚ) ⟨0, 0, 240, 240⟩ := by
    rw [hmap]
    constructor
    all_goals norm_num
  have hscale : (letterboxMap 7680 4320 640 640 : LetterboxMap ℚ).scale ≠ 0 := by
    rw [hmap]
    norm_num
  refine not_classAware_pairTensor stableSorter hscale ?_ ?_ hin hin' zero_ne_one ?_ ?_ ?_ ?_ rfl rfl
    ?_ haware
  all_goals norm_num [iou, BBox.shift, BBox.area]

end Ctrk
