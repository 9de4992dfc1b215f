import CustosTracker.Common.Nms

set_option relaxedAutoImplicit false
set_option autoImplicit false

/-!
# Decoding the detector head

`decode_yolov8` of `core/src/tbd/yolov8.cpp`.

## Main definitions

* `Ctrk.Yolov8Config` — the configuration of a detector.
* `Ctrk.DecodeScratch`, `Ctrk.scanClasses` — the best class of every anchor.
* `Ctrk.candidates`, `Ctrk.decodeYolov8` — the boxes before and after suppression.

## Main results

* `Ctrk.Candidate.of_mem` — what is known of a candidate.
-/

namespace Ctrk

variable {R : Type} [Scalar R]

/-! ## Configuration -/

/-- `EngineOptions`. -/
structure EngineOptions where
  intraOpThreads : ℤ := 4
  allowSpinning : Bool := true
  warmup : Bool := true
  useDnnl : Bool := false
  deriving DecidableEq

/-- `Yolov8Config`. -/
structure Yolov8Config (R : Type) [Scalar R] where
  modelPath : String := ""
  confThr : R := 1 / 10
  nmsIou : R := 45 / 100
  keepClasses : List ℤ := []
  engine : EngineOptions := {}

/-! ## The best class of every anchor -/

/-- Two's complement reduction to `int16_t`. -/
def wrapInt16 (x : ℤ) : ℤ := x.bmod (2 ^ 16)

/-- A class number below `2 ^ 15` fits `int16_t`. -/
theorem wrapInt16_of_lt {c : ℕ} (hc : c < 32768) : wrapInt16 c = c := by
  simp only [wrapInt16, Int.bmod_def]
  omega

/-- The scratch arrays, one entry per anchor. -/
structure DecodeScratch (R : Type) where
  best : ℕ → R
  bestCls : ℕ → ℤ

/-- One pass over the scores of class `c`. -/
def scanRow (row : ℕ → R) (c : ℕ) (s : DecodeScratch R) : DecodeScratch R where
  best a := if s.best a ≤ row a then row a else s.best a
  bestCls a := if s.best a ≤ row a then wrapInt16 c else s.bestCls a

/-- The passes over all classes. -/
def scanClasses (out : ℕ → R) (numClasses numAnchors : ℕ) (confThr : R) : DecodeScratch R :=
  (List.range numClasses).foldl
    (fun s c => scanRow (fun a => out ((4 + c) * numAnchors + a)) c s)
    { best := fun _ => confThr, bestCls := fun _ => -1 }

/-- One more class is one more pass. -/
theorem scanClasses_succ (out : ℕ → R) (n numAnchors : ℕ) (confThr : R) :
    scanClasses out (n + 1) numAnchors confThr =
      scanRow (fun a => out ((4 + n) * numAnchors + a)) n
        (scanClasses out n numAnchors confThr) := by
  rw [scanClasses, List.range_succ, List.foldl_append]
  rfl

/-! ## Candidates -/

/-- Whether a class is kept. -/
def wanted (keepClasses : List ℤ) (cls : ℤ) : Bool :=
  keepClasses.isEmpty || keepClasses.contains cls

/-- Clip a box to the source frame. -/
def clipToFrame (m : LetterboxMap R) (box : BBox R) : BBox R :=
  let x2 := min (box.x + box.w) m.srcW
  let y2 := min (box.y + box.h) m.srcH
  let x := max box.x 0
  let y := max box.y 0
  ⟨x, y, x2 - x, y2 - y⟩

/-- The box an anchor predicts, in source pixels. -/
def anchorBox (out : ℕ → R) (numAnchors : ℕ) (m : LetterboxMap R) (a : ℕ) : BBox R :=
  let value := fun c => out (c * numAnchors + a)
  let cx := value 0
  let cy := value 1
  let w := value 2
  let h := value 3
  clipToFrame m (fromLetterbox ⟨cx - 1 / 2 * w, cy - 1 / 2 * h, w, h⟩ m)

/-- The candidate of an anchor, if it has one. -/
def candidate (out : ℕ → R) (numAnchors : ℕ) (s : DecodeScratch R) (m : LetterboxMap R)
    (keepClasses : List ℤ) (a : ℕ) : Option (Detection R) :=
  let bestCls := s.bestCls a
  if bestCls < 0 ∨ ¬wanted keepClasses bestCls then none
  else
    let box := anchorBox out numAnchors m a
    if box.w ≤ 1 ∨ box.h ≤ 1 then none else some ⟨box, s.best a, bestCls, []⟩

/-- The boxes before suppression, in the order of their anchors. -/
def candidates (out : ℕ → R) (numClasses numAnchors : ℕ) (confThr : R) (m : LetterboxMap R)
    (keepClasses : List ℤ) : List (Detection R) :=
  (List.range numAnchors).filterMap
    (candidate out numAnchors (scanClasses out numClasses numAnchors confThr) m keepClasses)

/-! ## Suppression -/

/-- The box of a detection, moved by its class. -/
def shiftByClass (d : Detection R) : BBox R :=
  let off : R := d.classId * 4096
  d.box.shift off off

/-- `decode_yolov8`: the detections of one head output. -/
def decodeYolov8 (sorter : Sorter R) (out : ℕ → R) (numClasses numAnchors : ℕ)
    (confThr nmsIou : R) (m : LetterboxMap R) (keepClasses : List ℤ) : List (Detection R) :=
  let candidates := candidates out numClasses numAnchors confThr m keepClasses
  let shifted := candidates.map shiftByClass
  let scores := candidates.map Detection.score
  (nms sorter.order shifted scores nmsIou).map fun idx => candidates.getD idx default

/-- The score read at an index is the score of the detection read there. -/
theorem getD_map_score (dets : List (Detection R)) (i : ℕ) :
    (dets.map Detection.score).getD i 0 = (dets.getD i default).score := by
  rw [List.getD_eq_getElem?_getD, List.getD_eq_getElem?_getD, List.getElem?_map]
  cases dets[i]? with
  | none => rfl
  | some d => rfl

section Survivors

variable (sorter : Sorter R) (out : ℕ → R) (numClasses numAnchors : ℕ) (confThr nmsIou : R)
  (m : LetterboxMap R) (keepClasses : List ℤ)

/-- Detections are candidates. -/
theorem mem_candidates_of_mem_decodeYolov8 {d : Detection R}
    (h : d ∈ decodeYolov8 sorter out numClasses numAnchors confThr nmsIou m keepClasses) :
    d ∈ candidates out numClasses numAnchors confThr m keepClasses := by
  obtain ⟨i, hi, rfl⟩ := List.mem_map.mp h
  have hlt := lt_of_mem_nms _ _ _ _ hi
  rw [List.length_map] at hlt
  rw [List.getD_eq_getElem _ _ hlt]
  exact List.getElem_mem hlt

/-- Detections come by descending score. -/
theorem decodeYolov8_descending :
    (decodeYolov8 sorter out numClasses numAnchors confThr nmsIou m keepClasses).Pairwise
      fun d d' => d'.score ≤ d.score := by
  rw [decodeYolov8, List.pairwise_map]
  refine (nms_descending sorter _ _ nmsIou).imp ?_
  intro i j hle
  rwa [getD_map_score, getD_map_score] at hle

end Survivors

/-! ## What is known of a candidate -/

/-- A candidate of a frame: inside it, larger than a pixel, of a kept class. -/
structure Candidate (numClasses : ℕ) (m : LetterboxMap R) (keepClasses : List ℤ)
    (d : Detection R) : Prop where
  x_nonneg : 0 ≤ d.box.x
  y_nonneg : 0 ≤ d.box.y
  right_le : d.box.x + d.box.w ≤ m.srcW
  bottom_le : d.box.y + d.box.h ≤ m.srcH
  one_lt_w : 1 < d.box.w
  one_lt_h : 1 < d.box.h
  cls_nonneg : 0 ≤ d.classId
  cls_lt : d.classId < numClasses
  cls_lt_int16 : d.classId < 32768
  wanted : wanted keepClasses d.classId = true

/-- A class is `-1`, or a class number reduced to sixteen bits. -/
theorem scanClasses_bestCls (out : ℕ → R) (numClasses numAnchors : ℕ) (confThr : R) (a : ℕ) :
    (scanClasses out numClasses numAnchors confThr).bestCls a = -1 ∨
      ∃ c < numClasses, (scanClasses out numClasses numAnchors confThr).bestCls a =
        wrapInt16 c := by
  induction numClasses with
  | zero => exact Or.inl rfl
  | succ n ih =>
    simp only [scanClasses_succ, scanRow]
    split_ifs
    · exact Or.inr ⟨n, n.lt_succ_self, rfl⟩
    · rcases ih with h | ⟨c, hc, h⟩
      · exact Or.inl h
      · exact Or.inr ⟨c, hc.trans n.lt_succ_self, h⟩

/-- A nonnegative class is a class number below `2 ^ 15`. -/
theorem scanClasses_bestCls_lt (out : ℕ → R) (numClasses numAnchors : ℕ) (confThr : R) (a : ℕ)
    (h : 0 ≤ (scanClasses out numClasses numAnchors confThr).bestCls a) :
    (scanClasses out numClasses numAnchors confThr).bestCls a < numClasses ∧
      (scanClasses out numClasses numAnchors confThr).bestCls a < 32768 := by
  rcases scanClasses_bestCls out numClasses numAnchors confThr a with hcls | ⟨c, hc, hcls⟩
  · rw [hcls] at h
    omega
  · rw [hcls] at h ⊢
    simp only [wrapInt16, Int.bmod_def] at h ⊢
    omega

theorem Candidate.of_mem {out : ℕ → R} {numClasses numAnchors : ℕ} {confThr : R}
    {m : LetterboxMap R} {keepClasses : List ℤ} {d : Detection R}
    (h : d ∈ candidates out numClasses numAnchors confThr m keepClasses) :
    Candidate numClasses m keepClasses d := by
  obtain ⟨a, -, ha⟩ := List.mem_filterMap.mp h
  simp only [candidate] at ha
  split_ifs at ha with hcls hsize
  obtain rfl := Option.some.inj ha
  rw [not_or, not_not, not_lt] at hcls
  rw [not_or, not_le, not_le] at hsize
  have hlt := scanClasses_bestCls_lt out numClasses numAnchors confThr a hcls.1
  refine ⟨le_max_right _ _, le_max_right _ _, ?_, ?_, hsize.1, hsize.2, hcls.1, hlt.1, hlt.2,
    hcls.2⟩
  · rw [anchorBox, clipToFrame, add_sub_cancel]
    exact min_le_right _ _
  · rw [anchorBox, clipToFrame, add_sub_cancel]
    exact min_le_right _ _

end Ctrk
