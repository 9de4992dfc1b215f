import CustosTracker.Library.Indexed
import CustosTracker.Library.Selection
import CustosTracker.Tbd.Yolov8

set_option relaxedAutoImplicit false
set_option autoImplicit false

/-!
# Decoding anchor by anchor

`decode_yolov8` goes through the scores class by class, over vectors that the caller may reuse from
frame to frame.  What it finds for an anchor is what a loop over the classes of that anchor alone
would find: the highest class among those of greatest score, if that score reaches the threshold.

## Main definitions

* `Ctrk.ScratchVectors` — the scratch vectors, with their passes in place.
* `Ctrk.decodeYolov8Into` — decoding with the vectors of the caller.
* `Ctrk.BestClass`, `Ctrk.AnchorYields` — the reference, for one anchor.

## Main results

* `Ctrk.decodeYolov8Into_eq` — what the vectors held before does not matter.
* `Ctrk.candidate_iff_anchorYields` — an anchor yields what the reference says.
* `Ctrk.decode_reference` — the decoded detections.
-/

namespace Ctrk

open Indexed Selection

variable {R : Type} [Scalar R]

/-! ## The scratch vectors -/

/-- The vectors of `DecodeScratch`, as the caller keeps them. -/
structure ScratchVectors (R : Type) where
  best : List R := []
  bestCls : List ℤ := []

namespace ScratchVectors

/-- `assign` on both vectors. -/
def assign (_ : ScratchVectors R) (numAnchors : ℕ) (confThr : R) : ScratchVectors R :=
  ⟨List.replicate numAnchors confThr, List.replicate numAnchors (-1)⟩

/-- One anchor in the pass over the scores of class `c`. -/
def visit (row : ℕ → R) (c : ℕ) (s : ScratchVectors R) (a : ℕ) : ScratchVectors R :=
  if s.best.getD a 0 ≤ row a then ⟨s.best.set a (row a), s.bestCls.set a (wrapInt16 c)⟩ else s

/-- The pass over the scores of class `c`. -/
def scanRow (row : ℕ → R) (c numAnchors : ℕ) (s : ScratchVectors R) : ScratchVectors R :=
  (List.range numAnchors).foldl (visit row c) s

/-- The passes over all classes. -/
def scanClasses (out : ℕ → R) (numClasses numAnchors : ℕ) (s : ScratchVectors R) :
    ScratchVectors R :=
  (List.range numClasses).foldl
    (fun s c => scanRow (fun a => out ((4 + c) * numAnchors + a)) c numAnchors s) s

/-- The entries of the vectors. -/
def entries (s : ScratchVectors R) : DecodeScratch R where
  best a := s.best.getD a 0
  bestCls a := s.bestCls.getD a 0

end ScratchVectors

/-- The vectors after the passes. -/
def scannedVectors (scratch : Option (ScratchVectors R)) (out : ℕ → R) (numClasses numAnchors : ℕ)
    (confThr : R) : ScratchVectors R :=
  let s := scratch.getD {}
  (s.assign numAnchors confThr).scanClasses out numClasses numAnchors

/-- `decode_yolov8` with the vectors of the caller, or its own: the detections, and what it leaves
in the vectors of the caller. -/
def decodeYolov8Into (sorter : Sorter R) (scratch : Option (ScratchVectors R)) (out : ℕ → R)
    (numClasses numAnchors : ℕ) (confThr nmsIou : R) (m : LetterboxMap R) (keepClasses : List ℤ) :
    List (Detection R) × Option (ScratchVectors R) :=
  let s := scannedVectors scratch out numClasses numAnchors confThr
  let candidates :=
    (List.range numAnchors).filterMap (candidate out numAnchors s.entries m keepClasses)
  let shifted := candidates.map shiftByClass
  let scores := candidates.map Detection.score
  ((nms sorter.order shifted scores nmsIou).map fun idx => candidates.getD idx default,
    scratch.map fun _ => s)

/-- Vectors of `n` entries. -/
def DecodeScratch.toVectors (v : DecodeScratch R) (n : ℕ) : ScratchVectors R :=
  ⟨(List.range n).map v.best, (List.range n).map v.bestCls⟩

namespace ScratchVectors

omit [Scalar R] in
/-- The passes start from the threshold and no class, whatever the vectors held. -/
theorem assign_eq (s : ScratchVectors R) (n : ℕ) (confThr : R) : s.assign n confThr =
    DecodeScratch.toVectors { best := fun _ => confThr, bestCls := fun _ => -1 } n := by
  rw [assign, DecodeScratch.toVectors, List.map_const', List.map_const', List.length_range]

/-- A pass in place, up to anchor `k`.

**Proof sketch.** By induction on the anchors visited: a visit writes the entry of its anchor, or
leaves it when the pass as a whole would. -/
theorem foldl_visit (row : ℕ → R) (c : ℕ) (v : DecodeScratch R) {n k : ℕ} (hk : k ≤ n) :
    (List.range k).foldl (visit row c) (v.toVectors n) =
      DecodeScratch.toVectors
        { best := fun a => if a < k then (Ctrk.scanRow row c v).best a else v.best a
          bestCls := fun a =>
            if a < k then (Ctrk.scanRow row c v).bestCls a else v.bestCls a } n := by
  induction k with
  | zero => rfl
  | succ k ih =>
    rw [List.range_succ, List.foldl_append, ih (by omega), List.foldl_cons, List.foldl_nil, visit]
    simp only [DecodeScratch.toVectors, getD_map_range _ (show k < n from hk), lt_irrefl, if_false,
      set_map_range]
    rw [← update_below v.best, ← update_below v.bestCls]
    split_ifs with hle
    · have hbest : (Ctrk.scanRow row c v).best k = row k := if_pos hle
      have hcls : (Ctrk.scanRow row c v).bestCls k = wrapInt16 c := if_pos hle
      rw [hbest, hcls]
    · -- the entry keeps its value, which is what the pass as a whole gives it
      have hbest : (Ctrk.scanRow row c v).best k = v.best k := if_neg hle
      have hcls : (Ctrk.scanRow row c v).bestCls k = v.bestCls k := if_neg hle
      rw [hbest, hcls, Function.update_eq_self_iff.mpr (by simp),
        Function.update_eq_self_iff.mpr (by simp)]

/-- A pass in place changes every entry as the pass does. -/
theorem scanRow_toVectors (row : ℕ → R) (c n : ℕ) (v : DecodeScratch R) :
    scanRow row c n (v.toVectors n) = (Ctrk.scanRow row c v).toVectors n := by
  rw [scanRow, foldl_visit row c v le_rfl, DecodeScratch.toVectors, DecodeScratch.toVectors]
  congr 1
  · exact List.map_congr_left fun a ha => if_pos (List.mem_range.mp ha)
  · exact List.map_congr_left fun a ha => if_pos (List.mem_range.mp ha)

theorem scanClasses_toVectors (out : ℕ → R) (numClasses n : ℕ) (confThr : R) :
    scanClasses out numClasses n
        (DecodeScratch.toVectors { best := fun _ => confThr, bestCls := fun _ => -1 } n) =
      (Ctrk.scanClasses out numClasses n confThr).toVectors n := by
  induction numClasses with
  | zero => rfl
  | succ c ih =>
    rw [scanClasses_succ, ← scanRow_toVectors, ← ih, scanClasses, List.range_succ,
      List.foldl_append]
    rfl

end ScratchVectors

/-- The vectors after the passes, whatever they held before. -/
theorem scannedVectors_eq (scratch : Option (ScratchVectors R)) (out : ℕ → R)
    (numClasses numAnchors : ℕ) (confThr : R) :
    scannedVectors scratch out numClasses numAnchors confThr =
      (scanClasses out numClasses numAnchors confThr).toVectors numAnchors := by
  rw [scannedVectors, ScratchVectors.assign_eq, ScratchVectors.scanClasses_toVectors]

/-- The candidate of an anchor, read off the vectors. -/
theorem candidate_scannedVectors (scratch : Option (ScratchVectors R)) (out : ℕ → R)
    (numClasses : ℕ) {numAnchors : ℕ} (confThr : R) (m : LetterboxMap R) (keepClasses : List ℤ)
    {a : ℕ} (ha : a < numAnchors) :
    candidate out numAnchors
        (scannedVectors scratch out numClasses numAnchors confThr).entries m keepClasses a =
      candidate out numAnchors (scanClasses out numClasses numAnchors confThr) m keepClasses a := by
  rw [scannedVectors_eq]
  simp only [candidate, ScratchVectors.entries, DecodeScratch.toVectors, getD_map_range _ ha]

/-- **The scratch does not matter.** Decoding with the vectors of the caller finds what decoding
finds. -/
theorem decodeYolov8Into_eq (sorter : Sorter R) (scratch : Option (ScratchVectors R))
    (out : ℕ → R) (numClasses numAnchors : ℕ) (confThr nmsIou : R) (m : LetterboxMap R)
    (keepClasses : List ℤ) :
    (decodeYolov8Into sorter scratch out numClasses numAnchors confThr nmsIou m keepClasses).1 =
      decodeYolov8 sorter out numClasses numAnchors confThr nmsIou m keepClasses := by
  have hcands : (List.range numAnchors).filterMap (candidate out numAnchors
      (scannedVectors scratch out numClasses numAnchors confThr).entries m keepClasses) =
      candidates out numClasses numAnchors confThr m keepClasses :=
    List.filterMap_congr fun a ha =>
      candidate_scannedVectors scratch out numClasses confThr m keepClasses (List.mem_range.mp ha)
  simp only [decodeYolov8Into, hcands]
  rfl

/-! ## One anchor -/

/-- The score of a class at an anchor. -/
def classScore (out : ℕ → R) (numAnchors a c : ℕ) : R := out ((4 + c) * numAnchors + a)

/-- The highest class among those of greatest score. -/
structure BestClass (score : ℕ → R) (numClasses c : ℕ) : Prop where
  lt : c < numClasses
  le : ∀ c' < numClasses, score c' ≤ score c
  highest : ∀ c' < numClasses, c < c' → score c' < score c

theorem BestClass.unique {score : ℕ → R} {numClasses c c' : ℕ} (h : BestClass score numClasses c)
    (h' : BestClass score numClasses c') : c = c' := by
  rcases lt_trichotomy c c' with hlt | heq | hgt
  · exact absurd (h.highest c' h'.lt hlt) (h'.le c h.lt).not_gt
  · exact heq
  · exact absurd (h'.highest c h.lt hgt) (h.le c' h'.lt).not_gt

/-- The loop over the classes of one anchor: the last class that beat all before it, with its
score. -/
def anchorBest (out : ℕ → R) (numClasses numAnchors : ℕ) (confThr : R) (a : ℕ) : Option ℕ × R :=
  (List.range numClasses).foldl
    (overwrite (fun _ => True) (classScore out numAnchors a) fun x y => y ≤ x) (none, confThr)

section Anchor

variable (out : ℕ → R) (numClasses numAnchors : ℕ) (confThr : R) (a : ℕ)

theorem anchorBest_succ (n : ℕ) : anchorBest out (n + 1) numAnchors confThr a =
    overwrite (fun _ => True) (classScore out numAnchors a) (fun x y => y ≤ x)
      (anchorBest out n numAnchors confThr a) n := by
  rw [anchorBest, List.range_succ, List.foldl_append]
  rfl

/-- The passes over all anchors do at each anchor what the loop over its classes does. -/
theorem scanClasses_eq_anchorBest :
    (scanClasses out numClasses numAnchors confThr).best a =
        (anchorBest out numClasses numAnchors confThr a).2 ∧
      (scanClasses out numClasses numAnchors confThr).bestCls a =
        (anchorBest out numClasses numAnchors confThr a).1.elim (-1) fun c => wrapInt16 c := by
  induction numClasses with
  | zero => exact ⟨rfl, rfl⟩
  | succ n ih =>
    obtain ⟨ihbest, ihcls⟩ := ih
    have hrow : (fun a => out ((4 + n) * numAnchors + a)) = (classScore out numAnchors · n) := rfl
    rw [scanClasses_succ, anchorBest_succ, hrow]
    simp only [scanRow, ihbest, ihcls]
    by_cases hle : (anchorBest out n numAnchors confThr a).2 ≤ classScore out numAnchors a n
    · rw [overwrite_of _ _ _ ⟨trivial, hle⟩, if_pos hle, if_pos hle,
        Option.elim_some]
      exact ⟨rfl, rfl⟩
    · rw [overwrite_of_not _ _ _ fun h => hle h.2, if_neg hle, if_neg hle]
      exact ⟨rfl, rfl⟩

/-- The loop chooses among the classes whose score reaches the threshold. -/
theorem anchorBest_eq : anchorBest out numClasses numAnchors confThr a =
    let chosen := choose (fun c => True ∧ confThr ≤ classScore out numAnchors a c)
      (fun x c => classScore out numAnchors a c ≤ classScore out numAnchors a x)
      (List.range numClasses)
    (chosen, chosen.elim confThr (classScore out numAnchors a)) :=
  foldl_overwrite _ _ (fun x y => y ≤ x) (fun h h' => le_trans h' h) confThr _

/-- What the loop chooses is the best class, and its score reaches the threshold.

**Proof sketch.** The loop chooses the last maximum among the classes that reach the threshold.
Classes below the threshold are no better than one that reaches it, and the classes are visited
in increasing order. -/
theorem bestClass_of_anchorBest {c : ℕ}
    (h : (anchorBest out numClasses numAnchors confThr a).1 = some c) :
    BestClass (classScore out numAnchors a) numClasses c ∧
      confThr ≤ classScore out numAnchors a c := by
  rw [anchorBest_eq] at h
  obtain ⟨pre, post, hsplit, ⟨-, hthr⟩, hpre, hpost⟩ := lastMax_of_choose h
  have hmem : ∀ c', c' < numClasses ↔ c' ∈ pre ∨ c' = c ∨ c' ∈ post := by
    intro c'
    rw [← List.mem_range, hsplit, List.mem_append, List.mem_cons]
  have hsorted := List.pairwise_lt_range (n := numClasses)
  rw [hsplit, List.pairwise_append] at hsorted
  -- a class below the threshold is no better than one that reaches it
  have hlow : ∀ c', ¬(True ∧ confThr ≤ classScore out numAnchors a c') →
      classScore out numAnchors a c' < classScore out numAnchors a c := by
    intro c' hc'
    exact (not_le.mp fun hle => hc' ⟨trivial, hle⟩).trans_le hthr
  refine ⟨⟨(hmem c).mpr (Or.inr (Or.inl rfl)), fun c' hc' => ?_, fun c' hc' hlt => ?_⟩, hthr⟩
  · by_cases hel : True ∧ confThr ≤ classScore out numAnchors a c'
    · rcases (hmem c').mp hc' with hc' | rfl | hc'
      · exact hpre c' hc' hel
      · exact le_rfl
      · exact (hpost c' hc' hel).le
    · exact (hlow c' hel).le
  · by_cases hel : True ∧ confThr ≤ classScore out numAnchors a c'
    · rcases (hmem c').mp hc' with hc' | rfl | hc'
      · exact absurd (hsorted.2.2 c' hc' c List.mem_cons_self) hlt.not_gt
      · exact absurd hlt (lt_irrefl c')
      · exact hpost c' hc' hel
    · exact hlow c' hel

/-- The loop finds the best class of an anchor, if its score reaches the threshold. -/
theorem anchorBest_fst {c : ℕ} : (anchorBest out numClasses numAnchors confThr a).1 = some c ↔
    BestClass (classScore out numAnchors a) numClasses c ∧
      confThr ≤ classScore out numAnchors a c := by
  refine ⟨bestClass_of_anchorBest out numClasses numAnchors confThr a, ?_⟩
  rintro ⟨hbest, hthr⟩
  cases hfound : (anchorBest out numClasses numAnchors confThr a).1 with
  | none =>
    rw [anchorBest_eq] at hfound
    have hnone := (choose_eq_none_iff _ _).mp hfound c (List.mem_range.mpr hbest.lt)
    exact absurd ⟨trivial, hthr⟩ hnone
  | some c' =>
    obtain ⟨hbest', -⟩ := bestClass_of_anchorBest out numClasses numAnchors confThr a hfound
    rw [hbest'.unique hbest]

/-- The loop stores the score of its class. -/
theorem anchorBest_snd {c : ℕ} (h : (anchorBest out numClasses numAnchors confThr a).1 = some c) :
    (anchorBest out numClasses numAnchors confThr a).2 = classScore out numAnchors a c := by
  rw [anchorBest_eq] at h ⊢
  simp only at h ⊢
  rw [h, Option.elim_some]

end Anchor

/-! ## What an anchor yields -/

/-- The reference: what an anchor with best class `c` yields. -/
structure AnchorYields (out : ℕ → R) (numClasses numAnchors : ℕ) (confThr : R) (m : LetterboxMap R)
    (keepClasses : List ℤ) (a c : ℕ) (d : Detection R) : Prop where
  best : BestClass (classScore out numAnchors a) numClasses c
  reaches : confThr ≤ classScore out numAnchors a c
  kept : keepClasses = [] ∨ (c : ℤ) ∈ keepClasses
  one_lt_w : 1 < (anchorBox out numAnchors m a).w
  one_lt_h : 1 < (anchorBox out numAnchors m a).h
  eq : d = ⟨anchorBox out numAnchors m a, classScore out numAnchors a c, c, []⟩

theorem wanted_iff {keepClasses : List ℤ} {cls : ℤ} :
    wanted keepClasses cls = true ↔ keepClasses = [] ∨ cls ∈ keepClasses := by
  simp [wanted]

section Yields

variable {numClasses : ℕ} (hclasses : numClasses ≤ 32768) (out : ℕ → R) (numAnchors : ℕ)
  (confThr : R) (m : LetterboxMap R) (keepClasses : List ℤ)

include hclasses

/-- **An anchor yields what the reference says.**

**Proof sketch.** The scan of the scratch vectors finds what a loop over the classes of the one
anchor finds (`scanClasses_eq_anchorBest`).  What is left are the class filter and the minimal
size, condition by condition. -/
theorem candidate_iff_anchorYields (a : ℕ) (d : Detection R) :
    candidate out numAnchors (scanClasses out numClasses numAnchors confThr) m keepClasses a =
        some d ↔
      ∃ c, AnchorYields out numClasses numAnchors confThr m keepClasses a c d := by
  obtain ⟨hbest, hcls⟩ := scanClasses_eq_anchorBest out numClasses numAnchors confThr a
  simp only [candidate, hbest, hcls]
  cases hfound : (anchorBest out numClasses numAnchors confThr a).1 with
  | none =>
    refine iff_of_false (by simp) ?_
    rintro ⟨c, hyields⟩
    have hsome := (anchorBest_fst out numClasses numAnchors confThr a).mpr
      ⟨hyields.best, hyields.reaches⟩
    rw [hfound] at hsome
    exact absurd hsome.symm (Option.some_ne_none c)
  | some c =>
    obtain ⟨hc, hthr⟩ := (anchorBest_fst out numClasses numAnchors confThr a).mp hfound
    have hkeep : ((c : ℤ) < 0 ∨ ¬wanted keepClasses c = true) ↔
        ¬(keepClasses = [] ∨ (c : ℤ) ∈ keepClasses) := by
      rw [wanted_iff, or_iff_right (by omega)]
    rw [Option.elim_some, wrapInt16_of_lt (hc.lt.trans_le hclasses),
      anchorBest_snd out numClasses numAnchors confThr a hfound]
    constructor
    · intro h
      split_ifs at h with hdrop hsize
      rw [hkeep, not_not] at hdrop
      rw [not_or, not_le, not_le] at hsize
      exact ⟨c, hc, hthr, hdrop, hsize.1, hsize.2, (Option.some.inj h).symm⟩
    · rintro ⟨c', hyields⟩
      obtain rfl := hc.unique hyields.best
      rw [if_neg fun h => hkeep.mp h hyields.kept, if_neg, hyields.eq]
      rw [not_or, not_le, not_le]
      exact ⟨hyields.one_lt_w, hyields.one_lt_h⟩

omit hclasses in
/-- The detections come from the candidates of distinct anchors.

**Proof sketch.** Number the anchors that have a candidate, in order; the candidates are theirs.
Suppression keeps indices of candidates without repetition, so the anchors at these indices are
distinct. -/
theorem exists_anchors (sorter : Sorter R) (numClasses : ℕ) (nmsIou : R) :
    ∃ anchors : List ℕ, anchors.Nodup ∧ (∀ a ∈ anchors, a < numAnchors) ∧
      List.Forall₂ (fun a d => candidate out numAnchors
        (scanClasses out numClasses numAnchors confThr) m keepClasses a = some d) anchors
        (decodeYolov8 sorter out numClasses numAnchors confThr nmsIou m keepClasses) := by
  let yields := candidate out numAnchors (scanClasses out numClasses numAnchors confThr) m
    keepClasses
  let cands := candidates out numClasses numAnchors confThr m keepClasses
  let kept := nms sorter.order (cands.map shiftByClass) (cands.map Detection.score) nmsIou
  let origins := (List.range numAnchors).filter fun a => (yields a).isSome
  have horigins : origins.map yields = cands.map some :=
    map_filter_isSome yields (List.range numAnchors)
  have hlen : origins.length = cands.length := by
    rw [← List.length_map yields, horigins, List.length_map]
  have hkept : ∀ i ∈ kept, i < cands.length := by
    intro i hi
    have := lt_of_mem_nms _ _ _ _ hi
    rwa [List.length_map] at this
  refine ⟨kept.map fun i => origins.getD i 0, ?_, ?_, ?_⟩
  · exact nodup_map_getD (List.nodup_range.filter _) (nodup_nms _ _ _ _)
      (fun i hi => hlen ▸ hkept i hi) 0
  · intro a ha
    obtain ⟨i, hi, rfl⟩ := List.mem_map.mp ha
    rw [List.getD_eq_getElem _ _ (hlen ▸ hkept i hi)]
    exact List.mem_range.mp (List.mem_filter.mp (List.getElem_mem _)).1
  · change List.Forall₂ _ _ (kept.map fun i => cands.getD i default)
    rw [List.forall₂_map_left_iff, List.forall₂_map_right_iff, List.forall₂_same]
    intro i hi
    have hi' : i < origins.length := hlen ▸ hkept i hi
    rw [List.getD_eq_getElem _ _ hi', List.getD_eq_getElem _ _ (hkept i hi)]
    have hread := congrArg (fun l => l[i]?) horigins
    simpa [hi', hkept i hi] using hread

/-- **Decoding agrees with the reference.** Whatever scratch is passed: an anchor has a candidate
exactly when its greatest class score reaches the threshold, the highest class of that score is
kept and the clipped box is larger than a pixel; the detections are candidates of distinct anchors,
lie in the source frame and come by descending score.

**Proof sketch.** The scratch vectors are overwritten where they are read, so any scratch gives
the detections of a fresh one.  Each detection is then a candidate, whose box is clipped, and
suppression visits the candidates by descending score. -/
theorem decode_reference (sorter : Sorter R) (scratch : Option (ScratchVectors R)) (nmsIou : R) :
    let detections :=
      (decodeYolov8Into sorter scratch out numClasses numAnchors confThr nmsIou m keepClasses).1
    (∀ a < numAnchors, ∀ d, candidate out numAnchors
        (scannedVectors scratch out numClasses numAnchors confThr).entries m keepClasses a = some d ↔
      ∃ c, AnchorYields out numClasses numAnchors confThr m keepClasses a c d) ∧
    (∃ anchors : List ℕ, anchors.Nodup ∧ (∀ a ∈ anchors, a < numAnchors) ∧
      List.Forall₂
        (fun a d => ∃ c, AnchorYields out numClasses numAnchors confThr m keepClasses a c d)
        anchors detections) ∧
    (∀ d ∈ detections, 0 ≤ d.box.x ∧ d.box.x + d.box.w ≤ m.srcW ∧
      0 ≤ d.box.y ∧ d.box.y + d.box.h ≤ m.srcH) ∧
    detections.Pairwise fun d d' => d'.score ≤ d.score := by
  intro detections
  have hdecode : detections =
      decodeYolov8 sorter out numClasses numAnchors confThr nmsIou m keepClasses :=
    decodeYolov8Into_eq sorter scratch out numClasses numAnchors confThr nmsIou m keepClasses
  have hyields := candidate_iff_anchorYields hclasses out numAnchors confThr m keepClasses
  rw [hdecode]
  refine ⟨fun a ha d => ?_, ?_, ?_, ?_⟩
  · rw [candidate_scannedVectors _ _ _ _ _ _ ha]
    exact hyields a d
  · obtain ⟨anchors, hnd, hlt, hall⟩ :=
      exists_anchors out numAnchors confThr m keepClasses sorter numClasses nmsIou
    exact ⟨anchors, hnd, hlt, hall.imp fun a d => (hyields a d).mp⟩
  · intro d hd
    have hcand := Candidate.of_mem (mem_candidates_of_mem_decodeYolov8 _ _ _ _ _ _ _ _ hd)
    exact ⟨hcand.x_nonneg, hcand.right_le, hcand.y_nonneg, hcand.bottom_le⟩
  · exact decodeYolov8_descending sorter out numClasses numAnchors confThr nmsIou m keepClasses

end Yields

/-- A head output with two classes of equal score at its only anchor. -/
def tieTensor : ℕ → ℚ
  | 0 => 50
  | 1 => 50
  | 2 => 20
  | 3 => 20
  | _ => 1 / 2

/-- Two classes of equal score, decoded with the vectors of a larger frame: the higher class
wins. -/
theorem decode_reference_tie :
    let scratch : ScratchVectors ℚ := ⟨[9, 8, 7], [3, 2, 1]⟩
    let m : LetterboxMap ℚ := letterboxMap 100 100 100 100
    candidate tieTensor 1 (scannedVectors (some scratch) tieTensor 2 1 (1 / 2)).entries m [] 0 =
      some ⟨⟨40, 40, 20, 20⟩, 1 / 2, 1, []⟩ ∧
    ∃ c, AnchorYields tieTensor 2 1 (1 / 2) m [] 0 c ⟨⟨40, 40, 20, 20⟩, 1 / 2, 1, []⟩ := by
  intro scratch m
  have h := (decode_reference (show 2 ≤ 32768 by decide) tieTensor 1 (1 / 2) m [] stableSorter
    (some scratch) (1 / 2)).1 0 one_pos ⟨⟨40, 40, 20, 20⟩, 1 / 2, 1, []⟩
  have hrun : candidate tieTensor 1
      (scannedVectors (some scratch) tieTensor 2 1 (1 / 2)).entries m [] 0 =
      some ⟨⟨40, 40, 20, 20⟩, 1 / 2, 1, []⟩ := by
    decide +kernel
  exact ⟨hrun, h.mp hrun⟩

end Ctrk
