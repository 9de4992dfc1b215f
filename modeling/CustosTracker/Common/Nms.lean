import CustosTracker.Common.Geometry
import CustosTracker.Library.Greedy

set_option relaxedAutoImplicit false
set_option autoImplicit false

/-!
# Non-maximum suppression

`nms` of `core/src/common/geometry.cpp`.  `std::sort` leaves the order of equal scores open, so
the sorting procedure is a parameter, a `Sorter`.

## Main definitions

* `Ctrk.IsDescending`, `Ctrk.Sorter` — what `std::sort` promises; `Ctrk.stableSorter`.
* `Ctrk.nms` — the indices of the boxes that survive.

## Main results

* `Ctrk.nms_eq_select` — suppression is greedy selection along the sorted order.
* `Ctrk.nms_greedy` — what survives is the greedy independent set.
-/

namespace Ctrk

open Greedy

variable {R : Type} [Scalar R]

/-! ## Sorting -/

/-- An order of all indices by descending score. -/
structure IsDescending (scores : List R) (order : List ℕ) : Prop where
  perm : order.Perm (List.range scores.length)
  sorted : order.Pairwise fun i j => scores.getD j 0 ≤ scores.getD i 0

/-- `std::sort` of the indices by descending score. -/
structure Sorter (R : Type) [Scalar R] where
  order : List R → List ℕ
  descending : ∀ scores, IsDescending scores (order scores)

theorem IsDescending.nodup {scores : List R} {order : List ℕ} (h : IsDescending scores order) :
    order.Nodup := h.perm.nodup_iff.mpr List.nodup_range

theorem IsDescending.mem_iff {scores : List R} {order : List ℕ} (h : IsDescending scores order)
    {i : ℕ} : i ∈ order ↔ i < scores.length := by
  rw [h.perm.mem_iff, List.mem_range]

/-- The sorting procedure that keeps the order of equal scores. -/
def stableSorter : Sorter R where
  order scores :=
    (List.range scores.length).mergeSort fun i j => decide (scores.getD j 0 ≤ scores.getD i 0)
  descending scores :=
    { perm := List.mergeSort_perm _ _
      sorted := by
        have htrans : ∀ i j k : ℕ, decide (scores.getD j 0 ≤ scores.getD i 0) = true →
            decide (scores.getD k 0 ≤ scores.getD j 0) = true →
            decide (scores.getD k 0 ≤ scores.getD i 0) = true := by
          simp only [decide_eq_true_eq]
          exact fun i j k hij hjk => hjk.trans hij
        have htotal : ∀ i j : ℕ, (decide (scores.getD j 0 ≤ scores.getD i 0) ||
            decide (scores.getD i 0 ≤ scores.getD j 0)) = true := by
          simp only [Bool.or_eq_true, decide_eq_true_eq]
          exact fun i j => le_total _ _
        have hsorted := List.pairwise_mergeSort htrans htotal (List.range scores.length)
        exact hsorted.imp of_decide_eq_true }

/-! ## Suppression -/

/-- The inner loop: flag the boxes that overlap box `i` too much. -/
def suppressFrom (boxes : List (BBox R)) (iouThr : R) (i : ℕ) (order : List ℕ)
    (suppressed : ℕ → Bool) : ℕ → Bool :=
  order.foldl (fun suppressed j =>
    if j = i ∨ suppressed j then suppressed
    else if iouThr < iou (boxes.getD i default) (boxes.getD j default) then
      Function.update suppressed j true
    else suppressed) suppressed

/-- One round of the outer loop, on the kept indices and the flags. -/
def nmsRound (boxes : List (BBox R)) (iouThr : R) (order : List ℕ) (s : List ℕ × (ℕ → Bool))
    (i : ℕ) : List ℕ × (ℕ → Bool) :=
  if s.2 i then s else (s.1 ++ [i], suppressFrom boxes iouThr i order s.2)

/-- `nms`: the surviving indices, by descending score. -/
def nms (sort : List R → List ℕ) (boxes : List (BBox R)) (scores : List R) (iouThr : R) : List ℕ :=
  let order := sort scores
  (order.foldl (nmsRound boxes iouThr order) ([], fun _ => false)).1

/-- Box `i` suppresses box `j`. -/
def suppresses (boxes : List (BBox R)) (iouThr : R) (i j : ℕ) : Bool :=
  decide (iouThr < iou (boxes.getD i default) (boxes.getD j default))

/-- The flags after the inner loop.

**Proof sketch.** By induction on the order.  One round changes the flag of its own index only,
and sets it exactly when that index is not the kept one and overlaps it too much. -/
theorem suppressFrom_eq_true {boxes : List (BBox R)} {iouThr : R} {i : ℕ} {order : List ℕ}
    {flags : ℕ → Bool} {j : ℕ} : suppressFrom boxes iouThr i order flags j = true ↔
      flags j = true ∨ j ∈ order ∧ j ≠ i ∧ suppresses boxes iouThr i j = true := by
  induction order generalizing flags with
  | nil => simp [suppressFrom]
  | cons k order ih =>
    have hstep : ∀ flags' : ℕ → Bool,
        (if k = i ∨ flags k = true then flags
          else if iouThr < iou (boxes.getD i default) (boxes.getD k default) then
            Function.update flags k true
          else flags) = flags' →
        (flags' j = true ↔
          flags j = true ∨ j = k ∧ j ≠ i ∧ suppresses boxes iouThr i j = true) := by
      rintro flags' rfl
      split_ifs with hskip hover
      · refine ⟨Or.inl, ?_⟩
        rintro (h | ⟨rfl, hne, -⟩)
        · exact h
        · exact hskip.resolve_left hne
      · rw [not_or] at hskip
        by_cases hj : j = k
        · subst hj
          have hsup : suppresses boxes iouThr i j = true := decide_eq_true hover
          simp [hsup, hskip.1]
        · simp [hj]
      · refine ⟨Or.inl, ?_⟩
        rintro (h | ⟨rfl, -, hsup⟩)
        · exact h
        · exact absurd (of_decide_eq_true hsup) hover
    rw [suppressFrom, List.foldl_cons]
    refine ih.trans ?_
    rw [hstep _ rfl, List.mem_cons]
    tauto

/-- **Suppression is greedy selection** along the sorted order.

**Proof sketch.** By induction on the prefix of the order that has been processed, the invariant
being that the kept indices are those selected from the prefix and the flags are what these
suppress.  The next index is not in the prefix, so its flag says whether a selected index
suppresses it. -/
theorem nms_eq_select {sort : List R → List ℕ} {boxes : List (BBox R)} {scores : List R}
    {iouThr : R} (hnd : (sort scores).Nodup) :
    nms sort boxes scores iouThr = select (suppresses boxes iouThr) (sort scores) := by
  -- over a prefix of the order: the kept indices are selected, the flags are what they suppress
  have hpre : ∀ pre, pre <+: sort scores →
      (pre.foldl (nmsRound boxes iouThr (sort scores)) ([], fun _ => false)).1 =
        select (suppresses boxes iouThr) pre ∧
      ∀ j ∈ sort scores,
        ((pre.foldl (nmsRound boxes iouThr (sort scores)) ([], fun _ => false)).2 j = true ↔
          ∃ i ∈ select (suppresses boxes iouThr) pre,
            j ≠ i ∧ suppresses boxes iouThr i j = true) := by
    intro pre hpre
    induction pre using List.reverseRecOn with
    | nil => exact ⟨rfl, fun j _ => by simp⟩
    | append_singleton pre i ih =>
      obtain ⟨ihkept, ihflags⟩ := ih ((List.prefix_append pre [i]).trans hpre)
      have hi : i ∈ sort scores := hpre.subset (by simp)
      have hfresh : i ∉ pre := by
        have hnd' := hnd.sublist hpre.sublist
        rw [List.nodup_append] at hnd'
        intro hmem
        exact hnd'.2.2 i hmem i (List.mem_singleton_self i) rfl
      have hflag : (pre.foldl (nmsRound boxes iouThr (sort scores)) ([], fun _ => false)).2 i =
          (select (suppresses boxes iouThr) pre).any (suppresses boxes iouThr · i) := by
        rw [Bool.eq_iff_iff, ihflags i hi, List.any_eq_true]
        constructor
        · rintro ⟨k, hk, -, hsup⟩
          exact ⟨k, hk, hsup⟩
        · rintro ⟨k, hk, hsup⟩
          refine ⟨k, hk, ?_, hsup⟩
          rintro rfl
          exact hfresh ((select_sublist pre).subset hk)
      rw [List.foldl_append, List.foldl_cons, List.foldl_nil, nmsRound, hflag, select_concat]
      split_ifs with hany
      · exact ⟨ihkept, ihflags⟩
      · refine ⟨by rw [ihkept], fun j hj => ?_⟩
        rw [suppressFrom_eq_true, ihflags j hj]
        constructor
        · rintro (⟨k, hk, hne, hsup⟩ | ⟨-, hne, hsup⟩)
          · exact ⟨k, List.mem_append_left _ hk, hne, hsup⟩
          · exact ⟨i, by simp, hne, hsup⟩
        · rintro ⟨k, hk, hne, hsup⟩
          rcases List.mem_append.mp hk with hk' | hk'
          · exact Or.inl ⟨k, hk', hne, hsup⟩
          · rw [List.mem_singleton.mp hk'] at hne hsup
            exact Or.inr ⟨hj, hne, hsup⟩
  exact (hpre _ List.prefix_rfl).1

/-! ## The greedy independent set -/

theorem suppresses_eq_false {boxes : List (BBox R)} {iouThr : R} {i j : ℕ} :
    suppresses boxes iouThr i j = false ↔
      iou (boxes.getD i default) (boxes.getD j default) ≤ iouThr := by
  rw [suppresses, decide_eq_false_iff_not, not_lt]

theorem suppresses_comm (boxes : List (BBox R)) (iouThr : R) (i j : ℕ) :
    suppresses boxes iouThr i j = suppresses boxes iouThr j i := by
  rw [suppresses, suppresses, iou_comm]

section Survivors

variable (sorter : Sorter R) (boxes : List (BBox R)) (scores : List R) (iouThr : R)

/-- The survivors stand in the sorted order. -/
theorem nms_sublist : (nms sorter.order boxes scores iouThr).Sublist (sorter.order scores) := by
  rw [nms_eq_select (sorter.descending scores).nodup]
  exact select_sublist _

theorem nodup_nms : (nms sorter.order boxes scores iouThr).Nodup :=
  (sorter.descending scores).nodup.sublist (nms_sublist sorter boxes scores iouThr)

theorem lt_of_mem_nms {i : ℕ} (hi : i ∈ nms sorter.order boxes scores iouThr) :
    i < scores.length :=
  (sorter.descending scores).mem_iff.mp ((nms_sublist sorter boxes scores iouThr).subset hi)

/-- The survivors come by descending score. -/
theorem nms_descending : (nms sorter.order boxes scores iouThr).Pairwise
    fun i j => scores.getD j 0 ≤ scores.getD i 0 :=
  (sorter.descending scores).sorted.sublist (nms_sublist sorter boxes scores iouThr)

/-- An index survives when no survivor before it overlaps it too much. -/
theorem mem_nms_iff {i : ℕ} (hi : i < scores.length) :
    i ∈ nms sorter.order boxes scores iouThr ↔
      ∀ k ∈ nms sorter.order boxes scores iouThr,
        (sorter.order scores).idxOf k < (sorter.order scores).idxOf i →
        iou (boxes.getD k default) (boxes.getD i default) ≤ iouThr := by
  have hdesc := sorter.descending scores
  rw [nms_eq_select hdesc.nodup, mem_select_iff_idxOf hdesc.nodup (hdesc.mem_iff.mpr hi)]
  simp only [suppresses_eq_false]

/-- No two survivors overlap too much. -/
theorem iou_le_of_mem_nms {i j : ℕ} (hi : i ∈ nms sorter.order boxes scores iouThr)
    (hj : j ∈ nms sorter.order boxes scores iouThr) (hne : i ≠ j) :
    iou (boxes.getD i default) (boxes.getD j default) ≤ iouThr := by
  rw [nms_eq_select (sorter.descending scores).nodup] at hi hj
  have hpair : (select (suppresses boxes iouThr) (sorter.order scores)).Pairwise
      fun i j => suppresses boxes iouThr i j = false := pairwise_select _
  have : Std.Symm fun i j => suppresses boxes iouThr i j = false :=
    ⟨fun i j h => (suppresses_comm boxes iouThr j i).trans h⟩
  exact suppresses_eq_false.mp (hpair.forall hi hj hne)

/-- An index that comes earlier in the sorted order has at least the score. -/
theorem Sorter.score_le_of_idxOf_lt {i k : ℕ} (hi : i < scores.length)
    (hlt : (sorter.order scores).idxOf k < (sorter.order scores).idxOf i) :
    scores.getD i 0 ≤ scores.getD k 0 := by
  have hdesc := sorter.descending scores
  have hil := List.idxOf_lt_length_of_mem (hdesc.mem_iff.mpr hi)
  have hsorted := List.pairwise_iff_getElem.mp hdesc.sorted _ _ (hlt.trans hil) hil hlt
  rwa [List.getElem_idxOf, List.getElem_idxOf] at hsorted

/-- Suppression on boxes that do not overlap too much keeps all of them. -/
theorem nms_perm_of_apart (h : ∀ i < scores.length, ∀ j < scores.length, i ≠ j →
    iou (boxes.getD i default) (boxes.getD j default) ≤ iouThr) :
    (nms sorter.order boxes scores iouThr).Perm (List.range scores.length) := by
  have hdesc := sorter.descending scores
  rw [nms_eq_select hdesc.nodup, select_eq_self]
  · exact hdesc.perm
  · refine List.Pairwise.imp_of_mem ?_ hdesc.nodup
    intro i j hi hj hne
    exact suppresses_eq_false.mpr (h i (hdesc.mem_iff.mp hi) j (hdesc.mem_iff.mp hj) hne)

/-- **The greedy independent set.** The survivors are distinct and come by descending score; an
index survives exactly when no survivor before it overlaps it too much.  So no two survivors overlap
too much, whatever is dropped overlaps a survivor of at least its score too much, and suppression on
the survivors alone drops nothing.

**Proof sketch.** Suppression is greedy selection along the sorted order, so membership, order
and separation are the lemmas about `select`.  What is dropped is suppressed by a survivor before
it in the order, hence of at least its score.  The survivors overlap too little to suppress one
another, so running again keeps them all. -/
theorem nms_greedy (hlen : boxes.length = scores.length) :
    let kept := nms sorter.order boxes scores iouThr
    let box := fun i => boxes.getD i default
    let score := fun i => scores.getD i 0
    (kept.Nodup ∧ (∀ i ∈ kept, i < boxes.length) ∧
      kept.Pairwise fun i j => score j ≤ score i) ∧
    (∀ i < boxes.length, i ∈ kept ↔ ∀ k ∈ kept,
      (sorter.order scores).idxOf k < (sorter.order scores).idxOf i →
      iou (box k) (box i) ≤ iouThr) ∧
    (∀ i ∈ kept, ∀ j ∈ kept, i ≠ j → iou (box i) (box j) ≤ iouThr) ∧
    (∀ i < boxes.length, i ∉ kept → ∃ k ∈ kept,
      iouThr < iou (box k) (box i) ∧ score i ≤ score k) ∧
    ∀ again : Sorter R, (nms again.order (kept.map box) (kept.map score) iouThr).Perm
      (List.range kept.length) := by
  intro kept box score
  refine ⟨⟨nodup_nms sorter boxes scores iouThr, fun i hi => ?_,
    nms_descending sorter boxes scores iouThr⟩, fun i hi => ?_, fun i hi j hj hne => ?_,
    fun i hi hdrop => ?_, fun again => ?_⟩
  · rw [hlen]
    exact lt_of_mem_nms sorter boxes scores iouThr hi
  · rw [hlen] at hi
    exact mem_nms_iff sorter boxes scores iouThr hi
  · exact iou_le_of_mem_nms sorter boxes scores iouThr hi hj hne
  · rw [hlen] at hi
    have hwhy := mt (mem_nms_iff sorter boxes scores iouThr hi).mpr hdrop
    push Not at hwhy
    obtain ⟨k, hk, hlt, hover⟩ := hwhy
    exact ⟨k, hk, hover, sorter.score_le_of_idxOf_lt scores hi hlt⟩
  · have hagain := nms_perm_of_apart again (kept.map box) (kept.map score) iouThr ?_
    · rwa [List.length_map] at hagain
    · intro i hi j hj hne
      rw [List.length_map] at hi hj
      rw [List.getD_eq_getElem _ _ (by rwa [List.length_map]),
        List.getD_eq_getElem _ _ (by rwa [List.length_map]), List.getElem_map, List.getElem_map]
      refine iou_le_of_mem_nms sorter boxes scores iouThr (List.getElem_mem hi)
        (List.getElem_mem hj) fun heq => hne ?_
      exact ((nodup_nms sorter boxes scores iouThr).getElem_inj_iff).mp heq

end Survivors

/-- A chain of three boxes, each overlapping the next one. -/
theorem nms_greedy_chain :
    let boxes : List (BBox ℚ) := [⟨0, 0, 4, 4⟩, ⟨2, 0, 4, 4⟩, ⟨4, 0, 4, 4⟩]
    let scores : List ℚ := [3, 2, 1]
    let kept := nms stableSorter.order boxes scores (1 / 4)
    (1 / 4 < iou (boxes.getD 0 default) (boxes.getD 1 default) ∧
      iou (boxes.getD 0 default) (boxes.getD 2 default) ≤ 1 / 4) ∧
    ∀ i < boxes.length, i ∉ kept → ∃ k ∈ kept,
      1 / 4 < iou (boxes.getD k default) (boxes.getD i default) ∧
        scores.getD i 0 ≤ scores.getD k 0 := by
  intro boxes scores kept
  exact ⟨by decide +kernel, (nms_greedy stableSorter boxes scores (1 / 4) rfl).2.2.2.1⟩

end Ctrk
