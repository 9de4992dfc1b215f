import CustosTracker.Common.Kalman
import CustosTracker.Common.Munkres.Rectangular

set_option relaxedAutoImplicit false
set_option autoImplicit false

/-!
# IoU-gated association

`match_by_iou` and `remove_matched` of `core/src/tbd/byte_tracker.cpp`, and what the tracker
may rely on: an association answers one-to-one pairs from the two index pools, each passing the
gate.  `Matcher` carries this promise with the function, and `iouMatcher` shows that the
source's gated Munkres keeps it.

## Main definitions

* `Ctrk.matchByIou`, `Ctrk.removeMatched`.
* `Ctrk.LegalMatches`, `Ctrk.Matcher` — the promise; `Ctrk.iouMatcher` — the source's matcher.

## Main results

* `Ctrk.matchByIou_legal` — the source's matcher keeps the promise.
* `Ctrk.mem_matchByIou_of_unambiguous` — when all pairs are either free or forbidden and the
  free ones are one-to-one, exactly the free pairs are matched.
-/

namespace Ctrk

open Matching

variable {R : Type} [Scalar R]

/-! ## Gated matching -/

/-- The cost of a pair outside the gate. -/
def kForbidden : R := 10 ^ 6

/-- The cost of a pair inside the gate: `1 - IoU`, blended with the appearance distance when a
weight is given and both sides carry a descriptor. -/
def fusedCost (trackEmbs : Option (List (List R))) (appWeight : R) (t : ℕ) (det : Detection R)
    (overlap : R) : R :=
  let c := 1 - overlap
  match trackEmbs with
  | none => c
  | some embs =>
    let emb := embs.getD t []
    if 0 < appWeight ∧ det.embedding.isEmpty = false ∧ emb.isEmpty = false then
      (1 - appWeight) * c + appWeight * (1 - cosineSimilarity emb det.embedding)
    else c

/-- One entry of the cost matrix of `match_by_iou`. -/
def pairCost (trackBoxes : List (BBox R)) (dets : List (Detection R)) (minIou : R)
    (trackEmbs : Option (List (List R))) (appWeight : R) (t d : ℕ) : R :=
  let det := dets.getD d default
  let overlap := iou (trackBoxes.getD t default) det.box
  if overlap < minIou then kForbidden else fusedCost trackEmbs appWeight t det overlap

/-- The cost matrix of `match_by_iou`. -/
def costMatrix (trackBoxes : List (BBox R)) (trackIds : List ℕ) (dets : List (Detection R))
    (detIds : List ℕ) (minIou : R) (trackEmbs : Option (List (List R))) (appWeight : R)
    (i : Fin trackIds.length) (j : Fin detIds.length) : R :=
  pairCost trackBoxes dets minIou trackEmbs appWeight (trackIds.get i) (detIds.get j)

/-- `match_by_iou`: IoU-gated Munkres on two index pools. -/
def matchByIou (trackBoxes : List (BBox R)) (trackIds : List ℕ) (dets : List (Detection R))
    (detIds : List ℕ) (minIou : R) (trackEmbs : Option (List (List R))) (appWeight : R) :
    List (ℕ × ℕ) :=
  if trackIds.isEmpty || detIds.isEmpty then []
  else
    let cost := costMatrix trackBoxes trackIds dets detIds minIou trackEmbs appWeight
    let assignment := munkresSolve cost
    (List.finRange trackIds.length).filterMap fun i =>
      (assignment i).bind fun j =>
        if cost i j < kForbidden then some (trackIds.get i, detIds.get j) else none

/-- `remove_matched`: the indices of the pool that no match uses on the given side. -/
def removeMatched (pool : List ℕ) (ms : List (ℕ × ℕ)) (first : Bool) : List ℕ :=
  pool.filter fun idx => !ms.any fun m => (if first then m.1 else m.2) == idx

/-- What remains on the track side. -/
theorem mem_removeMatched_fst {pool : List ℕ} {ms : List (ℕ × ℕ)} {i : ℕ} :
    i ∈ removeMatched pool ms true ↔ i ∈ pool ∧ i ∉ ms.map Prod.fst := by
  simp only [removeMatched, List.mem_filter, ↓reduceIte, Bool.not_eq_true', List.any_eq_false,
    beq_iff_eq, List.mem_map, not_exists, not_and]

/-- What remains on the detection side. -/
theorem mem_removeMatched_snd {pool : List ℕ} {ms : List (ℕ × ℕ)} {j : ℕ} :
    j ∈ removeMatched pool ms false ↔ j ∈ pool ∧ j ∉ ms.map Prod.snd := by
  simp only [removeMatched, List.mem_filter, Bool.false_eq_true, ↓reduceIte, Bool.not_eq_true',
    List.any_eq_false, beq_iff_eq, List.mem_map, not_exists, not_and]

/-! ## What an association promises -/

/-- One-to-one pairs from the two pools, each passing the gate. -/
structure LegalMatches (trackBoxes : List (BBox R)) (trackIds : List ℕ)
    (dets : List (Detection R)) (detIds : List ℕ) (minIou : R) (ms : List (ℕ × ℕ)) : Prop where
  fst_mem : ∀ p ∈ ms, p.1 ∈ trackIds
  snd_mem : ∀ p ∈ ms, p.2 ∈ detIds
  nodup_fst : (ms.map Prod.fst).Nodup
  nodup_snd : (ms.map Prod.snd).Nodup
  gate : ∀ p ∈ ms,
    minIou ≤ iou (trackBoxes.getD p.1 default) (dets.getD p.2 default).box

/-- No pairs are always legal. -/
theorem LegalMatches.nil {trackBoxes : List (BBox R)} {trackIds : List ℕ}
    {dets : List (Detection R)} {detIds : List ℕ} {minIou : R} :
    LegalMatches trackBoxes trackIds dets detIds minIou [] :=
  ⟨by simp, by simp, by simp, by simp, by simp⟩

/-- An association procedure, with the promise that its pairs are legal on pools without
repetitions. -/
structure Matcher (R : Type) [Scalar R] where
  /-- The procedure, with the arguments of `match_by_iou`. -/
  run : List (BBox R) → List ℕ → List (Detection R) → List ℕ → R → Option (List (List R)) → R →
    List (ℕ × ℕ)
  legal : ∀ trackBoxes trackIds dets detIds minIou trackEmbs appWeight,
    trackIds.Nodup → detIds.Nodup →
    LegalMatches trackBoxes trackIds dets detIds minIou
      (run trackBoxes trackIds dets detIds minIou trackEmbs appWeight)

/-- Which pairs `match_by_iou` returns: the assigned cells below the forbidden cost.

**Proof sketch.** If a pool is empty neither side holds.  Otherwise the list runs over the rows,
and keeps a row with a star whose cost is below the forbidden one. -/
theorem mem_matchByIou {trackBoxes : List (BBox R)} {trackIds : List ℕ}
    {dets : List (Detection R)} {detIds : List ℕ} {minIou : R}
    {trackEmbs : Option (List (List R))} {appWeight : R} {p : ℕ × ℕ} :
    p ∈ matchByIou trackBoxes trackIds dets detIds minIou trackEmbs appWeight ↔
      ∃ (i : Fin trackIds.length) (j : Fin detIds.length),
        munkresSolve (costMatrix trackBoxes trackIds dets detIds minIou trackEmbs appWeight) i =
          some j ∧
        pairCost trackBoxes dets minIou trackEmbs appWeight (trackIds.get i) (detIds.get j) <
          kForbidden ∧ p = (trackIds.get i, detIds.get j) := by
  unfold matchByIou
  split_ifs with hempty
  · simp only [List.not_mem_nil, false_iff, not_exists]
    rintro i j ⟨-, -, -⟩
    rcases Bool.or_eq_true_iff.mp hempty with h | h
    · exact absurd i.isLt (by simp [List.isEmpty_iff.mp h])
    · exact absurd j.isLt (by simp [List.isEmpty_iff.mp h])
  · simp only [List.mem_filterMap, List.mem_finRange, true_and, Option.bind_eq_some_iff,
      Option.ite_none_right_eq_some, Option.some.injEq]
    constructor
    · rintro ⟨i, j, h1, h2, h3⟩
      exact ⟨i, j, h1, h2, h3.symm⟩
    · rintro ⟨i, j, h1, h2, h3⟩
      exact ⟨i, j, h1, h2, h3.symm⟩

/-- Outside the gate the cost is forbidden, so a matched pair passes the gate. -/
theorem minIou_le_of_pairCost_lt {trackBoxes : List (BBox R)} {dets : List (Detection R)}
    {minIou : R} {trackEmbs : Option (List (List R))} {appWeight : R} {t d : ℕ}
    (h : pairCost trackBoxes dets minIou trackEmbs appWeight t d < kForbidden) :
    minIou ≤ iou (trackBoxes.getD t default) (dets.getD d default).box := by
  by_contra hlt
  simp only [pairCost, if_pos (not_le.mp hlt), lt_self_iff_false] at h

/-- The track indices of the matches appear in the order of the pool.

**Proof sketch.** The loop over the rows yields for each row at most one pair, which begins with
the track of that row; the rows run through the pool in order. -/
theorem matchByIou_fst_sublist (trackBoxes : List (BBox R)) (trackIds : List ℕ)
    (dets : List (Detection R)) (detIds : List ℕ) (minIou : R)
    (trackEmbs : Option (List (List R))) (appWeight : R) :
    ((matchByIou trackBoxes trackIds dets detIds minIou trackEmbs appWeight).map
      Prod.fst).Sublist trackIds := by
  have key : ∀ (l : List (Fin trackIds.length)) (f : Fin trackIds.length → Option (ℕ × ℕ)),
      (∀ i p, f i = some p → p.1 = trackIds.get i) →
      ((l.filterMap f).map Prod.fst).Sublist (l.map trackIds.get) := by
    intro l f hf
    induction l with
    | nil => exact List.Sublist.refl _
    | cons i l ih =>
      cases hfi : f i with
      | none => rw [List.filterMap_cons_none hfi]; exact ih.cons _
      | some p =>
        rw [List.filterMap_cons_some hfi, List.map_cons, List.map_cons, hf i p hfi]
        exact ih.cons_cons _
  unfold matchByIou
  split_ifs
  · exact List.nil_sublist _
  · have hget : (List.finRange trackIds.length).map trackIds.get = trackIds := by
      rw [← List.ofFn_eq_map, List.ofFn_get]
    refine (key _ _ fun i p hp => ?_).trans (by rw [hget])
    obtain ⟨j, -, hj⟩ := Option.bind_eq_some_iff.mp hp
    obtain ⟨-, hj⟩ := Option.ite_none_right_eq_some.mp hj
    rw [← Option.some.inj hj]

variable [IsStrictOrderedRing R]

/-- **`match_by_iou` keeps the promise**: its pairs are one-to-one, drawn from the two pools,
and pass the gate.

**Proof sketch.** Track indices do not repeat because they come in the order of the pool.  If two
pairs share a detection, both rows are starred in the same column, so they are the same row. -/
theorem matchByIou_legal (trackBoxes : List (BBox R)) (trackIds : List ℕ)
    (dets : List (Detection R)) (detIds : List ℕ) (minIou : R)
    (trackEmbs : Option (List (List R))) (appWeight : R) (hT : trackIds.Nodup)
    (hD : detIds.Nodup) :
    LegalMatches trackBoxes trackIds dets detIds minIou
      (matchByIou trackBoxes trackIds dets detIds minIou trackEmbs appWeight) := by
  have hfst := hT.sublist
    (matchByIou_fst_sublist trackBoxes trackIds dets detIds minIou trackEmbs appWeight)
  refine ⟨fun p hp => ?_, fun p hp => ?_, hfst, ?_, fun p hp => ?_⟩
  · obtain ⟨i, j, -, -, rfl⟩ := mem_matchByIou.mp hp
    exact List.get_mem _ _
  · obtain ⟨i, j, -, -, rfl⟩ := mem_matchByIou.mp hp
    exact List.get_mem _ _
  · refine (List.Nodup.of_map _ hfst).map_on fun p hp q hq hpq => ?_
    obtain ⟨i, j, hij, -, rfl⟩ := mem_matchByIou.mp hp
    obtain ⟨i', j', hij', -, rfl⟩ := mem_matchByIou.mp hq
    -- equal detections sit at the same place of the pool
    obtain rfl : j = j' := hD.injective_get hpq
    rw [munkresSolve_injective _ hij hij']
  · obtain ⟨i, j, -, hcost, rfl⟩ := mem_matchByIou.mp hp
    exact minIou_le_of_pairCost_lt hcost

/-- The matcher of the source. -/
def iouMatcher : Matcher R := ⟨matchByIou, matchByIou_legal⟩

/-! ## Unambiguous matchings -/

/-- A forbidden cost outweighs the slack of the solver. -/
theorem two_kZeroEps_lt_kForbidden : 2 * (kZeroEps : R) < kForbidden := by
  norm_num [kZeroEps, kForbidden]

/-- **Isolated free cells are assigned.**  If a cell costs nothing, the other cells of its row
and column cost `F`, no cell costs more, and `F` exceeds twice the tolerance, then the solver
assigns that cell.

**Proof sketch.** Suppose the certified matching gives row `i` another column `j'` and column
`j` another row `i'`.  At most one of `i'`, `j'` is a dummy.  Swapping the two columns saves
the costs of `(i, j')` and `(i', j)` for that of `(i', j')`: two `F` for at most one if both
are real, one `F` for nothing if one is a dummy.  This contradicts `NearTight.exchange`. -/
theorem munkresSolve_of_isolated {rows cols : ℕ} {cost : Fin rows → Fin cols → R} {F : R}
    (hF : 2 * kZeroEps < F) {i : Fin rows} {j : Fin cols} (hzero : cost i j = 0)
    (hrow : ∀ j', j' ≠ j → cost i j' = F) (hcol : ∀ i', i' ≠ i → cost i' j = F)
    (hle : ∀ i' j', cost i' j' ≤ F) : munkresSolve cost i = some j := by
  have hr : rows ≠ 0 := fun h0 => (h0 ▸ i).elim0
  have hc : cols ≠ 0 := fun h0 => (h0 ▸ j).elim0
  obtain ⟨star, hM, hall, htight, hstar⟩ := munkresSolve_spec hr hc cost
  rw [hstar]
  obtain ⟨j', hj'⟩ := hM.all_rows_of_all_cols hall (i.castLE (le_max_left _ _))
  obtain ⟨i', hi'⟩ := hall (j.castLE (le_max_right _ _))
  by_cases hjj : j' = j.castLE (le_max_right _ _)
  · exact hjj ▸ hj'
  exfalso
  have hii : i' ≠ i.castLE (le_max_left _ _) := by
    rintro rfl
    exact hjj (hM.row hj' hi')
  have hex := htight.exchange hj' hi'
  rw [padded_castLE, hzero] at hex
  -- the cells off the free one, in its row and in its column
  have hright : j'.val < cols → padded cost (i.castLE (le_max_left _ _)) j' = F := by
    intro h
    have hcell := padded_castLE cost i ⟨j', h⟩
    exact hcell.trans (hrow _ fun he => hjj (Fin.ext (by simp [← he])))
  have hdown : i'.val < rows → padded cost i' (j.castLE (le_max_right _ _)) = F := by
    intro h
    have hcell := padded_castLE cost ⟨i', h⟩ j
    exact hcell.trans (hcol _ fun he => hii (Fin.ext (by simp [← he])))
  have hdummy : ∀ a b, ¬(a.val < rows ∧ b.val < cols) → padded cost a b = 0 := fun a b h => by
    rw [padded, dif_neg h]
  by_cases hi : i'.val < rows
  · rw [hdown hi] at hex
    by_cases hj : j'.val < cols
    · have hcorner : padded cost i' j' ≤ F := by
        rw [padded, dif_pos ⟨hi, hj⟩]
        exact hle _ _
      rw [hright hj] at hex
      linarith
    · rw [hdummy _ _ (by simp [hj]), hdummy _ _ (by simp [hj])] at hex
      linarith
  · -- a dummy row means there are more columns than rows, so the column is real
    have hj : j'.val < cols := by
      have h1 := i'.isLt
      have h2 := j'.isLt
      omega
    rw [hright hj, hdummy _ _ (by simp [hi]), hdummy _ _ (by simp [hi])] at hex
    linarith

/-- **Unambiguous scenes.**  Let every pair of the pools cost either nothing or the forbidden
cost, the free pairs being one-to-one.  Then `match_by_iou` returns exactly the free pairs.

**Proof sketch.** A matched pair costs less than the forbidden cost, so it is free.  A free pair
is alone at no cost in its row and its column, and the solver stars such a cell. -/
theorem mem_matchByIou_of_unambiguous {trackBoxes : List (BBox R)} {trackIds : List ℕ}
    {dets : List (Detection R)} {detIds : List ℕ} {minIou : R}
    {trackEmbs : Option (List (List R))} {appWeight : R} (hT : trackIds.Nodup) (hD : detIds.Nodup)
    {same : ℕ → ℕ → Prop}
    (hsame : ∀ t ∈ trackIds, ∀ d ∈ detIds, same t d →
      pairCost trackBoxes dets minIou trackEmbs appWeight t d = 0)
    (hother : ∀ t ∈ trackIds, ∀ d ∈ detIds, ¬same t d →
      pairCost trackBoxes dets minIou trackEmbs appWeight t d = kForbidden)
    (hfst : ∀ {t d d'}, same t d → same t d' → d = d')
    (hsnd : ∀ {t t' d}, same t d → same t' d → t = t') {t d : ℕ} :
    (t, d) ∈ matchByIou trackBoxes trackIds dets detIds minIou trackEmbs appWeight ↔
      t ∈ trackIds ∧ d ∈ detIds ∧ same t d := by
  have hFpos : (0 : R) < kForbidden := by norm_num [kForbidden]
  rw [mem_matchByIou]
  constructor
  · rintro ⟨i, j, -, hcost, hp⟩
    obtain ⟨rfl, rfl⟩ := Prod.mk.inj hp
    refine ⟨List.get_mem _ _, List.get_mem _ _, ?_⟩
    by_contra hnot
    rw [hother _ (List.get_mem _ _) _ (List.get_mem _ _) hnot] at hcost
    exact lt_irrefl _ hcost
  · rintro ⟨ht, hd, htd⟩
    obtain ⟨i, rfl⟩ := List.get_of_mem ht
    obtain ⟨j, rfl⟩ := List.get_of_mem hd
    have hzero := hsame _ ht _ hd htd
    refine ⟨i, j, munkresSolve_of_isolated two_kZeroEps_lt_kForbidden hzero (fun j' hj' => ?_)
      (fun i' hi' => ?_) (fun i' j' => ?_), by rw [hzero]; exact hFpos, rfl⟩
    · exact hother _ ht _ (List.get_mem _ _) fun hs => hj' (hD.injective_get (hfst htd hs)).symm
    · exact hother _ (List.get_mem _ _) _ hd fun hs => hi' (hT.injective_get (hsnd htd hs)).symm
    · by_cases hs : same (trackIds.get i') (detIds.get j')
      · exact (hsame _ (List.get_mem _ _) _ (List.get_mem _ _) hs).trans_le hFpos.le
      · exact (hother _ (List.get_mem _ _) _ (List.get_mem _ _) hs).le

end Ctrk
