import CustosTracker.Tbd.Association

set_option relaxedAutoImplicit false
set_option autoImplicit false

/-!
# What the gated association optimizes

`match_by_iou` gives pairs outside the gate a large cost and drops them afterwards.  As long as
that cost outweighs all pairs inside the gate together, the answer is a largest one-to-one set of
gate-passing pairs, and a cheapest one among these up to the zero tolerance of the solver.

## Main definitions

* `Ctrk.matchCost` — the total fused cost of a list of pairs.
* `Ctrk.poolPairs` — a list of pairs by the positions in the two pools.

## Main results

* `Ctrk.fusedCost_mem` — a pair inside the gate costs between `0` and `2`.
* `Ctrk.matchByIou_optimal` — largest, then cheapest.
-/

namespace Ctrk

open Matching

variable {R : Type} [Scalar R]

/-! ## Costs -/

/-- The total cost of a list of pairs: the overlap distance, fused with the appearance distance
where both sides have a descriptor. -/
def matchCost (trackBoxes : List (BBox R)) (dets : List (Detection R))
    (trackEmbs : Option (List (List R))) (appWeight : R) (ms : List (ℕ × ℕ)) : R :=
  (ms.map fun p => fusedCost trackEmbs appWeight p.1 (dets.getD p.2 default)
    (iou (trackBoxes.getD p.1 default) (dets.getD p.2 default).box)).sum

/-- A fused cost is between `0` and `2`.

**Proof sketch.** The geometric cost is between `0` and `1` and the appearance cost between `0`
and `2`; the fused cost is one of them or their weighted mean. -/
theorem fusedCost_mem [LawfulScalar R] {trackEmbs : Option (List (List R))} {appWeight : R}
    (hw0 : 0 ≤ appWeight) (hw1 : appWeight ≤ 1) (t : ℕ) (det : Detection R) {overlap : R}
    (h0 : 0 ≤ overlap) (h1 : overlap ≤ 1) :
    0 ≤ fusedCost trackEmbs appWeight t det overlap ∧
      fusedCost trackEmbs appWeight t det overlap ≤ 2 := by
  unfold fusedCost
  cases trackEmbs with
  | none => exact ⟨by linarith, by linarith⟩
  | some embs =>
    simp only
    split_ifs
    · have hcos := cosineSimilarity_mem (embs.getD t []) det.embedding
      generalize cosineSimilarity (embs.getD t []) det.embedding = cos at hcos
      obtain ⟨hcos0, hcos1⟩ := hcos
      constructor
      · have hgeometry : 0 ≤ (1 - appWeight) * (1 - overlap) :=
          mul_nonneg (by linarith) (by linarith)
        have happearance : 0 ≤ appWeight * (1 - cos) := mul_nonneg hw0 (by linarith)
        linarith
      · have hgeometry : (1 - appWeight) * (1 - overlap) ≤ (1 - appWeight) * 2 :=
          mul_le_mul_of_nonneg_left (by linarith) (by linarith)
        have happearance : appWeight * (1 - cos) ≤ appWeight * 2 :=
          mul_le_mul_of_nonneg_left (by linarith) hw0
        linarith
    · exact ⟨by linarith, by linarith⟩

/-- Inside the gate the cost of a pair is its fused cost. -/
theorem pairCost_of_gate {trackBoxes : List (BBox R)} {dets : List (Detection R)} {minIou : R}
    {trackEmbs : Option (List (List R))} {appWeight : R} {t d : ℕ}
    (h : minIou ≤ iou (trackBoxes.getD t default) (dets.getD d default).box) :
    pairCost trackBoxes dets minIou trackEmbs appWeight t d =
      fusedCost trackEmbs appWeight t (dets.getD d default)
        (iou (trackBoxes.getD t default) (dets.getD d default).box) := by
  rw [pairCost, if_neg (not_lt.mpr h)]

/-- Outside the gate the cost of a pair is the forbidden cost. -/
theorem pairCost_of_not_gate {trackBoxes : List (BBox R)} {dets : List (Detection R)} {minIou : R}
    {trackEmbs : Option (List (List R))} {appWeight : R} {t d : ℕ}
    (h : ¬minIou ≤ iou (trackBoxes.getD t default) (dets.getD d default).box) :
    pairCost trackBoxes dets minIou trackEmbs appWeight t d = kForbidden := by
  rw [pairCost, if_pos (not_le.mp h)]

/-! ## Lists of pairs by position -/

section Positions

variable {trackIds detIds : List ℕ}

/-- The pairs of a list, by their positions in the two pools. -/
def poolPairs (trackIds detIds : List ℕ) (ms : List (ℕ × ℕ)) :
    Finset (Fin trackIds.length × Fin detIds.length) :=
  Finset.univ.filter fun p => (trackIds.get p.1, detIds.get p.2) ∈ ms

theorem mem_poolPairs {ms : List (ℕ × ℕ)} {p : Fin trackIds.length × Fin detIds.length} :
    p ∈ poolPairs trackIds detIds ms ↔ (trackIds.get p.1, detIds.get p.2) ∈ ms := by
  rw [poolPairs, Finset.mem_filter, and_iff_right (Finset.mem_univ _)]

variable {trackBoxes : List (BBox R)} {dets : List (Detection R)} {minIou : R} {ms : List (ℕ × ℕ)}

/-- Sums over a legal list of pairs, by position. -/
theorem LegalMatches.sum_eq {A : Type} [AddCommMonoid A]
    (h : LegalMatches trackBoxes trackIds dets detIds minIou ms)
    (hT : trackIds.Nodup) (hD : detIds.Nodup) (cost : ℕ × ℕ → A) :
    (ms.map cost).sum =
      ∑ p ∈ poolPairs trackIds detIds ms, cost (trackIds.get p.1, detIds.get p.2) := by
  rw [← List.sum_toFinset cost (List.Nodup.of_map _ h.nodup_fst)]
  symm
  refine Finset.sum_nbij (fun p => (trackIds.get p.1, detIds.get p.2)) ?_ ?_ ?_ fun _ _ => rfl
  · intro p hp
    exact List.mem_toFinset.mpr (mem_poolPairs.mp hp)
  · intro p _ q _ hpq
    obtain ⟨h1, h2⟩ := Prod.mk.inj hpq
    exact Prod.ext (hT.injective_get h1) (hD.injective_get h2)
  · intro q hq
    have hq' : q ∈ ms := List.mem_toFinset.mp hq
    obtain ⟨i, hi⟩ := List.get_of_mem (h.fst_mem q hq')
    obtain ⟨j, hj⟩ := List.get_of_mem (h.snd_mem q hq')
    have hpair : (trackIds.get i, detIds.get j) = q := Prod.ext hi hj
    exact ⟨(i, j), mem_poolPairs.mpr (hpair.symm ▸ hq'), hpair⟩

/-- A legal list of pairs has as many positions as pairs. -/
theorem LegalMatches.card_eq (h : LegalMatches trackBoxes trackIds dets detIds minIou ms)
    (hT : trackIds.Nodup) (hD : detIds.Nodup) : (poolPairs trackIds detIds ms).card = ms.length := by
  have hsum := h.sum_eq hT hD fun _ => 1
  simpa using hsum.symm

/-- The positions of a legal list are one-to-one. -/
theorem LegalMatches.pairsMatch (h : LegalMatches trackBoxes trackIds dets detIds minIou ms)
    (hT : trackIds.Nodup) (hD : detIds.Nodup) : PairsMatch (poolPairs trackIds detIds ms) where
  rows {p q} hp hq hpq := by
    have heq := List.inj_on_of_nodup_map h.nodup_fst (mem_poolPairs.mp hp) (mem_poolPairs.mp hq)
      (congrArg trackIds.get hpq)
    obtain ⟨h1, h2⟩ := Prod.mk.inj heq
    exact Prod.ext (hT.injective_get h1) (hD.injective_get h2)
  cols {p q} hp hq hpq := by
    have heq := List.inj_on_of_nodup_map h.nodup_snd (mem_poolPairs.mp hp) (mem_poolPairs.mp hq)
      (congrArg detIds.get hpq)
    obtain ⟨h1, h2⟩ := Prod.mk.inj heq
    exact Prod.ext (hT.injective_get h1) (hD.injective_get h2)

/-- A pair of positions in a legal list passes the gate. -/
theorem LegalMatches.gate_of_mem (h : LegalMatches trackBoxes trackIds dets detIds minIou ms)
    {p : Fin trackIds.length × Fin detIds.length} (hp : p ∈ poolPairs trackIds detIds ms) :
    minIou ≤ iou (trackBoxes.getD (trackIds.get p.1) default)
      (dets.getD (detIds.get p.2) default).box :=
  h.gate _ (mem_poolPairs.mp hp)

end Positions

/-! ## Optimality -/

section Optimal

variable [LawfulScalar R] {trackBoxes : List (BBox R)} {trackIds : List ℕ}
  {dets : List (Detection R)} {detIds : List ℕ} {minIou : R} {trackEmbs : Option (List (List R))}
  {appWeight : R}

/-- The pools are small enough for the forbidden cost to outweigh all allowed pairs. -/
def ForbiddenDominates (R : Type) [Scalar R] (tracks dets : ℕ) : Prop :=
  2 * (min tracks dets : ℕ) + kZeroEps * (max tracks dets : ℕ) < (kForbidden : R)

omit [LawfulScalar R] in
/-- A legal list costs the sum over its positions. -/
theorem LegalMatches.matchCost_eq {ms : List (ℕ × ℕ)}
    (h : LegalMatches trackBoxes trackIds dets detIds minIou ms) (hT : trackIds.Nodup)
    (hD : detIds.Nodup) : matchCost trackBoxes dets trackEmbs appWeight ms =
      ∑ p ∈ poolPairs trackIds detIds ms,
        costMatrix trackBoxes trackIds dets detIds minIou trackEmbs appWeight p.1 p.2 := by
  rw [matchCost, h.sum_eq hT hD]
  refine Finset.sum_congr rfl fun p hp => ?_
  exact (pairCost_of_gate (h.gate_of_mem hp)).symm

/-- **Largest, then cheapest.** On pools without repetitions that the forbidden cost dominates, the
matches are as many as any legal list has, and no legal list of that many pairs is cheaper by more
than `kZeroEps` per index of the larger pool.

**Proof sketch.** The solver minimizes the padded cost up to its tolerance.  A forbidden cell
costs more than all allowed cells of a list together, so fewer pairs inside the gate would cost
more, and between equally many pairs the forbidden cells cancel.  The abstract argument is that
of the library on forbidden cells. -/
theorem matchByIou_lex (hT : trackIds.Nodup) (hD : detIds.Nodup) (hw0 : 0 ≤ appWeight)
    (hw1 : appWeight ≤ 1) (hsize : ForbiddenDominates R trackIds.length detIds.length)
    {ns : List (ℕ × ℕ)} (hns : LegalMatches trackBoxes trackIds dets detIds minIou ns) :
    ns.length ≤ (matchByIou trackBoxes trackIds dets detIds minIou trackEmbs appWeight).length ∧
    (ns.length = (matchByIou trackBoxes trackIds dets detIds minIou trackEmbs appWeight).length →
      matchCost trackBoxes dets trackEmbs appWeight
          (matchByIou trackBoxes trackIds dets detIds minIou trackEmbs appWeight) ≤
        matchCost trackBoxes dets trackEmbs appWeight ns +
          kZeroEps * (max trackIds.length detIds.length : ℕ)) := by
  have heps : (0 : R) ≤ kZeroEps * (max trackIds.length detIds.length : ℕ) :=
    mul_nonneg (by norm_num [kZeroEps]) (Nat.cast_nonneg _)
  by_cases hempty : trackIds.length = 0 ∨ detIds.length = 0
  · -- a pool is empty, and with it every legal list
    have hnil : ns = [] := by
      refine List.eq_nil_iff_forall_not_mem.mpr fun p hp => ?_
      rcases hempty with h0 | h0
      · exact absurd (hns.fst_mem p hp) (by simp [List.length_eq_zero_iff.mp h0])
      · exact absurd (hns.snd_mem p hp) (by simp [List.length_eq_zero_iff.mp h0])
    have hmatch : matchByIou trackBoxes trackIds dets detIds minIou trackEmbs appWeight = [] := by
      rw [matchByIou, if_pos]
      rcases hempty with h0 | h0
      · simp [List.length_eq_zero_iff.mp h0]
      · simp [List.length_eq_zero_iff.mp h0]
    rw [hnil, hmatch]
    exact ⟨le_rfl, fun _ => by linarith⟩
  · rw [not_or] at hempty
    have hms := matchByIou_legal trackBoxes trackIds dets detIds minIou trackEmbs appWeight hT hD
    obtain ⟨σ, hassigned, hbest⟩ := munkresSolve_near_optimal hempty.1 hempty.2
      (costMatrix trackBoxes trackIds dets detIds minIou trackEmbs appWeight)
    -- the pairs inside the gate are the allowed ones
    let allowed : Fin trackIds.length → Fin detIds.length → Prop := fun i j =>
      minIou ≤ iou (trackBoxes.getD (trackIds.get i) default)
        (dets.getD (detIds.get j) default).box
    have hforbidden : ∀ i j, ¬allowed i j →
        costMatrix trackBoxes trackIds dets detIds minIou trackEmbs appWeight i j = kForbidden :=
      fun i j h => pairCost_of_not_gate h
    have hallowed : ∀ i j, allowed i j →
        0 ≤ costMatrix trackBoxes trackIds dets detIds minIou trackEmbs appWeight i j ∧
          costMatrix trackBoxes trackIds dets detIds minIou trackEmbs appWeight i j ≤ 2 := by
      intro i j h
      rw [costMatrix, pairCost_of_gate h]
      have hiou := iou_mem_unit (trackBoxes.getD (trackIds.get i) default)
        (dets.getD (detIds.get j) default).box
      exact fusedCost_mem hw0 hw1 _ _ hiou.1 hiou.2
    have htwo : (2 : R) < kForbidden := by norm_num [kForbidden]
    have hle : ∀ i j,
        costMatrix trackBoxes trackIds dets detIds minIou trackEmbs appWeight i j ≤ kForbidden := by
      intro i j
      by_cases h : allowed i j
      · exact (hallowed i j h).2.trans htwo.le
      · exact (hforbidden i j h).le
    have hbest' : ∀ τ : Equiv.Perm (Fin (max trackIds.length detIds.length)),
        ∑ i, padded (costMatrix trackBoxes trackIds dets detIds minIou trackEmbs appWeight) i (σ i) ≤
          ∑ i,
            padded (costMatrix trackBoxes trackIds dets detIds minIou trackEmbs appWeight) i (τ i) +
            kZeroEps * (max trackIds.length detIds.length : ℕ) := by
      intro τ
      rw [mul_comm]
      exact (hbest τ).le
    -- the matches are the allowed cells of the solver
    have hcells : (cellsOf (rowEmb trackIds.length detIds.length)
        (colEmb trackIds.length detIds.length) σ).filter (fun p => allowed p.1 p.2) =
        poolPairs trackIds detIds
          (matchByIou trackBoxes trackIds dets detIds minIou trackEmbs appWeight) := by
      ext p
      rw [Finset.mem_filter, ← hassigned, mem_poolPairs, mem_matchByIou]
      constructor
      · rintro ⟨hstar, hgate⟩
        exact ⟨p.1, p.2, hstar, (hallowed _ _ hgate).2.trans_lt htwo, rfl⟩
      · rintro ⟨i, j, hstar, hcost, hp⟩
        obtain ⟨h1, h2⟩ := Prod.mk.inj hp
        rw [hT.injective_get h1, hD.injective_get h2]
        exact ⟨hstar, minIou_le_of_pairCost_lt hcost⟩
    have hsurj := rowEmb_or_colEmb_surjective trackIds.length detIds.length
    have hpads := pads_padded (costMatrix trackBoxes trackIds dets detIds minIou trackEmbs appWeight)
    rw [← hns.card_eq hT hD, ← hms.card_eq hT hD, hms.matchCost_eq hT hD, hns.matchCost_eq hT hD,
      ← hcells]
    constructor
    · refine card_le_of_forbidden hsurj hpads hforbidden hle hallowed zero_le_two ?_ hbest'
        (hns.pairsMatch hT hD) (fun p hp => hns.gate_of_mem hp) heps
      rw [Fintype.card_fin, Fintype.card_fin]
      exact hsize
    · exact cost_le_of_forbidden hsurj hpads hforbidden hle hbest' (hns.pairsMatch hT hD)

omit [LawfulScalar R] in
/-- Which lists are legal depends on the boxes of the detections only. -/
theorem LegalMatches.congr_boxes {dets' : List (Detection R)}
    (hbox : ∀ d ∈ detIds, (dets'.getD d default).box = (dets.getD d default).box)
    {ms : List (ℕ × ℕ)} (h : LegalMatches trackBoxes trackIds dets detIds minIou ms) :
    LegalMatches trackBoxes trackIds dets' detIds minIou ms where
  fst_mem := h.fst_mem
  snd_mem := h.snd_mem
  nodup_fst := h.nodup_fst
  nodup_snd := h.nodup_snd
  gate p hp := by
    rw [hbox p.2 (h.snd_mem p hp)]
    exact h.gate p hp

/-- **The gated association is lexicographically optimal.** The matches are one-to-one and inside
the gate; no legal list has more pairs; no legal list of as many pairs is cheaper by more than
`kZeroEps` per index of the larger pool; and descriptors and weight do not change their number.

**Proof sketch.** The first three clauses are `matchByIou_legal` and `matchByIou_lex`.  The gate
looks at the boxes only, so each of the two answers is legal for the other call, and each is the
longest for its own. -/
theorem matchByIou_optimal (trackBoxes : List (BBox R)) (trackIds : List ℕ)
    (dets : List (Detection R)) (detIds : List ℕ) (minIou : R) (trackEmbs : Option (List (List R)))
    (appWeight : R) (hT : trackIds.Nodup) (hD : detIds.Nodup) (hw0 : 0 ≤ appWeight)
    (hw1 : appWeight ≤ 1)
    (hsize : 2 * (min trackIds.length detIds.length : ℕ) +
      1e-9 * (max trackIds.length detIds.length : ℕ) < (1e6 : R)) :
    let ms := matchByIou trackBoxes trackIds dets detIds minIou trackEmbs appWeight
    LegalMatches trackBoxes trackIds dets detIds minIou ms ∧
    (∀ ns, LegalMatches trackBoxes trackIds dets detIds minIou ns → ns.length ≤ ms.length) ∧
    (∀ ns, LegalMatches trackBoxes trackIds dets detIds minIou ns → ns.length = ms.length →
      matchCost trackBoxes dets trackEmbs appWeight ms ≤
        matchCost trackBoxes dets trackEmbs appWeight ns +
          1e-9 * (max trackIds.length detIds.length : ℕ)) ∧
    ∀ (dets' : List (Detection R)) (trackEmbs' : Option (List (List R))) (appWeight' : R),
      0 ≤ appWeight' → appWeight' ≤ 1 →
      (∀ d ∈ detIds, (dets'.getD d default).box = (dets.getD d default).box) →
      (matchByIou trackBoxes trackIds dets' detIds minIou trackEmbs' appWeight').length =
        ms.length := by
  intro ms
  have heps : (kZeroEps : R) = 1e-9 := by norm_num [kZeroEps]
  have hforbidden : (kForbidden : R) = 1e6 := by norm_num [kForbidden]
  rw [← heps, ← hforbidden] at hsize
  rw [← heps]
  have hlegal := matchByIou_legal trackBoxes trackIds dets detIds minIou trackEmbs appWeight hT hD
  refine ⟨hlegal, fun ns hns => (matchByIou_lex hT hD hw0 hw1 hsize hns).1,
    fun ns hns => (matchByIou_lex hT hD hw0 hw1 hsize hns).2, ?_⟩
  intro dets' trackEmbs' appWeight' hw0' hw1' hbox
  have hlegal' :=
    matchByIou_legal trackBoxes trackIds dets' detIds minIou trackEmbs' appWeight' hT hD
  -- either answer is legal for the other call
  refine le_antisymm ?_ ?_
  · exact (matchByIou_lex hT hD hw0 hw1 hsize
      (hlegal'.congr_boxes fun d hd => (hbox d hd).symm)).1
  · exact (matchByIou_lex hT hD hw0' hw1' hsize (hlegal.congr_boxes hbox)).1

end Optimal

/-- Two tracks contend for the first detection, which lies closer to the second track; the first
track has no other detection inside the gate.  Both detections are matched, at no more than the cost
of the one list that matches both. -/
theorem matchByIou_optimal_contested :
    let tracks : List (BBox ℝ) := [⟨0, 0, 10, 20⟩, ⟨4, 0, 10, 20⟩]
    let dets : List (Detection ℝ) :=
      [⟨⟨3, 0, 10, 20⟩, 9 / 10, 0, [1, 0]⟩, ⟨⟨7, 0, 10, 20⟩, 8 / 10, 0, []⟩]
    let embs : Option (List (List ℝ)) := some [[0, 1], [1, 0]]
    let ms := matchByIou tracks [0, 1] dets [0, 1] (3 / 10) embs (1 / 4)
    (iou ⟨0, 0, 10, 20⟩ ⟨3, 0, 10, 20⟩ < iou (⟨4, 0, 10, 20⟩ : BBox ℝ) ⟨3, 0, 10, 20⟩ ∧
      iou (⟨0, 0, 10, 20⟩ : BBox ℝ) ⟨7, 0, 10, 20⟩ < 3 / 10) ∧
    ms.length = 2 ∧
      matchCost tracks dets embs (1 / 4) ms ≤
        matchCost tracks dets embs (1 / 4) [(0, 0), (1, 1)] + 1e-9 * 2 := by
  intro tracks dets embs ms
  have hnear : iou (⟨0, 0, 10, 20⟩ : BBox ℝ) ⟨3, 0, 10, 20⟩ = 7 / 13 := by
    norm_num [iou, BBox.area]
  have hsecond : iou (⟨4, 0, 10, 20⟩ : BBox ℝ) ⟨7, 0, 10, 20⟩ = 7 / 13 := by
    norm_num [iou, BBox.area]
  have hclose : iou (⟨4, 0, 10, 20⟩ : BBox ℝ) ⟨3, 0, 10, 20⟩ = 9 / 11 := by
    norm_num [iou, BBox.area]
  have hfar : iou (⟨0, 0, 10, 20⟩ : BBox ℝ) ⟨7, 0, 10, 20⟩ = 3 / 17 := by
    norm_num [iou, BBox.area]
  have hboth : LegalMatches tracks [0, 1] dets [0, 1] (3 / 10) [(0, 0), (1, 1)] := by
    refine ⟨by simp, by simp, by simp, by simp, fun p hp => ?_⟩
    rcases List.mem_cons.mp hp with rfl | hp
    · exact (by norm_num : (3 / 10 : ℝ) ≤ 7 / 13).trans hnear.ge
    · rw [List.mem_singleton.mp hp]
      exact (by norm_num : (3 / 10 : ℝ) ≤ 7 / 13).trans hsecond.ge
  obtain ⟨hlegal, hmost, hcheap, -⟩ := matchByIou_optimal tracks [0, 1] dets [0, 1] (3 / 10 : ℝ)
    embs (1 / 4) (by simp) (by simp) (by norm_num) (by norm_num) (by norm_num)
  have hlen : ms.length = 2 := by
    refine le_antisymm ?_ (hmost _ hboth)
    have hsub : ms.map Prod.fst ⊆ [0, 1] := by
      intro t ht
      obtain ⟨p, hp, rfl⟩ := List.mem_map.mp ht
      exact hlegal.fst_mem p hp
    have hle := (hlegal.nodup_fst.subperm hsub).length_le
    rwa [List.length_map] at hle
  refine ⟨⟨by rw [hnear, hclose]; norm_num, by rw [hfar]; norm_num⟩, hlen, ?_⟩
  exact_mod_cast hcheap _ hboth (by rw [hlen]; rfl)

end Ctrk
