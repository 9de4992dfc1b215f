import CustosTracker.Tbd.Step

set_option relaxedAutoImplicit false
set_option autoImplicit false

/-!
# Association under a change of names

`match_by_iou` looks at its index pools only through the costs of their pairs.  Two calls whose
pools name the same pairs by different indices answer the same pairs under the two names.

## Main definitions

* `Ctrk.TrackerCall` — a call of the tracker with the matcher of the source.

## Main results

* `Ctrk.munkresSolve_congr` — equal costs, equal assignments.
* `Ctrk.matchByIou_relabel` — renaming the detections renames the answers.
* `Ctrk.removeMatched_relabel` — what is left over is renamed, too.
-/

namespace Ctrk

variable {R : Type} [Scalar R]

/-- The assignment depends on the costs only, not on how the columns are indexed. -/
theorem munkresSolve_congr {rows cols cols' : ℕ} (h : cols' = cols)
    {cost : Fin rows → Fin cols → R} {cost' : Fin rows → Fin cols' → R}
    (hcost : ∀ i j, cost' i j = cost i (Fin.cast h j)) (i : Fin rows) :
    munkresSolve cost i = (munkresSolve cost' i).map (Fin.cast h) := by
  subst h
  have hsame : cost' = cost := funext fun i => funext fun j => hcost i j
  rw [hsame]
  cases munkresSolve cost i <;> rfl

/-- Two association calls with equal costs, the detections of the one renamed by `φ`.

**Proof sketch.** The two cost matrices are equal entry by entry, so the solver stars the same
cells, and the pairs read off them differ by the names of the detections. -/
theorem matchByIou_relabel {boxes boxes' : List (BBox R)} {trackIds : List ℕ}
    {dets dets' : List (Detection R)} {detIds : List ℕ} {minIou : R}
    {embs embs' : Option (List (List R))} {w : R} (φ : ℕ → ℕ)
    (hcost : ∀ t ∈ trackIds, ∀ d ∈ detIds,
      pairCost boxes' dets' minIou embs' w t (φ d) = pairCost boxes dets minIou embs w t d) :
    matchByIou boxes' trackIds dets' (detIds.map φ) minIou embs' w =
      (matchByIou boxes trackIds dets detIds minIou embs w).map (Prod.map id φ) := by
  have hlen : detIds.length = (detIds.map φ).length := (List.length_map _).symm
  have hget : ∀ j : Fin detIds.length, (detIds.map φ).get (Fin.cast hlen j) = φ (detIds.get j) := by
    intro j
    simp
  have hsame : ∀ i j, costMatrix boxes trackIds dets detIds minIou embs w i j =
      costMatrix boxes' trackIds dets' (detIds.map φ) minIou embs' w i (Fin.cast hlen j) := by
    intro i j
    rw [costMatrix, costMatrix, hget]
    exact (hcost _ (List.get_mem _ _) _ (List.get_mem _ _)).symm
  unfold matchByIou
  rw [List.isEmpty_map]
  split_ifs with hempty
  · rfl
  · rw [List.map_filterMap]
    refine List.filterMap_congr fun i _ => ?_
    rw [munkresSolve_congr hlen hsame]
    cases munkresSolve (costMatrix boxes trackIds dets detIds minIou embs w) i with
    | none => rfl
    | some j =>
      simp only [Option.map_some, Option.bind_some, ← hsame, hget]
      split_ifs <;> rfl

/-- Renaming the detections of a pool and of the matches renames what is left over. -/
theorem removeMatched_relabel {pool : List ℕ} {ms : List (ℕ × ℕ)} {φ : ℕ → ℕ}
    (hφ : ∀ j ∈ pool, ∀ m ∈ ms, φ m.2 = φ j → m.2 = j) :
    removeMatched (pool.map φ) (ms.map (Prod.map id φ)) false =
      (removeMatched pool ms false).map φ := by
  rw [removeMatched, removeMatched, List.filter_map]
  congr 1
  refine List.filter_congr fun j hj => ?_
  have hany : (ms.map (Prod.map id φ)).any (fun m => m.2 == φ j) = ms.any fun m => m.2 == j := by
    rw [List.any_map, Bool.eq_iff_iff, List.any_eq_true, List.any_eq_true]
    refine exists_congr fun m => and_congr_right fun hm => ?_
    simp only [Function.comp_apply, Prod.map_snd, beq_iff_eq]
    exact ⟨hφ j hj m hm, congrArg φ⟩
  simpa using congrArg (!·) hany

/-- Renaming the detections of the matches leaves the track side alone. -/
theorem removeMatched_relabel_fst (pool : List ℕ) (ms : List (ℕ × ℕ)) (φ : ℕ → ℕ) :
    removeMatched pool (ms.map (Prod.map id φ)) true = removeMatched pool ms true := by
  refine List.filter_congr fun i _ => ?_
  rw [List.any_map]
  rfl

/-- Associations with the same parts. -/
theorem Associations.eq_of_parts {a b : Associations} (h1 : a.stage1 = b.stage1)
    (h2 : a.stage2 = b.stage2) (h3 : a.stage3 = b.stage3)
    (hmature : a.unmatchedMature = b.unmatchedMature)
    (htentative : a.unmatchedTentative = b.unmatchedTentative)
    (hhigh : a.unmatchedHigh = b.unmatchedHigh) : a = b := by
  cases a
  cases b
  simp_all

/-! ## Calls of the source -/

/-- A call of the tracker, which associates with `match_by_iou`. -/
inductive TrackerCall (R : Type)
  | update (dets : List (Detection R)) (dt : R) (warp : Affine23 R)
  | coast (dt : R) (warp : Affine23 R)

namespace TrackerCall

/-- The call with its matcher. -/
def toCall [IsStrictOrderedRing R] : TrackerCall R → Call R
  | .update dets dt warp => .update iouMatcher dets dt warp
  | .coast dt warp => .coast dt warp

end TrackerCall

end Ctrk
