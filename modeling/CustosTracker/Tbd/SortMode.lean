import CustosTracker.Tbd.Relabel

set_option relaxedAutoImplicit false
set_option autoImplicit false

/-!
# SORT mode

With `use_byte` off the tracker is plain SORT: it behaves as with `use_byte` on, fed with the
detections above the high score alone.  Low-score detections then reach neither stage 1 nor
stage 3 nor the spawning loop, and stage 2 has nothing to match.

## Main definitions

* `Ctrk.TrackerCall.dropLow` — a call without its low-score detections.
* `Ctrk.Associations.relabel` — associations under other detection indices.

## Main results

* `Ctrk.associate_dropLow` — the associations without the low-score detections.
* `Ctrk.ByteTracker.update_dropLow` — one update.
* `Ctrk.ByteTracker.sort_mode` — whole runs.
-/

namespace Ctrk

open Indexed

variable {R : Type} [Scalar R]

/-! ## Dropping the low-score detections -/

/-- The detections with at least the high score. -/
def keepHigh (cfg : AssocConfig R) (dets : List (Detection R)) : List (Detection R) :=
  dets.filter fun d => cfg.trackThresh ≤ d.score

/-- Where a kept detection comes from. -/
def highIndex (cfg : AssocConfig R) (dets : List (Detection R)) (k : ℕ) : ℕ :=
  (highDets cfg dets).getD k 0

theorem keepHigh_eq_map (cfg : AssocConfig R) (dets : List (Detection R)) :
    keepHigh cfg dets = (highDets cfg dets).map fun j => dets.getD j default :=
  filter_eq_map_range _ dets default

theorem length_keepHigh (cfg : AssocConfig R) (dets : List (Detection R)) :
    (keepHigh cfg dets).length = (highDets cfg dets).length := by
  rw [keepHigh_eq_map, List.length_map]

/-- A kept detection is the detection it comes from. -/
theorem getD_highIndex (cfg : AssocConfig R) (dets : List (Detection R)) {k : ℕ}
    (hk : k < (keepHigh cfg dets).length) :
    dets.getD (highIndex cfg dets k) default = (keepHigh cfg dets).getD k default := by
  have hk' : k < (highDets cfg dets).length := by rwa [← length_keepHigh]
  rw [highIndex, List.getD_eq_getElem _ _ hk', List.getD_eq_getElem _ _ hk]
  simp [keepHigh_eq_map]

/-- All kept detections have the high score. -/
theorem highDets_keepHigh (cfg : AssocConfig R) (dets : List (Detection R)) :
    highDets cfg (keepHigh cfg dets) = List.range (keepHigh cfg dets).length := by
  refine List.filter_eq_self.mpr fun k hk => ?_
  have hk' : k < (keepHigh cfg dets).length := List.mem_range.mp hk
  rw [List.getD_eq_getElem _ _ hk']
  exact (List.mem_filter.mp (List.getElem_mem hk')).2

theorem lt_length_keepHigh (cfg : AssocConfig R) (dets : List (Detection R)) {k : ℕ}
    (hk : k ∈ highDets cfg (keepHigh cfg dets)) : k < (keepHigh cfg dets).length :=
  (mem_highDets.mp hk).1

/-- None of the kept detections has a low score. -/
theorem lowDets_keepHigh (cfg : AssocConfig R) (dets : List (Detection R)) :
    lowDets cfg (keepHigh cfg dets) = [] := by
  refine List.filter_eq_nil_iff.mpr fun k hk => ?_
  have hhigh := highDets_keepHigh cfg dets ▸ hk
  simpa using (mem_highDets.mp hhigh).2

/-- The pool of high-score detections, by their indices among the kept ones. -/
theorem highDets_eq_map (cfg : AssocConfig R) (dets : List (Detection R)) :
    highDets cfg dets = (highDets cfg (keepHigh cfg dets)).map (highIndex cfg dets) := by
  rw [highDets_keepHigh, length_keepHigh]
  apply List.ext_getElem
  · simp
  · intro i h1 h2
    simp [highIndex, List.getElem?_eq_getElem h1]

/-- Different kept detections come from different ones. -/
theorem highIndex_injOn (cfg : AssocConfig R) (dets : List (Detection R)) {k k' : ℕ}
    (hk : k < (keepHigh cfg dets).length) (hk' : k' < (keepHigh cfg dets).length)
    (h : highIndex cfg dets k = highIndex cfg dets k') : k = k' := by
  rw [length_keepHigh] at hk hk'
  rw [highIndex, highIndex, List.getD_eq_getElem _ _ hk, List.getD_eq_getElem _ _ hk'] at h
  exact (nodup_highDets cfg dets).getElem_inj_iff.mp h

/-! ## One update -/

/-- The associations with the detections renamed. -/
def Associations.relabel (φ : ℕ → ℕ) (a : Associations) : Associations :=
  { a with
    stage1 := a.stage1.map (Prod.map id φ)
    stage2 := a.stage2.map (Prod.map id φ)
    stage3 := a.stage3.map (Prod.map id φ)
    unmatchedHigh := a.unmatchedHigh.map φ }

theorem Associations.relabel_matched (φ : ℕ → ℕ) (a : Associations) :
    (a.relabel φ).matched = a.matched.map (Prod.map id φ) := by
  simp only [Associations.matched, Associations.relabel, List.map_append]

/-- The spawning loop under other detection indices. -/
theorem spawnAll_relabel (cfg cfg' : AssocConfig R) (hthr : cfg'.newTrackThresh = cfg.newTrackThresh)
    (hinit : cfg'.nInit = cfg.nInit) {dets dets' : List (Detection R)} {φ : ℕ → ℕ} {left : List ℕ}
    (h : ∀ j ∈ left, dets.getD (φ j) default = dets'.getD j default) (nextId : ℤ) :
    spawnAll cfg dets (left.map φ) nextId = spawnAll cfg' dets' left nextId := by
  induction left generalizing nextId with
  | nil => rfl
  | cons j left ih =>
    have hj := h j List.mem_cons_self
    have hrest := ih fun j' hj' => h j' (List.mem_cons_of_mem _ hj')
    simp only [List.map_cons, spawnAll, hj, hthr, hrest, spawnTrack, hinit]

/-- The source's matcher with the high-score detections under their indices among the kept
ones. -/
theorem matchByIou_dropLow {cfg : AssocConfig R} {boxes : List (BBox R)} {trackIds detIds : List ℕ}
    {dets : List (Detection R)} {minIou : R} {embs : Option (List (List R))} {w : R}
    (hids : ∀ k ∈ detIds, k < (keepHigh cfg dets).length) :
    matchByIou boxes trackIds dets (detIds.map (highIndex cfg dets)) minIou embs w =
      (matchByIou boxes trackIds (keepHigh cfg dets) detIds minIou embs w).map
        (Prod.map id (highIndex cfg dets)) := by
  refine matchByIou_relabel _ fun t _ k hk => ?_
  rw [pairCost, pairCost, getD_highIndex cfg dets (hids k hk)]

section Associate

variable [IsStrictOrderedRing R] (cfg : AssocConfig R) (coasted : R) (tracks : List (STrack R))
  (dets : List (Detection R))

/-- Stage 1 without the low-score detections. -/
theorem stage1_dropLow : (associate iouMatcher cfg coasted tracks dets).stage1 =
    (associate iouMatcher { cfg with useByte := true } coasted tracks
      (keepHigh cfg dets)).stage1.map (Prod.map id (highIndex cfg dets)) := by
  rw [associate_stage1, highDets_eq_map]
  exact matchByIou_dropLow fun k hk => lt_length_keepHigh cfg dets hk

/-- The detections stage 1 leaves over, without the low-score ones. -/
theorem left_dropLow : removeMatched (highDets cfg dets)
      (associate iouMatcher cfg coasted tracks dets).stage1 false =
    (removeMatched (highDets cfg (keepHigh cfg dets)) (associate iouMatcher
      { cfg with useByte := true } coasted tracks (keepHigh cfg dets)).stage1 false).map
        (highIndex cfg dets) := by
  rw [stage1_dropLow, highDets_eq_map]
  refine removeMatched_relabel fun j hj p hp h => ?_
  have hp' := lt_length_keepHigh cfg dets (stage1_mem _ _ _ _ _ hp).2
  exact highIndex_injOn cfg dets hp' (lt_length_keepHigh cfg dets hj) h

/-- Stage 3 without the low-score detections. -/
theorem stage3_dropLow : (associate iouMatcher cfg coasted tracks dets).stage3 =
    (associate iouMatcher { cfg with useByte := true } coasted tracks
      (keepHigh cfg dets)).stage3.map (Prod.map id (highIndex cfg dets)) := by
  rw [associate_stage3, left_dropLow]
  exact matchByIou_dropLow fun k hk => lt_length_keepHigh cfg dets (mem_removeMatched_snd.mp hk).1

/-- Without low-score detections stage 2 has nothing to match. -/
theorem stage2_keepHigh : (associate iouMatcher { cfg with useByte := true } coasted tracks
    (keepHigh cfg dets)).stage2 = [] := by
  have hlow : lowDets { cfg with useByte := true } (keepHigh cfg dets) = [] :=
    lowDets_keepHigh cfg dets
  rw [associate_stage2, hlow]
  change (if true = true then matchByIou _ _ _ [] _ _ _ else []) = []
  rw [if_pos rfl, matchByIou, if_pos (by simp)]

/-- **The associations of SORT mode** are those with the low-score detections dropped.

**Proof sketch.** Stages 1 and 3 see the high-score detections in the same order under new names,
so they match alike; stage 2 is off on the one side and has no detections on the other.  The
lists left over follow from the stages. -/
theorem associate_dropLow (hbyte : cfg.useByte = false) :
    associate iouMatcher cfg coasted tracks dets =
      (associate iouMatcher { cfg with useByte := true } coasted tracks
        (keepHigh cfg dets)).relabel (highIndex cfg dets) := by
  have h1 := stage1_dropLow cfg coasted tracks dets
  have h2 := stage2_keepHigh cfg coasted tracks dets
  have h3 := stage3_dropLow cfg coasted tracks dets
  refine Associations.eq_of_parts h1 ?_ h3 ?_ ?_ ?_
  · rw [associate_stage2, hbyte, Associations.relabel, h2]
    rfl
  · rw [associate_unmatchedMature, hbyte, h1, Associations.relabel, associate_unmatchedMature, h2]
    change removeMatched _ (List.map _ _) true = removeMatched (removeMatched _ _ true) [] true
    rw [removeMatched_relabel_fst]
    exact (List.filter_eq_self.mpr fun _ _ => rfl).symm
  · rw [associate_unmatchedTentative, h3, removeMatched_relabel_fst]
    rfl
  · rw [associate_unmatchedHigh, left_dropLow, h3]
    refine removeMatched_relabel fun j hj p hp h => ?_
    have hp' := lt_length_keepHigh cfg dets (stage3_mem _ _ _ _ _ hp).2.1
    exact highIndex_injOn cfg dets hp'
      (lt_length_keepHigh cfg dets (mem_removeMatched_snd.mp hj).1) h

end Associate

namespace ByteTracker

variable [IsStrictOrderedRing R]

/-- The tracker with `use_byte` on. -/
def withByte (s : ByteTracker R) : ByteTracker R :=
  { s with cfg := { s.cfg with useByte := true } }

/-- **An update in SORT mode** does what the update with `use_byte` on does without the low-score
detections.

**Proof sketch.** The associations agree up to the names of the detections (`associate_dropLow`),
so the matches and the misses change the same tracks, the same ones are removed and the same
detections spawn. -/
theorem update_dropLow (s : ByteTracker R) (hbyte : s.cfg.useByte = false)
    (dets : List (Detection R)) (dt : R) (warp : Affine23 R) :
    s.withByte.update iouMatcher (keepHigh s.cfg dets) dt warp =
      ((s.update iouMatcher dets dt warp).1, (s.update iouMatcher dets dt warp).2.withByte) := by
  have hassoc : s.associations iouMatcher dets dt warp =
      (s.withByte.associations iouMatcher (keepHigh s.cfg dets) dt warp).relabel
        (highIndex s.cfg dets) :=
    associate_dropLow s.cfg s.coastedDt (s.predicted dt warp) dets hbyte
  have hmatches : s.afterMatches iouMatcher dets dt warp =
      s.withByte.afterMatches iouMatcher (keepHigh s.cfg dets) dt warp := by
    rw [afterMatches, afterMatches, hassoc, Associations.relabel_matched, modifyAll_map_jobs]
    refine modifyAll_congr _ _ (fun p hp => ?_) _
    have hlt := matched_snd_lt iouMatcher _ _ _ _ hp
    funext t
    rw [Prod.map_snd, getD_highIndex s.cfg dets hlt]
    rfl
  have hmisses : s.afterMisses iouMatcher dets dt warp =
      s.withByte.afterMisses iouMatcher (keepHigh s.cfg dets) dt warp := by
    rw [afterMisses, afterMisses, hmatches, hassoc]
    rfl
  have hremoved : s.removed iouMatcher dets dt warp =
      s.withByte.removed iouMatcher (keepHigh s.cfg dets) dt warp := by
    simp only [removed, hmatches, hassoc]
    rfl
  have hspawned : s.spawned iouMatcher dets dt warp =
      s.withByte.spawned iouMatcher (keepHigh s.cfg dets) dt warp := by
    rw [spawned, spawned, hassoc]
    refine spawnAll_relabel s.cfg s.withByte.cfg rfl rfl
      (fun j hj => getD_highIndex s.cfg dets ?_) s.nextId
    exact (mem_highDets.mp ((mem_unmatchedHigh _ _ _ _ _).mp hj).1).1
  unfold update
  rw [hmisses, hremoved, hspawned]
  rfl

end ByteTracker

/-! ## Runs -/

/-- A call without its low-score detections. -/
def TrackerCall.dropLow (cfg : AssocConfig R) : TrackerCall R → TrackerCall R
  | .update dets dt warp => .update (keepHigh cfg dets) dt warp
  | .coast dt warp => .coast dt warp

namespace ByteTracker

variable [IsStrictOrderedRing R]

/-- One call in SORT mode. -/
theorem step_dropLow (s : ByteTracker R) (hbyte : s.cfg.useByte = false) (c : TrackerCall R) :
    s.withByte.step (c.dropLow s.cfg).toCall =
      ((s.step c.toCall).1, (s.step c.toCall).2.withByte) := by
  cases c with
  | update dets dt warp => exact s.update_dropLow hbyte dets dt warp
  | coast dt warp => rfl

/-- Runs in SORT mode, from any state. -/
theorem outputs_dropLow (s : ByteTracker R) (hbyte : s.cfg.useByte = false)
    (cs : List (TrackerCall R)) :
    s.withByte.outputs (cs.map fun c => (c.dropLow s.cfg).toCall) =
      s.outputs (cs.map TrackerCall.toCall) := by
  induction cs generalizing s with
  | nil => rfl
  | cons c cs ih =>
    have hcfg : (s.step c.toCall).2.cfg = s.cfg := by cases c <;> rfl
    have hrest := ih (s.step c.toCall).2 (hcfg ▸ hbyte)
    rw [hcfg] at hrest
    rw [List.map_cons, List.map_cons, outputs, outputs, s.step_dropLow hbyte c, hrest]

/-- **SORT mode is ByteTrack without low-score detections.** On every run, the tracker with
`use_byte` off reports on every call what the tracker with `use_byte` on reports when all
detections below `track_thresh` are dropped.

**Proof sketch.** By induction on the calls, with `update_dropLow` as the step: the two trackers
differ in the `use_byte` flag only. -/
theorem sort_mode (cfg : AssocConfig R) (cs : List (TrackerCall R)) :
    (new { cfg with useByte := false }).outputs (cs.map TrackerCall.toCall) =
      (new { cfg with useByte := true }).outputs
        (cs.map fun c => (c.dropLow cfg).toCall) :=
  ((new { cfg with useByte := false }).outputs_dropLow rfl cs).symm

/-- A detection that dims to a low score and comes back. -/
theorem sort_mode_dimming :
    (new ({ useByte := false } : AssocConfig ℚ)).outputs
        (([.update [⟨⟨0, 0, 10, 20⟩, 9 / 10, 0, []⟩] 1 .id,
          .update [⟨⟨0, 0, 10, 20⟩, 1 / 5, 0, []⟩] 1 .id,
          .update [⟨⟨0, 0, 10, 20⟩, 9 / 10, 0, []⟩] 1 .id] : List (TrackerCall ℚ)).map
            TrackerCall.toCall) =
      (new ({ useByte := true } : AssocConfig ℚ)).outputs
        (([.update [⟨⟨0, 0, 10, 20⟩, 9 / 10, 0, []⟩] 1 .id,
          .update [⟨⟨0, 0, 10, 20⟩, 1 / 5, 0, []⟩] 1 .id,
          .update [⟨⟨0, 0, 10, 20⟩, 9 / 10, 0, []⟩] 1 .id] : List (TrackerCall ℚ)).map
            fun c => (c.dropLow {}).toCall) :=
  sort_mode {} _

end ByteTracker

end Ctrk
