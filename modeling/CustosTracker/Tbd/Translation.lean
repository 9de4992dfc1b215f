import CustosTracker.Tbd.Relabel

set_option relaxedAutoImplicit false
set_option autoImplicit false

/-!
# Translation of the whole scene

Shifting every detection by one offset shifts every reported box by that offset and changes
nothing else: the filter is linear in the centre, its covariance and gain never read the centre,
and the overlap of two boxes does not depend on where they are.

## Main definitions

* `Ctrk.KalmanBox.shift`, `Ctrk.ByteTracker.shift` — translated values.

## Main results

* `Ctrk.KalmanBox.update_shift` and its siblings — the filter is translation equivariant.
* `Ctrk.associate_shift` — the associations of a translated scene are the same.
* `Ctrk.ByteTracker.translation` — whole runs.
-/

namespace Ctrk

open Indexed Matrix

variable {R : Type} [Scalar R]

/-! ## Translated values -/

/-- A detection moved by an offset. -/
def Detection.shift (dx dy : R) (d : Detection R) : Detection R :=
  { d with box := d.box.shift dx dy }

/-- A reported track moved by an offset. -/
def Track.shift (dx dy : R) (t : Track R) : Track R := { t with box := t.box.shift dx dy }

/-- A filter moved by an offset. -/
def KalmanBox.shift (dx dy : R) (k : KalmanBox R) : KalmanBox R :=
  { k with mean := fun i => k.mean i + ![dx, dy, 0, 0, 0, 0, 0, 0] i }

/-- A stored track moved by an offset. -/
def STrack.shift (dx dy : R) (t : STrack R) : STrack R := { t with kf := t.kf.shift dx dy }

/-- A tracker whose tracks are moved by an offset. -/
def ByteTracker.shift (dx dy : R) (s : ByteTracker R) : ByteTracker R :=
  { s with tracks := s.tracks.map (STrack.shift dx dy) }

/-- A call whose detections are moved by an offset. -/
def TrackerCall.shift (dx dy : R) : TrackerCall R → TrackerCall R
  | .update dets dt warp => .update (dets.map (Detection.shift dx dy)) dt warp
  | .coast dt warp => .coast dt warp

/-- A call without camera motion. -/
def TrackerCall.Still : TrackerCall R → Prop
  | .update _ _ warp => warp.identity = true
  | .coast _ warp => warp.identity = true

variable (dx dy : R)

/-! ## The filter -/

theorem toMeasurement_shift (b : BBox R) (i : Fin 4) :
    toMeasurement (b.shift dx dy) i = toMeasurement b i + ![dx, dy, 0, 0] i := by
  fin_cases i <;> simp [toMeasurement, BBox.shift, BBox.cx, BBox.cy] <;> ring

namespace KalmanBox

variable (k : KalmanBox R)

/-- A filter with shifted mean and the same covariance is a shifted filter. -/
theorem eq_shift {k k' : KalmanBox R} (hcov : k'.cov = k.cov)
    (hmean : ∀ i, k'.mean i = k.mean i + ![dx, dy, 0, 0, 0, 0, 0, 0] i) : k' = k.shift dx dy := by
  obtain ⟨mean', cov'⟩ := k'
  obtain rfl : cov' = k.cov := hcov
  exact congrArg (KalmanBox.mk · k.cov) (funext hmean)

theorem clampState_shift : (k.shift dx dy).clampState = k.clampState.shift dx dy := by
  refine eq_shift dx dy rfl fun i => ?_
  fin_cases i <;> simp [clampState, KalmanBox.shift]

/-- Clamping filters with shifted means and the same covariance. -/
theorem clampState_eq_shift {k k' : KalmanBox R} (hcov : k'.cov = k.cov)
    (hmean : ∀ i, k'.mean i = k.mean i + ![dx, dy, 0, 0, 0, 0, 0, 0] i) :
    k'.clampState = k.clampState.shift dx dy := by
  rw [eq_shift dx dy hcov hmean, clampState_shift]

theorem initiate_shift (z : BBox R) : initiate (z.shift dx dy) = (initiate z).shift dx dy := by
  have hheight : toMeasurement (z.shift dx dy) 3 = toMeasurement z 3 := rfl
  apply clampState_eq_shift
  · rw [hheight]
  · intro i
    fin_cases i <;> simp [toMeasurement_shift]

theorem predict_shift (dt : R) : (k.shift dx dy).predict dt = (k.predict dt).shift dx dy := by
  have hheight : (k.shift dx dy).mean 3 = k.mean 3 := by simp [KalmanBox.shift]
  apply clampState_eq_shift
  · rw [hheight]
    rfl
  · intro i
    rw [transition_mulVec, transition_mulVec]
    fin_cases i <;> simp [KalmanBox.shift] <;> ring

/-- The gain does not depend on where the filter is. -/
theorem gain_shift (rScale : R) : (k.shift dx dy).gain rScale = k.gain rScale := by
  have hheight : (k.shift dx dy).mean 3 = k.mean 3 := by simp [KalmanBox.shift]
  unfold gain
  rw [hheight]
  rfl

/-- The innovation does not depend on where filter and measurement are. -/
theorem innovation_shift (z : BBox R) :
    toMeasurement (z.shift dx dy) - measurement *ᵥ (k.shift dx dy).mean =
      toMeasurement z - measurement *ᵥ k.mean := by
  funext i
  rw [Pi.sub_apply, Pi.sub_apply, toMeasurement_shift, measurement_mulVec, measurement_mulVec]
  fin_cases i <;> simp [KalmanBox.shift]

theorem update_shift (z : BBox R) (rScale : R) :
    (k.shift dx dy).update (z.shift dx dy) rScale = (k.update z rScale).shift dx dy := by
  apply clampState_eq_shift
  · rw [gain_shift]
    rfl
  · intro i
    change ((k.shift dx dy).mean + _) i = (k.mean + _) i + _
    rw [Pi.add_apply, Pi.add_apply, gain_shift, innovation_shift]
    exact add_right_comm ..

theorem seedVelocity_shift (z : BBox R) (dt : R) :
    (k.shift dx dy).seedVelocity (z.shift dx dy) dt = (k.seedVelocity z dt).shift dx dy := by
  unfold seedVelocity
  split_ifs with hdt
  · rfl
  · refine eq_shift dx dy rfl fun i => ?_
    fin_cases i <;> simp [toMeasurement_shift, KalmanBox.shift]

theorem box_shift : (k.shift dx dy).box = k.box.shift dx dy := by
  have hx : k.mean 0 + dx - 1 / 2 * (k.mean 2 * k.mean 3) =
      k.mean 0 - 1 / 2 * (k.mean 2 * k.mean 3) + dx := by ring
  have hy : k.mean 1 + dy - 1 / 2 * k.mean 3 = k.mean 1 - 1 / 2 * k.mean 3 + dy := by ring
  simp only [box, BBox.shift, KalmanBox.shift]
  simpa [-one_div] using ⟨hx, hy⟩

end KalmanBox

/-! ## Single tracks -/

section Track

variable (t : STrack R)

theorem report_shift : (t.shift dx dy).report = t.report.shift dx dy := by
  simp only [STrack.report, STrack.shift, KalmanBox.box_shift]
  rfl

theorem map_report_shift (ts : List (STrack R)) :
    (ts.map (STrack.shift dx dy)).map STrack.report =
      (ts.map STrack.report).map (Track.shift dx dy) := by
  rw [List.map_map, List.map_map]
  exact List.map_congr_left fun t _ => report_shift dx dy t

theorem advance_shift (dt : R) {warp : Affine23 R} (hstill : warp.identity = true) :
    advance dt warp (t.shift dx dy) = (advance dt warp t).shift dx dy := by
  simp only [advance, hstill, if_true, STrack.shift, KalmanBox.predict_shift]

theorem predictTrack_shift (dt : R) {warp : Affine23 R} (hstill : warp.identity = true) :
    predictTrack dt warp (t.shift dx dy) = (predictTrack dt warp t).shift dx dy := by
  simp only [predictTrack, advance_shift dx dy t dt hstill]
  rfl

theorem missTrack_shift : missTrack (t.shift dx dy) = (missTrack t).shift dx dy := by
  unfold missTrack
  have hstate : (t.shift dx dy).state = t.state := rfl
  rw [hstate]
  split_ifs <;> rfl

theorem markMatched_shift (cfg : AssocConfig R) (effDt : R) (det : Detection R) :
    markMatched cfg effDt (t.shift dx dy) (det.shift dx dy) =
      (markMatched cfg effDt t det).shift dx dy := by
  simp only [markMatched, STrack.shift, Detection.shift, KalmanBox.seedVelocity_shift]
  congr 1
  split_ifs <;> rw [KalmanBox.update_shift]

theorem spawnTrack_shift (cfg : AssocConfig R) (id : ℤ) (det : Detection R) :
    spawnTrack cfg id (det.shift dx dy) = (spawnTrack cfg id det).shift dx dy := by
  simp only [spawnTrack, STrack.shift, Detection.shift, KalmanBox.initiate_shift]

end Track

/-! ## One update -/

section Associate

variable (tracks : List (STrack R)) (dets : List (Detection R))

theorem trackPool_shift {p : STrack R → Bool} (hp : ∀ t : STrack R, p (t.shift dx dy) = p t) :
    trackPool (tracks.map (STrack.shift dx dy)) p = trackPool tracks p := by
  rw [trackPool, trackPool, List.length_map]
  refine List.filter_congr fun i _ => ?_
  rw [List.getElem?_map]
  cases tracks[i]? with
  | none => rfl
  | some t => exact hp t

theorem getD_shift {j : ℕ} (hj : j < dets.length) :
    (dets.map (Detection.shift dx dy)).getD j default = (dets.getD j default).shift dx dy := by
  have hj' : j < (dets.map (Detection.shift dx dy)).length := by rwa [List.length_map]
  rw [List.getD_eq_getElem _ _ hj, List.getD_eq_getElem _ _ hj', List.getElem_map]

theorem score_shift (j : ℕ) : ((dets.map (Detection.shift dx dy)).getD j default).score =
    (dets.getD j default).score := by
  rw [List.getD_eq_getElem?_getD, List.getD_eq_getElem?_getD, List.getElem?_map]
  cases dets[j]? <;> rfl

theorem highDets_shift (cfg : AssocConfig R) :
    highDets cfg (dets.map (Detection.shift dx dy)) = highDets cfg dets := by
  simp only [highDets, score_shift, List.length_map]

theorem lowDets_shift (cfg : AssocConfig R) :
    lowDets cfg (dets.map (Detection.shift dx dy)) = lowDets cfg dets := by
  simp only [lowDets, score_shift, List.length_map]

variable [IsStrictOrderedRing R]

/-- The costs of a translated scene are the same. -/
theorem pairCost_shift {t d : ℕ} (ht : t < tracks.length) (hd : d < dets.length) (minIou : R)
    (embs : Option (List (List R))) (w : R) :
    pairCost ((tracks.map (STrack.shift dx dy)).map fun t : STrack R => t.kf.box)
        (dets.map (Detection.shift dx dy)) minIou embs w t d =
      pairCost (tracks.map fun t : STrack R => t.kf.box) dets minIou embs w t d := by
  have hbox : ((tracks.map (STrack.shift dx dy)).map fun t : STrack R => t.kf.box).getD t default =
      ((tracks.map fun t : STrack R => t.kf.box).getD t default).shift dx dy := by
    rw [List.getD_eq_getElem _ _ (by simpa using ht), List.getD_eq_getElem _ _ (by simpa using ht)]
    simp [STrack.shift, KalmanBox.box_shift]
  have hdet := getD_shift dx dy dets hd
  have hiou :
      iou (((tracks.map (STrack.shift dx dy)).map fun t : STrack R => t.kf.box).getD t default)
      ((dets.map (Detection.shift dx dy)).getD d default).box =
      iou ((tracks.map fun t : STrack R => t.kf.box).getD t default) (dets.getD d default).box := by
    rw [hbox, hdet]
    exact iou_shift dx dy _ _
  rw [pairCost, pairCost, hiou, hdet]
  rfl

/-- The matches of a translated scene are the same. -/
theorem matchByIou_shift {trackIds detIds : List ℕ} (hT : ∀ t ∈ trackIds, t < tracks.length)
    (hD : ∀ d ∈ detIds, d < dets.length) (minIou : R) (embs : Option (List (List R))) (w : R) :
    matchByIou ((tracks.map (STrack.shift dx dy)).map fun t : STrack R => t.kf.box) trackIds
        (dets.map (Detection.shift dx dy)) detIds minIou embs w =
      matchByIou (tracks.map fun t => t.kf.box) trackIds dets detIds minIou embs w := by
  have h := matchByIou_relabel (R := R) id fun t ht d hd =>
    pairCost_shift dx dy tracks dets (hT t ht) (hD d hd) minIou embs w
  rwa [List.map_id, Prod.map_id, List.map_id] at h

/-- **The associations of a translated scene are the same.**

**Proof sketch.** The pools look at states, counters and scores, which do not move, and the costs
at overlaps and descriptors, which do not either.  So the three stages match alike, and the lists
left over follow. -/
theorem associate_shift (cfg : AssocConfig R) (coasted : R) :
    associate iouMatcher cfg coasted (tracks.map (STrack.shift dx dy))
        (dets.map (Detection.shift dx dy)) = associate iouMatcher cfg coasted tracks dets := by
  have hpool : ∀ {p : STrack R → Bool} {i : ℕ}, i ∈ trackPool tracks p → i < tracks.length := by
    intro p i hi
    obtain ⟨t, ht, -⟩ := mem_trackPool.mp hi
    exact (List.getElem?_eq_some_iff.mp ht).1
  have hhigh : ∀ j ∈ highDets cfg dets, j < dets.length := fun j hj => (mem_highDets.mp hj).1
  have hlow : ∀ j ∈ lowDets cfg dets, j < dets.length := fun j hj => (mem_lowDets.mp hj).1
  have htent : trackPool (tracks.map (STrack.shift dx dy)) (fun t => t.state = .tentative) =
      trackPool tracks fun t => t.state = .tentative := trackPool_shift dx dy tracks fun _ => rfl
  have hmature : trackPool (tracks.map (STrack.shift dx dy)) (fun t => ¬t.state = .tentative) =
      trackPool tracks fun t => ¬t.state = .tentative := trackPool_shift dx dy tracks fun _ => rfl
  have hembs : (tracks.map (STrack.shift dx dy)).map STrack.embedding =
      tracks.map STrack.embedding := by
    rw [List.map_map]
    rfl
  have hrecent : ∀ (pool : List ℕ), (pool.filter fun i =>
      (tracks.map (STrack.shift dx dy))[i]?.any fun t : STrack R => t.state = .confirmed ∧
        t.timeSinceUpdate = 1) = pool.filter fun i =>
      tracks[i]?.any fun t => t.state = .confirmed ∧ t.timeSinceUpdate = 1 := by
    intro pool
    refine List.filter_congr fun i _ => ?_
    rw [List.getElem?_map]
    cases tracks[i]? <;> rfl
  have h1 : (associate iouMatcher cfg coasted (tracks.map (STrack.shift dx dy))
      (dets.map (Detection.shift dx dy))).stage1 =
      (associate iouMatcher cfg coasted tracks dets).stage1 := by
    rw [associate_stage1, associate_stage1, hmature, highDets_shift, hembs]
    exact matchByIou_shift dx dy tracks dets (fun t ht => hpool ht) hhigh _ _ _
  have h2 : (associate iouMatcher cfg coasted (tracks.map (STrack.shift dx dy))
      (dets.map (Detection.shift dx dy))).stage2 =
      (associate iouMatcher cfg coasted tracks dets).stage2 := by
    rw [associate_stage2, associate_stage2, h1, hmature, hrecent, lowDets_shift]
    split_ifs
    · refine matchByIou_shift dx dy tracks dets (fun i hi => ?_) hlow _ _ _
      exact hpool (mem_removeMatched_fst.mp (List.mem_filter.mp hi).1).1
    · rfl
  have h3 : (associate iouMatcher cfg coasted (tracks.map (STrack.shift dx dy))
      (dets.map (Detection.shift dx dy))).stage3 =
      (associate iouMatcher cfg coasted tracks dets).stage3 := by
    rw [associate_stage3, associate_stage3, h1, htent, highDets_shift]
    exact matchByIou_shift dx dy tracks dets (fun t ht => hpool ht)
      (fun j hj => hhigh j (mem_removeMatched_snd.mp hj).1) _ _ _
  refine Associations.eq_of_parts h1 h2 h3 ?_ ?_ ?_
  · rw [associate_unmatchedMature, associate_unmatchedMature, h1, h2, hmature]
  · rw [associate_unmatchedTentative, associate_unmatchedTentative, h3, htent]
  · rw [associate_unmatchedHigh, associate_unmatchedHigh, h1, h3, highDets_shift]

end Associate

/-- The spawning loop on shifted detections. -/
theorem spawnAll_shift (cfg : AssocConfig R) (dets : List (Detection R)) {left : List ℕ}
    (hleft : ∀ j ∈ left, j < dets.length) (nextId : ℤ) :
    spawnAll cfg (dets.map (Detection.shift dx dy)) left nextId =
      ((spawnAll cfg dets left nextId).1.map (STrack.shift dx dy),
        (spawnAll cfg dets left nextId).2) := by
  induction left generalizing nextId with
  | nil => rfl
  | cons j left ih =>
    have hj := getD_shift dx dy dets (hleft j List.mem_cons_self)
    have hrest := ih fun j' hj' => hleft j' (List.mem_cons_of_mem _ hj')
    have hscore : ((dets.getD j default).shift dx dy).score = (dets.getD j default).score := rfl
    simp only [spawnAll, hj, hscore, hrest, spawnTrack_shift]
    split_ifs <;> rfl

namespace ByteTracker

/-- A coast of a translated tracker. -/
theorem coast_shift (s : ByteTracker R) (dt : R) {warp : Affine23 R}
    (hstill : warp.identity = true) :
    (s.shift dx dy).coast dt warp =
      ((s.coast dt warp).1.map (Track.shift dx dy), (s.coast dt warp).2.shift dx dy) := by
  have htracks : (s.tracks.map (STrack.shift dx dy)).map (advance dt warp) =
      (s.tracks.map (advance dt warp)).map (STrack.shift dx dy) := by
    rw [List.map_map, List.map_map]
    exact List.map_congr_left fun t _ => advance_shift dx dy t dt hstill
  simp only [coast, ByteTracker.shift, htracks, map_report_shift]

variable [IsStrictOrderedRing R]

/-- **An update of a translated tracker.**

**Proof sketch.** Predicting, matching, missing and spawning commute with the shift, and the
decisions between them are the same (`associate_shift`). -/
theorem update_shift (s : ByteTracker R) (dets : List (Detection R)) (dt : R) {warp : Affine23 R}
    (hstill : warp.identity = true) :
    (s.shift dx dy).update iouMatcher (dets.map (Detection.shift dx dy)) dt warp =
      ((s.update iouMatcher dets dt warp).1.map (Track.shift dx dy),
        (s.update iouMatcher dets dt warp).2.shift dx dy) := by
  have hpredicted : (s.shift dx dy).predicted dt warp =
      (s.predicted dt warp).map (STrack.shift dx dy) := by
    rw [predicted, predicted, ByteTracker.shift, List.map_map, List.map_map]
    exact List.map_congr_left fun t _ => predictTrack_shift dx dy t dt hstill
  have hassoc : (s.shift dx dy).associations iouMatcher (dets.map (Detection.shift dx dy)) dt warp =
      s.associations iouMatcher dets dt warp := by
    rw [associations, associations, hpredicted]
    exact associate_shift dx dy _ dets s.cfg s.coastedDt
  have hmatches : (s.shift dx dy).afterMatches iouMatcher (dets.map (Detection.shift dx dy)) dt warp =
      (s.afterMatches iouMatcher dets dt warp).map (STrack.shift dx dy) := by
    rw [afterMatches, afterMatches, hpredicted, hassoc]
    refine modifyAll_map _ _ (fun p hp t => ?_) _
    rw [getD_shift dx dy dets (matched_snd_lt iouMatcher _ _ _ _ hp)]
    exact markMatched_shift dx dy t _ _ _
  have hmisses : (s.shift dx dy).afterMisses iouMatcher (dets.map (Detection.shift dx dy)) dt warp =
      (s.afterMisses iouMatcher dets dt warp).map (STrack.shift dx dy) := by
    rw [afterMisses, afterMisses, hmatches, hassoc]
    exact modifyAll_map _ _ (fun _ _ t => missTrack_shift dx dy t) _
  have hremoved : (s.shift dx dy).removed iouMatcher (dets.map (Detection.shift dx dy)) dt warp =
      s.removed iouMatcher dets dt warp := by
    simp only [removed, hmatches, hassoc, List.getElem?_map, Option.any_map]
    rfl
  have hspawned : (s.shift dx dy).spawned iouMatcher (dets.map (Detection.shift dx dy)) dt warp =
      ((s.spawned iouMatcher dets dt warp).1.map (STrack.shift dx dy),
        (s.spawned iouMatcher dets dt warp).2) := by
    rw [spawned, spawned, hassoc]
    refine spawnAll_shift dx dy s.cfg dets (fun j hj => ?_) s.nextId
    exact (mem_highDets.mp ((mem_unmatchedHigh _ _ _ _ _).mp hj).1).1
  simp only [update, hmisses, hremoved, hspawned, ← List.map_append, compact_map, map_report_shift]
  rfl

end ByteTracker

/-! ## Runs -/

namespace ByteTracker

variable [IsStrictOrderedRing R]

/-- One call of a translated tracker. -/
theorem step_shift (s : ByteTracker R) {c : TrackerCall R} (hstill : c.Still) :
    (s.shift dx dy).step (c.shift dx dy).toCall =
      ((s.step c.toCall).1.map (Track.shift dx dy), (s.step c.toCall).2.shift dx dy) := by
  cases c with
  | update dets dt warp => exact s.update_shift dx dy dets dt hstill
  | coast dt warp => exact s.coast_shift dx dy dt hstill

/-- Runs of a translated tracker, from any state. -/
theorem outputs_shift (s : ByteTracker R) {cs : List (TrackerCall R)} (hstill : ∀ c ∈ cs, c.Still) :
    (s.shift dx dy).outputs (cs.map fun c => (c.shift dx dy).toCall) =
      (s.outputs (cs.map TrackerCall.toCall)).map (List.map (Track.shift dx dy)) := by
  induction cs generalizing s with
  | nil => rfl
  | cons c cs ih =>
    have hstep := s.step_shift dx dy (hstill c List.mem_cons_self)
    have hrest := ih (s.step c.toCall).2 fun c' hc' => hstill c' (List.mem_cons_of_mem _ hc')
    rw [List.map_cons, List.map_cons, outputs, outputs, List.map_cons, hstep, hrest]

/-- **Tracking decisions are translation equivariant.** On every run without camera motion,
shifting every detection by `(dx, dy)` shifts every reported box by `(dx, dy)` and changes no id,
state, score, class, age or hit count.

**Proof sketch.** By induction on the calls, from the empty tracker, which is its own shift. -/
theorem translation (cfg : AssocConfig R) (cs : List (TrackerCall R)) (hstill : ∀ c ∈ cs, c.Still) :
    (new cfg).outputs (cs.map fun c => (c.shift dx dy).toCall) =
      ((new cfg).outputs (cs.map TrackerCall.toCall)).map (List.map (Track.shift dx dy)) :=
  (new cfg).outputs_shift dx dy hstill

/-- A detection, a coast and a second detection, moved by `(5, -3)`. -/
theorem translation_offset :
    (new ({} : AssocConfig ℚ)).outputs
        (([.update [⟨⟨0, 0, 10, 20⟩, 9 / 10, 0, []⟩] 1 .id, .coast 1 .id,
          .update [⟨⟨1, 0, 10, 20⟩, 4 / 5, 0, []⟩] 1 .id] : List (TrackerCall ℚ)).map
            fun c => (c.shift 5 (-3)).toCall) =
      ((new ({} : AssocConfig ℚ)).outputs
        (([.update [⟨⟨0, 0, 10, 20⟩, 9 / 10, 0, []⟩] 1 .id, .coast 1 .id,
          .update [⟨⟨1, 0, 10, 20⟩, 4 / 5, 0, []⟩] 1 .id] : List (TrackerCall ℚ)).map
            TrackerCall.toCall)).map (List.map (Track.shift 5 (-3))) :=
  translation 5 (-3) {} _ (by simp [TrackerCall.Still])

end ByteTracker

end Ctrk
