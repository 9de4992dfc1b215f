import CustosTracker.Tbd.ByteTracker

set_option relaxedAutoImplicit false
set_option autoImplicit false

/-!
# What one update does

The specification of `ByteTracker::update`, entry by entry.  Every stored track has a *fate*:
the detection it was matched to, or none.  A matched track is corrected by its detection, an
unmatched one ages and is dropped above its limit, and the spawned tracks follow behind the
survivors.  All invariants of the tracker are derived from `update_tracks`.

## Main definitions

* `Ctrk.ByteTracker.fate`, `Ctrk.settle`, `Ctrk.missLimit` — what happens to one track.
* `Ctrk.ByteTracker.survivors`, `Ctrk.ByteTracker.newborns` — who stays and who comes.

## Main results

* `Ctrk.nodup_matched_fst`, `Ctrk.nodup_matched_snd` — the stages together are one-to-one.
* `Ctrk.ByteTracker.mem_removed` — who is dropped.
* `Ctrk.ByteTracker.update_tracks` — the tracks after an update.
-/

namespace Ctrk

open Indexed

variable {R : Type} [Scalar R]

/-! ## Pools -/

theorem mem_trackPool {tracks : List (STrack R)} {p : STrack R → Bool} {i : ℕ} :
    i ∈ trackPool tracks p ↔ ∃ t, tracks[i]? = some t ∧ p t = true := by
  simp only [trackPool, List.mem_filter, List.mem_range, Option.any_eq_true]
  constructor
  · intro h
    exact h.2
  · intro h
    obtain ⟨t, ht, hp⟩ := h
    exact ⟨(List.getElem?_eq_some_iff.mp ht).1, t, ht, hp⟩

theorem nodup_trackPool (tracks : List (STrack R)) (p : STrack R → Bool) :
    (trackPool tracks p).Nodup := List.nodup_range.filter _

theorem mem_highDets {cfg : AssocConfig R} {dets : List (Detection R)} {j : ℕ} :
    j ∈ highDets cfg dets ↔ j < dets.length ∧ cfg.trackThresh ≤ (dets.getD j default).score := by
  simp only [highDets, List.mem_filter, List.mem_range, decide_eq_true_eq]

theorem mem_lowDets {cfg : AssocConfig R} {dets : List (Detection R)} {j : ℕ} :
    j ∈ lowDets cfg dets ↔ j < dets.length ∧ (dets.getD j default).score < cfg.trackThresh := by
  simp only [lowDets, List.mem_filter, List.mem_range, decide_eq_true_eq, not_le]

theorem nodup_highDets (cfg : AssocConfig R) (dets : List (Detection R)) :
    (highDets cfg dets).Nodup := List.nodup_range.filter _

theorem nodup_lowDets (cfg : AssocConfig R) (dets : List (Detection R)) :
    (lowDets cfg dets).Nodup := List.nodup_range.filter _

theorem nodup_removeMatched {pool : List ℕ} (h : pool.Nodup) (ms : List (ℕ × ℕ)) (first : Bool) :
    (removeMatched pool ms first).Nodup := h.filter _

/-! ## The three stages -/

section Associate

variable (m : Matcher R) (cfg : AssocConfig R) (coasted : R) (tracks : List (STrack R))
  (dets : List (Detection R))

/-- Stage 1 is a legal association of the mature tracks with the high-score detections. -/
theorem stage1_legal :
    LegalMatches (tracks.map fun t => t.kf.box) (trackPool tracks fun t => ¬t.state = .tentative)
      dets (highDets cfg dets) (1 - cfg.matchThreshHigh)
      (associate m cfg coasted tracks dets).stage1 :=
  m.legal _ _ _ _ _ _ _ (nodup_trackPool _ _) (nodup_highDets cfg dets)

/-- Stage 1 looks at the mature tracks and the high-score detections. -/
theorem associate_stage1 :
    (associate m cfg coasted tracks dets).stage1 =
      m.run (tracks.map fun t => t.kf.box) (trackPool tracks fun t => ¬t.state = .tentative) dets
        (highDets cfg dets) (1 - cfg.matchThreshHigh)
        (if 0 < cfg.appearanceWeight then some (tracks.map STrack.embedding) else none)
        cfg.appearanceWeight := rfl

/-- The candidates of stage 2: mature tracks stage 1 left over that the previous update matched. -/
theorem associate_stage2 :
    (associate m cfg coasted tracks dets).stage2 =
      if cfg.useByte then m.run (tracks.map fun t => t.kf.box)
        ((removeMatched (trackPool tracks fun t => ¬t.state = .tentative)
          (associate m cfg coasted tracks dets).stage1 true).filter fun i =>
            tracks[i]?.any fun t => t.state = .confirmed ∧ t.timeSinceUpdate = 1)
        dets (lowDets cfg dets) cfg.matchThreshLow none 0
      else [] := rfl

/-- Stage 3 looks at the tentative tracks and the high-score detections stage 1 left over. -/
theorem associate_stage3 :
    (associate m cfg coasted tracks dets).stage3 =
      m.run (tracks.map fun t => t.kf.box) (trackPool tracks fun t => t.state = .tentative) dets
        (removeMatched (highDets cfg dets) (associate m cfg coasted tracks dets).stage1 false)
        (max cfg.tentativeGateFloor
          (cfg.tentativeMatchThresh - cfg.tentativeRelaxPerCoast * coasted)) none 0 := rfl

theorem associate_unmatchedTentative :
    (associate m cfg coasted tracks dets).unmatchedTentative =
      removeMatched (trackPool tracks fun t => t.state = .tentative)
        (associate m cfg coasted tracks dets).stage3 true := rfl

theorem associate_unmatchedHigh :
    (associate m cfg coasted tracks dets).unmatchedHigh =
      removeMatched
        (removeMatched (highDets cfg dets) (associate m cfg coasted tracks dets).stage1 false)
        (associate m cfg coasted tracks dets).stage3 false := rfl

theorem associate_unmatchedMature :
    (associate m cfg coasted tracks dets).unmatchedMature =
      if cfg.useByte then
        removeMatched (removeMatched (trackPool tracks fun t => ¬t.state = .tentative)
          (associate m cfg coasted tracks dets).stage1 true)
          (associate m cfg coasted tracks dets).stage2 true
      else removeMatched (trackPool tracks fun t => ¬t.state = .tentative)
        (associate m cfg coasted tracks dets).stage1 true := rfl

/-- Stage 2 is a legal association of the recently matched tracks stage 1 left over with the
low-score detections. -/
theorem stage2_legal :
    LegalMatches (tracks.map fun t => t.kf.box)
      ((removeMatched (trackPool tracks fun t => ¬t.state = .tentative)
        (associate m cfg coasted tracks dets).stage1 true).filter fun i =>
          tracks[i]?.any fun t => t.state = .confirmed ∧ t.timeSinceUpdate = 1)
      dets (lowDets cfg dets) cfg.matchThreshLow (associate m cfg coasted tracks dets).stage2 := by
  rw [associate_stage2]
  split_ifs with hbyte
  · exact m.legal _ _ _ _ _ _ _ ((nodup_removeMatched (nodup_trackPool _ _) _ _).filter _)
      (nodup_lowDets cfg dets)
  · exact LegalMatches.nil

/-- Stage 3 is a legal association of the tentative tracks with the high-score detections
stage 1 left over. -/
theorem stage3_legal :
    LegalMatches (tracks.map fun t => t.kf.box) (trackPool tracks fun t => t.state = .tentative)
      dets (removeMatched (highDets cfg dets) (associate m cfg coasted tracks dets).stage1 false)
      (max cfg.tentativeGateFloor
        (cfg.tentativeMatchThresh - cfg.tentativeRelaxPerCoast * coasted))
      (associate m cfg coasted tracks dets).stage3 :=
  m.legal _ _ _ _ _ _ _ (nodup_trackPool _ _) (nodup_removeMatched (nodup_highDets cfg dets) _ _)

/-- Stage 1 pairs confirmed or lost tracks with high-score detections. -/
theorem stage1_mem {p : ℕ × ℕ} (hp : p ∈ (associate m cfg coasted tracks dets).stage1) :
    (∃ t, tracks[p.1]? = some t ∧ t.state ≠ .tentative) ∧ p.2 ∈ highDets cfg dets := by
  have h := stage1_legal m cfg coasted tracks dets
  obtain ⟨t, ht, hs⟩ := mem_trackPool.mp (h.fst_mem p hp)
  exact ⟨⟨t, ht, by simpa using hs⟩, h.snd_mem p hp⟩

/-- Stage 2 pairs confirmed tracks stage 1 left over with low-score detections. -/
theorem stage2_mem {p : ℕ × ℕ} (hp : p ∈ (associate m cfg coasted tracks dets).stage2) :
    (∃ t, tracks[p.1]? = some t ∧ t.state = .confirmed) ∧
      p.1 ∉ (associate m cfg coasted tracks dets).stage1.map Prod.fst ∧
      p.2 ∈ lowDets cfg dets := by
  have h := stage2_legal m cfg coasted tracks dets
  obtain ⟨hrest, hrecent⟩ := List.mem_filter.mp (h.fst_mem p hp)
  obtain ⟨t, ht, hs⟩ := (Option.any_eq_true _ _).mp hrecent
  exact ⟨⟨t, ht, (of_decide_eq_true hs).1⟩, (mem_removeMatched_fst.mp hrest).2, h.snd_mem p hp⟩

/-- Stage 3 pairs tentative tracks with the high-score detections stage 1 left over. -/
theorem stage3_mem {p : ℕ × ℕ} (hp : p ∈ (associate m cfg coasted tracks dets).stage3) :
    (∃ t, tracks[p.1]? = some t ∧ t.state = .tentative) ∧ p.2 ∈ highDets cfg dets ∧
      p.2 ∉ (associate m cfg coasted tracks dets).stage1.map Prod.snd := by
  have h := stage3_legal m cfg coasted tracks dets
  obtain ⟨t, ht, hs⟩ := mem_trackPool.mp (h.fst_mem p hp)
  obtain ⟨hhigh, hfree⟩ := mem_removeMatched_snd.mp (h.snd_mem p hp)
  exact ⟨⟨t, ht, by simpa using hs⟩, hhigh, hfree⟩

/-- Over the three stages, each track takes part in at most one match.

**Proof sketch.** No stage repeats a track.  Stage 2 takes tracks that stage 1 left over, and
stage 3 takes tentative tracks, which the stages before do not. -/
theorem nodup_matched_fst : ((associate m cfg coasted tracks dets).matched.map Prod.fst).Nodup := by
  have h1 := (stage1_legal m cfg coasted tracks dets).nodup_fst
  have h2 := (stage2_legal m cfg coasted tracks dets).nodup_fst
  have h3 := (stage3_legal m cfg coasted tracks dets).nodup_fst
  rw [Associations.matched, List.map_append, List.map_append]
  refine List.nodup_append'.mpr ⟨List.nodup_append'.mpr ⟨h1, h2, ?_⟩, h3, ?_⟩
  · intro i hi1 hi2
    obtain ⟨p, hp, rfl⟩ := List.mem_map.mp hi2
    exact (stage2_mem m cfg coasted tracks dets hp).2.1 hi1
  · intro i hi hi3
    obtain ⟨p, hp, rfl⟩ := List.mem_map.mp hi3
    obtain ⟨⟨t, ht, hs⟩, -⟩ := stage3_mem m cfg coasted tracks dets hp
    rcases List.mem_append.mp hi with hi | hi <;> obtain ⟨q, hq, hqp⟩ := List.mem_map.mp hi
    · obtain ⟨⟨t', ht', hs'⟩, -⟩ := stage1_mem m cfg coasted tracks dets hq
      rw [hqp, ht] at ht'
      exact hs' (Option.some.inj ht' ▸ hs)
    · obtain ⟨⟨t', ht', hs'⟩, -⟩ := stage2_mem m cfg coasted tracks dets hq
      rw [hqp, ht] at ht'
      obtain rfl := Option.some.inj ht'
      rw [hs] at hs'
      exact TrackState.noConfusion hs'

/-- Over the three stages, each detection is used by at most one match.

**Proof sketch.** No stage repeats a detection.  Stage 2 uses low-score detections only, and
stage 3 takes high-score detections that stage 1 left over. -/
theorem nodup_matched_snd : ((associate m cfg coasted tracks dets).matched.map Prod.snd).Nodup := by
  have h1 := (stage1_legal m cfg coasted tracks dets).nodup_snd
  have h2 := (stage2_legal m cfg coasted tracks dets).nodup_snd
  have h3 := (stage3_legal m cfg coasted tracks dets).nodup_snd
  rw [Associations.matched, List.map_append, List.map_append]
  have hlow : ∀ j ∈ (associate m cfg coasted tracks dets).stage2.map Prod.snd,
      j ∉ highDets cfg dets := by
    intro j hj hhigh
    obtain ⟨p, hp, rfl⟩ := List.mem_map.mp hj
    have h := mem_lowDets.mp (stage2_mem m cfg coasted tracks dets hp).2.2
    exact absurd (mem_highDets.mp hhigh).2 (not_le.mpr h.2)
  refine List.nodup_append'.mpr ⟨List.nodup_append'.mpr ⟨h1, h2, ?_⟩, h3, ?_⟩
  · intro j hj1 hj2
    obtain ⟨p, hp, rfl⟩ := List.mem_map.mp hj1
    exact hlow _ hj2 (stage1_mem m cfg coasted tracks dets hp).2
  · intro j hj hj3
    obtain ⟨p, hp, rfl⟩ := List.mem_map.mp hj3
    obtain ⟨-, hhigh, hfree⟩ := stage3_mem m cfg coasted tracks dets hp
    rcases List.mem_append.mp hj with hj | hj
    · exact hfree hj
    · exact hlow _ hj hhigh

/-- Matches point at given detections. -/
theorem matched_snd_lt {p : ℕ × ℕ} (hp : p ∈ (associate m cfg coasted tracks dets).matched) :
    p.2 < dets.length := by
  rw [Associations.matched, List.mem_append, List.mem_append] at hp
  rcases hp with (hp | hp) | hp
  · exact (mem_highDets.mp (stage1_mem m cfg coasted tracks dets hp).2).1
  · exact (mem_lowDets.mp (stage2_mem m cfg coasted tracks dets hp).2.2).1
  · exact (mem_highDets.mp (stage3_mem m cfg coasted tracks dets hp).2.1).1

/-- The mature tracks left over are the unmatched confirmed and lost ones.

**Proof sketch.** The list is the mature pool without the matches of stages 1 and 2; the matches
of stage 3 are of tentative tracks. -/
theorem mem_unmatchedMature {i : ℕ} :
    i ∈ (associate m cfg coasted tracks dets).unmatchedMature ↔
      (∃ t, tracks[i]? = some t ∧ t.state ≠ .tentative) ∧
        i ∉ (associate m cfg coasted tracks dets).matched.map Prod.fst := by
  have hfst : i ∈ (associate m cfg coasted tracks dets).unmatchedMature ↔
      i ∈ trackPool tracks (fun t => ¬t.state = .tentative) ∧
        i ∉ (associate m cfg coasted tracks dets).stage1.map Prod.fst ∧
        i ∉ (associate m cfg coasted tracks dets).stage2.map Prod.fst := by
    rw [associate_unmatchedMature]
    by_cases hbyte : cfg.useByte = true
    · rw [if_pos hbyte, mem_removeMatched_fst, mem_removeMatched_fst, and_assoc]
    · rw [if_neg hbyte, mem_removeMatched_fst, associate_stage2, if_neg hbyte]
      simp
  rw [hfst, mem_trackPool, Associations.matched, List.map_append, List.map_append]
  simp only [List.mem_append, not_or, decide_eq_true_eq]
  constructor
  · rintro ⟨⟨t, ht, hs⟩, h1, h2⟩
    refine ⟨⟨t, ht, hs⟩, ⟨h1, h2⟩, fun h3 => ?_⟩
    obtain ⟨p, hp, rfl⟩ := List.mem_map.mp h3
    obtain ⟨⟨t', ht', hs'⟩, -⟩ := stage3_mem m cfg coasted tracks dets hp
    rw [ht] at ht'
    exact hs (Option.some.inj ht' ▸ hs')
  · rintro ⟨ht, ⟨h1, h2⟩, -⟩
    exact ⟨ht, h1, h2⟩

/-- The tentative tracks left over are the unmatched tentative ones.

**Proof sketch.** The list is the tentative pool without the matches of stage 3; the matches of
the stages before are of mature tracks. -/
theorem mem_unmatchedTentative {i : ℕ} :
    i ∈ (associate m cfg coasted tracks dets).unmatchedTentative ↔
      (∃ t, tracks[i]? = some t ∧ t.state = .tentative) ∧
        i ∉ (associate m cfg coasted tracks dets).matched.map Prod.fst := by
  have hfst : i ∈ (associate m cfg coasted tracks dets).unmatchedTentative ↔
      i ∈ trackPool tracks (fun t => t.state = .tentative) ∧
        i ∉ (associate m cfg coasted tracks dets).stage3.map Prod.fst :=
    mem_removeMatched_fst
  rw [hfst, mem_trackPool, Associations.matched, List.map_append, List.map_append]
  simp only [List.mem_append, not_or, decide_eq_true_eq]
  constructor
  · rintro ⟨⟨t, ht, hs⟩, h3⟩
    refine ⟨⟨t, ht, hs⟩, ⟨fun h => ?_, fun h => ?_⟩, h3⟩ <;>
      obtain ⟨p, hp, rfl⟩ := List.mem_map.mp h
    · obtain ⟨⟨t', ht', hs'⟩, -⟩ := stage1_mem m cfg coasted tracks dets hp
      rw [ht] at ht'
      exact hs' (Option.some.inj ht' ▸ hs)
    · obtain ⟨⟨t', ht', hs'⟩, -⟩ := stage2_mem m cfg coasted tracks dets hp
      rw [ht] at ht'
      obtain rfl := Option.some.inj ht'
      rw [hs] at hs'
      exact TrackState.noConfusion hs'
  · rintro ⟨ht, -, h3⟩
    exact ⟨ht, h3⟩

/-- The detections left over are the high-score ones neither stage 1 nor stage 3 matched. -/
theorem mem_unmatchedHigh {j : ℕ} :
    j ∈ (associate m cfg coasted tracks dets).unmatchedHigh ↔
      j ∈ highDets cfg dets ∧ j ∉ (associate m cfg coasted tracks dets).stage1.map Prod.snd ∧
        j ∉ (associate m cfg coasted tracks dets).stage3.map Prod.snd := by
  rw [← and_assoc, ← mem_removeMatched_snd]
  exact mem_removeMatched_snd

end Associate

/-! ## The fate of a track -/

/-- The limit above which an unmatched track is dropped. -/
def missLimit (cfg : AssocConfig R) (t : STrack R) : ℤ :=
  if t.state = .tentative then cfg.tentativePatience else cfg.maxAge

/-- What an update does to a predicted track, given its fate. -/
def settle (cfg : AssocConfig R) (effDt : R) (dets : List (Detection R)) (fate : Option ℕ)
    (t : STrack R) : STrack R :=
  match fate with
  | some j => markMatched cfg effDt t (dets.getD j default)
  | none => missTrack t

/-- The detection a list of matches gives to track `i`. -/
def Associations.fate (a : Associations) (i : ℕ) : Option ℕ :=
  (a.matched.find? fun p => p.1 = i).map Prod.snd

theorem Associations.mem_of_fate_eq_some {a : Associations} {i j : ℕ} (h : a.fate i = some j) :
    (i, j) ∈ a.matched := by
  rw [Associations.fate, Option.map_eq_some_iff] at h
  obtain ⟨p, hp, rfl⟩ := h
  have hkey : p.1 = i := by simpa using List.find?_some hp
  rw [← hkey]
  exact List.mem_of_find?_eq_some hp

theorem Associations.fate_eq_none_iff {a : Associations} {i : ℕ} :
    a.fate i = none ↔ i ∉ a.matched.map Prod.fst := by
  rw [Associations.fate, Option.map_eq_none_iff, List.find?_eq_none]
  simp only [decide_eq_true_eq, List.mem_map, not_exists, not_and]

/-- With distinct tracks, every match is a fate. -/
theorem Associations.fate_of_mem {a : Associations} (hnd : (a.matched.map Prod.fst).Nodup)
    {i j : ℕ} (h : (i, j) ∈ a.matched) : a.fate i = some j := by
  cases hf : a.fate i with
  | none => exact absurd (List.mem_map_of_mem h) (Associations.fate_eq_none_iff.mp hf)
  | some k =>
    have hk := Associations.mem_of_fate_eq_some hf
    exact congrArg some (Prod.ext_iff.mp (List.inj_on_of_nodup_map hnd hk h rfl)).2

/-! ## Single tracks -/

/-- A match keeps a confirmed track confirmed, revives a lost one, and promotes a tentative
track when its hits reach `nInit`. -/
theorem markMatched_state (cfg : AssocConfig R) (effDt : R) (t : STrack R) (det : Detection R) :
    (markMatched cfg effDt t det).state =
      if t.state = .lost then .confirmed
      else if t.state = .tentative ∧ cfg.nInit ≤ t.hits + 1 then .confirmed else t.state := by
  unfold markMatched
  by_cases hlost : t.state = .lost
  · simp [hlost]
  · simp [hlost]

/-- A miss leaves the state of a track alone, except that a confirmed one is lost. -/
theorem missTrack_state (t : STrack R) :
    (missTrack t).state = if t.state = .confirmed then .lost else t.state := by
  unfold missTrack
  split_ifs <;> rfl

@[simp] theorem missTrack_kf (t : STrack R) : (missTrack t).kf = t.kf := by
  unfold missTrack
  split_ifs <;> rfl

@[simp] theorem missTrack_hits (t : STrack R) : (missTrack t).hits = t.hits := by
  unfold missTrack
  split_ifs <;> rfl

@[simp] theorem missTrack_age (t : STrack R) : (missTrack t).age = t.age := by
  unfold missTrack
  split_ifs <;> rfl

theorem missTrack_timeSinceUpdate (t : STrack R) :
    (missTrack t).timeSinceUpdate = t.timeSinceUpdate := by
  unfold missTrack
  split_ifs <;> rfl

@[simp] theorem missTrack_id (t : STrack R) : (missTrack t).id = t.id := by
  unfold missTrack
  split_ifs <;> rfl

theorem missTrack_of_tentative {t : STrack R} (h : t.state = .tentative) : missTrack t = t := by
  rw [missTrack, if_neg]
  rw [h]
  decide

@[simp] theorem predictTrack_state (dt : R) (warp : Affine23 R) (t : STrack R) :
    (predictTrack dt warp t).state = t.state := rfl

@[simp] theorem predictTrack_hits (dt : R) (warp : Affine23 R) (t : STrack R) :
    (predictTrack dt warp t).hits = t.hits := rfl

@[simp] theorem predictTrack_id (dt : R) (warp : Affine23 R) (t : STrack R) :
    (predictTrack dt warp t).id = t.id := rfl

@[simp] theorem predictTrack_age (dt : R) (warp : Affine23 R) (t : STrack R) :
    (predictTrack dt warp t).age = t.age + 1 := rfl

@[simp] theorem predictTrack_timeSinceUpdate (dt : R) (warp : Affine23 R) (t : STrack R) :
    (predictTrack dt warp t).timeSinceUpdate = t.timeSinceUpdate + 1 := rfl

/-! ## Spawning -/

/-- The detections that spawn a track: the confident ones among those left over. -/
def spawnDets (cfg : AssocConfig R) (dets : List (Detection R)) (left : List ℕ) : List ℕ :=
  left.filter fun j => ¬(dets.getD j default).score < cfg.newTrackThresh

/-- The id counter after `k` spawns. -/
def idAfter (nextId : ℤ) (k : ℕ) : ℤ := (fun x => wrapInt (x + 1))^[k] nextId

@[simp] theorem idAfter_zero (nextId : ℤ) : idAfter nextId 0 = nextId := rfl

theorem idAfter_succ (nextId : ℤ) (k : ℕ) :
    idAfter nextId (k + 1) = idAfter (wrapInt (nextId + 1)) k := rfl

/-- The spawning loop gives the `k`-th spawning detection the `k`-th id. -/
theorem spawnAll_eq (cfg : AssocConfig R) (dets : List (Detection R)) (left : List ℕ)
    (nextId : ℤ) :
    spawnAll cfg dets left nextId =
      ((spawnDets cfg dets left).mapIdx fun k j =>
          spawnTrack cfg (idAfter nextId k) (dets.getD j default),
        idAfter nextId (spawnDets cfg dets left).length) := by
  induction left generalizing nextId with
  | nil => rfl
  | cons j left ih =>
    by_cases h : (dets.getD j default).score < cfg.newTrackThresh
    · have hskip : spawnDets cfg dets (j :: left) = spawnDets cfg dets left :=
        List.filter_cons_of_neg (by simpa using h)
      rw [spawnAll, if_pos h, ih, hskip]
    · have htake : spawnDets cfg dets (j :: left) = j :: spawnDets cfg dets left :=
        List.filter_cons_of_pos (by simpa using h)
      rw [spawnAll, if_neg h, ih, htake, List.mapIdx_cons, List.length_cons, idAfter_succ]
      rfl

namespace ByteTracker

section Update

variable (m : Matcher R) (s : ByteTracker R) (dets : List (Detection R)) (dt : R)
  (warp : Affine23 R)

/-- The detection an update matches track `i` with. -/
def fate (i : ℕ) : Option ℕ := (s.associations m dets dt warp).fate i

/-- A stored track after an update, had it not been dropped. -/
def settled (i : ℕ) (t : STrack R) : STrack R :=
  settle s.cfg (s.coastedDt + dt) dets (s.fate m dets dt warp i) (predictTrack dt warp t)

/-- The indices of the tracks an update keeps, in order. -/
def survivors : List ℕ := kept s.tracks.length (s.removed m dets dt warp)

/-- The detections an update spawns tracks from. -/
def spawners : List ℕ :=
  spawnDets s.cfg dets (s.associations m dets dt warp).unmatchedHigh

@[simp] theorem length_predicted : (s.predicted dt warp).length = s.tracks.length :=
  List.length_map _

theorem getElem?_predicted (i : ℕ) :
    (s.predicted dt warp)[i]? = s.tracks[i]?.map (predictTrack dt warp) := List.getElem?_map

/-- The matching loop corrects the matched tracks and leaves the others as predicted. -/
theorem getElem?_afterMatches (i : ℕ) :
    (s.afterMatches m dets dt warp)[i]? = s.tracks[i]?.map fun t =>
      match s.fate m dets dt warp i with
      | some j => markMatched s.cfg (s.coastedDt + dt) (predictTrack dt warp t)
          (dets.getD j default)
      | none => predictTrack dt warp t := by
  have hnd := nodup_matched_fst m s.cfg s.coastedDt (s.predicted dt warp) dets
  cases hf : s.fate m dets dt warp i with
  | none =>
    rw [afterMatches, getElem?_modifyAll_of_not_mem _ _ (Associations.fate_eq_none_iff.mp hf),
      getElem?_predicted]
  | some j =>
    have hmem := Associations.mem_of_fate_eq_some hf
    refine (getElem?_modifyAll_of_mem Prod.fst _ hnd hmem).trans ?_
    rw [getElem?_predicted, Option.map_map]
    rfl

/-- The tracks the life-cycle loop visits are the unmatched mature ones. -/
theorem mem_unmatchedMature_iff {i : ℕ} :
    i ∈ (s.associations m dets dt warp).unmatchedMature ↔
      (∃ t, s.tracks[i]? = some t ∧ t.state ≠ .tentative) ∧ s.fate m dets dt warp i = none := by
  rw [associations, mem_unmatchedMature, getElem?_predicted]
  refine and_congr ?_ Associations.fate_eq_none_iff.symm
  simp only [Option.map_eq_some_iff]
  constructor
  · intro h
    obtain ⟨_, ⟨t, ht, rfl⟩, hs⟩ := h
    exact ⟨t, ht, hs⟩
  · intro h
    obtain ⟨t, ht, hs⟩ := h
    exact ⟨_, ⟨t, ht, rfl⟩, hs⟩

theorem mem_unmatchedTentative_iff {i : ℕ} :
    i ∈ (s.associations m dets dt warp).unmatchedTentative ↔
      (∃ t, s.tracks[i]? = some t ∧ t.state = .tentative) ∧ s.fate m dets dt warp i = none := by
  rw [associations, mem_unmatchedTentative, getElem?_predicted]
  refine and_congr ?_ Associations.fate_eq_none_iff.symm
  simp only [Option.map_eq_some_iff]
  constructor
  · intro h
    obtain ⟨_, ⟨t, ht, rfl⟩, hs⟩ := h
    exact ⟨t, ht, hs⟩
  · intro h
    obtain ⟨t, ht, hs⟩ := h
    exact ⟨_, ⟨t, ht, rfl⟩, hs⟩

theorem nodup_unmatchedMature : (s.associations m dets dt warp).unmatchedMature.Nodup := by
  rw [associations, associate_unmatchedMature]
  split_ifs
  · exact nodup_removeMatched (nodup_removeMatched (nodup_trackPool _ _) _ _) _ _
  · exact nodup_removeMatched (nodup_trackPool _ _) _ _

/-- After the matching and life-cycle loops every track is settled by its fate.

**Proof sketch.** By cases on whether the track is in the list of mature tracks left over.  If so
it has no match and is missed; if not it was matched, or it is a tentative track, which a miss
leaves alone. -/
theorem getElem?_afterMisses (i : ℕ) :
    (s.afterMisses m dets dt warp)[i]? =
      s.tracks[i]?.map (s.settled m dets dt warp i) := by
  cases ht : s.tracks[i]? with
  | none =>
    rw [Option.map_none, List.getElem?_eq_none_iff, afterMisses, length_modifyAll, afterMatches,
      length_modifyAll, length_predicted]
    exact List.getElem?_eq_none_iff.mp ht
  | some t =>
    have hm := s.getElem?_afterMatches m dets dt warp i
    rw [ht, Option.map_some] at hm
    by_cases hmiss : i ∈ (s.associations m dets dt warp).unmatchedMature
    · have hnone := ((s.mem_unmatchedMature_iff m dets dt warp).mp hmiss).2
      have hnd : ((s.associations m dets dt warp).unmatchedMature.map id).Nodup := by
        rw [List.map_id]
        exact s.nodup_unmatchedMature m dets dt warp
      refine (getElem?_modifyAll_of_mem id (fun _ => missTrack) hnd hmiss).trans ?_
      rw [id, hm]
      simp only [Option.map_some, settled, settle, hnone]
    · rw [afterMisses, getElem?_modifyAll_of_not_mem _ _ (by rwa [List.map_id]), hm, Option.map_some]
      cases hf : s.fate m dets dt warp i with
      | some j => simp only [settled, settle, hf]
      | none =>
        -- an unmatched track outside the mature pool is tentative, which a miss leaves alone
        have htent : t.state = .tentative := by
          by_contra hs
          exact hmiss ((s.mem_unmatchedMature_iff m dets dt warp).mpr ⟨⟨t, ht, hs⟩, hf⟩)
        simp only [settled, settle, hf]
        exact congrArg some (missTrack_of_tentative (t := predictTrack dt warp t) htent).symm

/-- A track is dropped exactly when it is unmatched and its incremented miss counter exceeds
the limit of its state. -/
theorem mem_removed {i : ℕ} {t : STrack R} (ht : s.tracks[i]? = some t) :
    i ∈ s.removed m dets dt warp ↔
      s.fate m dets dt warp i = none ∧ missLimit s.cfg t < t.timeSinceUpdate + 1 := by
  have hm := s.getElem?_afterMatches m dets dt warp i
  rw [ht, Option.map_some] at hm
  simp only [removed, List.mem_append, List.mem_filter, s.mem_unmatchedMature_iff,
    s.mem_unmatchedTentative_iff, ht, hm, Option.some.injEq, exists_eq_left', Option.any_some,
    decide_eq_true_eq, missLimit]
  cases hf : s.fate m dets dt warp i with
  | some j => simp
  | none => by_cases hs : t.state = .tentative <;> simp [hs]

theorem removed_lt {i : ℕ} (hi : i ∈ s.removed m dets dt warp) : i < s.tracks.length := by
  rw [removed, List.mem_append, List.mem_filter, List.mem_filter, s.mem_unmatchedMature_iff,
    s.mem_unmatchedTentative_iff] at hi
  rcases hi with ⟨⟨⟨t, ht, -⟩, -⟩, -⟩ | ⟨⟨⟨t, ht, -⟩, -⟩, -⟩ <;>
    exact (List.getElem?_eq_some_iff.mp ht).1

/-- A track survives exactly when it is matched or within the limit of its state. -/
theorem mem_survivors {i : ℕ} :
    i ∈ s.survivors m dets dt warp ↔ ∃ t, s.tracks[i]? = some t ∧
      (s.fate m dets dt warp i = none → t.timeSinceUpdate + 1 ≤ missLimit s.cfg t) := by
  rw [survivors, mem_kept]
  constructor
  · intro h
    obtain ⟨hlt, hkeep⟩ := h
    refine ⟨s.tracks[i], List.getElem?_eq_getElem hlt, fun hnone => ?_⟩
    rw [s.mem_removed m dets dt warp (List.getElem?_eq_getElem hlt)] at hkeep
    exact not_lt.mp fun hlt => hkeep ⟨hnone, hlt⟩
  · intro h
    obtain ⟨t, ht, hle⟩ := h
    refine ⟨(List.getElem?_eq_some_iff.mp ht).1, fun hrem => ?_⟩
    obtain ⟨hnone, hlt⟩ := (s.mem_removed m dets dt warp ht).mp hrem
    exact absurd (hle hnone) (not_le.mpr hlt)

/-- The tracks spawned by an update. -/
def newborns : List (STrack R) :=
  (s.spawners m dets dt warp).mapIdx fun k j =>
    spawnTrack s.cfg (idAfter s.nextId k) (dets.getD j default)

/-- **The effect of an update.** The survivors, settled by their fates and in their old order,
followed by the newborns in the order of their detections.

**Proof sketch.** The two loops over the stored tracks settle every entry by its fate
(`getElem?_afterMisses`). Compaction keeps the survivors, and all of the spawned tracks, which
lie behind every flagged index. -/
theorem update_tracks :
    (s.update m dets dt warp).2.tracks =
      ((s.survivors m dets dt warp).filterMap fun i =>
        s.tracks[i]?.map (s.settled m dets dt warp i)) ++ s.newborns m dets dt warp := by
  have hlen : (s.afterMisses m dets dt warp).length = s.tracks.length := by
    rw [afterMisses, length_modifyAll, afterMatches, length_modifyAll, length_predicted]
  have hspawn : (s.spawned m dets dt warp).1 = s.newborns m dets dt warp :=
    congrArg Prod.fst (spawnAll_eq s.cfg dets _ s.nextId)
  show compact (s.afterMisses m dets dt warp ++ (s.spawned m dets dt warp).1)
    (s.removed m dets dt warp) = _
  rw [compact_append fun i hi => hlen ▸ s.removed_lt m dets dt warp hi, hspawn, compact_eq, hlen]
  congr 1
  exact List.filterMap_congr fun i _ => s.getElem?_afterMisses m dets dt warp i

theorem update_nextId :
    (s.update m dets dt warp).2.nextId = idAfter s.nextId (s.spawners m dets dt warp).length :=
  congrArg Prod.snd (spawnAll_eq s.cfg dets _ s.nextId)

@[simp] theorem update_cfg : (s.update m dets dt warp).2.cfg = s.cfg := rfl

@[simp] theorem update_coastedDt : (s.update m dets dt warp).2.coastedDt = 0 := rfl

/-- A stored track after an update is a settled survivor or a newborn. -/
theorem mem_update_tracks {u : STrack R} :
    u ∈ (s.update m dets dt warp).2.tracks ↔
      (∃ i t, s.tracks[i]? = some t ∧
        (s.fate m dets dt warp i = none → t.timeSinceUpdate + 1 ≤ missLimit s.cfg t) ∧
        s.settled m dets dt warp i t = u) ∨ u ∈ s.newborns m dets dt warp := by
  rw [update_tracks, List.mem_append, List.mem_filterMap]
  refine or_congr_left ⟨fun h => ?_, fun h => ?_⟩
  · obtain ⟨i, hi, hu⟩ := h
    obtain ⟨t, ht, hle⟩ := (s.mem_survivors m dets dt warp).mp hi
    rw [ht, Option.map_some] at hu
    exact ⟨i, t, ht, hle, Option.some.inj hu⟩
  · obtain ⟨i, t, ht, hle, rfl⟩ := h
    exact ⟨i, (s.mem_survivors m dets dt warp).mpr ⟨t, ht, hle⟩, by rw [ht, Option.map_some]⟩

end Update

@[simp] theorem coast_cfg (s : ByteTracker R) (dt : R) (warp : Affine23 R) :
    (s.coast dt warp).2.cfg = s.cfg := rfl

@[simp] theorem coast_nextId (s : ByteTracker R) (dt : R) (warp : Affine23 R) :
    (s.coast dt warp).2.nextId = s.nextId := rfl

theorem coast_tracks (s : ByteTracker R) (dt : R) (warp : Affine23 R) :
    (s.coast dt warp).2.tracks = s.tracks.map (advance dt warp) := rfl

end ByteTracker

/-! ## Following a track through a call -/

/-- The time step of a call. -/
def Call.dt : Call R → R
  | .update _ _ dt _ => dt
  | .coast dt _ => dt

/-- The warp of a call. -/
def Call.warp : Call R → Affine23 R
  | .update _ _ _ warp => warp
  | .coast _ warp => warp

namespace ByteTracker

/-- The stored track at index `i` is the one at index `k` after the call. -/
def Carries (s : ByteTracker R) : Call R → ℕ → ℕ → Prop
  | .update m dets dt warp, i, k => (s.survivors m dets dt warp)[k]? = some i
  | .coast _ _, i, k => i = k ∧ i < s.tracks.length

/-- The call spawned the track it left at index `k`. -/
def Spawns (s : ByteTracker R) : Call R → ℕ → Prop
  | .update m dets dt warp, k => (s.survivors m dets dt warp).length ≤ k ∧
      k < (s.update m dets dt warp).2.tracks.length
  | .coast _ _, _ => False

/-- The call matched the track stored at index `i` with a detection. -/
def Matches (s : ByteTracker R) : Call R → ℕ → Prop
  | .update m dets dt warp, i => (s.fate m dets dt warp i).isSome = true
  | .coast _ _, _ => False

/-- A stored track after a call that carried it. -/
def carried (s : ByteTracker R) : Call R → ℕ → STrack R → STrack R
  | .update m dets dt warp, i, t => s.settled m dets dt warp i t
  | .coast dt warp, _, t => advance dt warp t

section Update

variable (m : Matcher R) (s : ByteTracker R) (dets : List (Detection R)) (dt : R)
  (warp : Affine23 R)

theorem survivors_isSome : ∀ i ∈ s.survivors m dets dt warp,
    (s.tracks[i]?.map (s.settled m dets dt warp i)).isSome = true := by
  intro i hi
  obtain ⟨t, ht, -⟩ := (s.mem_survivors m dets dt warp).mp hi
  rw [ht]
  rfl

/-- The survivors come first. -/
theorem getElem?_update_of_survivor {i k : ℕ} (h : (s.survivors m dets dt warp)[k]? = some i) :
    (s.update m dets dt warp).2.tracks[k]? = s.tracks[i]?.map (s.settled m dets dt warp i) := by
  have hsome := s.survivors_isSome m dets dt warp
  have hk := (List.getElem?_eq_some_iff.mp h).1
  rw [update_tracks, List.getElem?_append_left (by rwa [length_filterMap_of_isSome hsome]),
    getElem?_filterMap_of_isSome hsome, h]
  rfl

/-- The newborns follow. -/
theorem getElem?_update_of_le {k : ℕ} (h : (s.survivors m dets dt warp).length ≤ k) :
    (s.update m dets dt warp).2.tracks[k]? =
      (s.newborns m dets dt warp)[k - (s.survivors m dets dt warp).length]? := by
  have hlen := length_filterMap_of_isSome (s.survivors_isSome m dets dt warp)
  rw [update_tracks, List.getElem?_append_right (by rwa [hlen]), hlen]

end Update

variable (s : ByteTracker R)

/-- A carried track is the old one, predicted and settled. -/
theorem getElem?_step_of_carries {c : Call R} {i k : ℕ} (h : s.Carries c i k) :
    (s.step c).2.tracks[k]? = s.tracks[i]?.map (s.carried c i) := by
  cases c with
  | update m dets dt warp => exact s.getElem?_update_of_survivor m dets dt warp h
  | coast dt warp =>
    obtain ⟨rfl, -⟩ := h
    exact List.getElem?_map

/-- Every track after a call was carried through it or spawned by it. -/
theorem carries_or_spawns {c : Call R} {k : ℕ} {u : STrack R}
    (h : (s.step c).2.tracks[k]? = some u) :
    (∃ i t, s.Carries c i k ∧ s.tracks[i]? = some t ∧ u = s.carried c i t) ∨ s.Spawns c k := by
  have hcarried : ∀ i, s.Carries c i k →
      ∃ i t, s.Carries c i k ∧ s.tracks[i]? = some t ∧ u = s.carried c i t := by
    intro i hi
    rw [s.getElem?_step_of_carries hi, Option.map_eq_some_iff] at h
    obtain ⟨t, ht, hu⟩ := h
    exact ⟨i, t, hi, ht, hu.symm⟩
  cases c with
  | update m dets dt warp =>
    by_cases hk : k < (s.survivors m dets dt warp).length
    · exact Or.inl (hcarried _ (List.getElem?_eq_getElem hk))
    · exact Or.inr ⟨not_lt.mp hk, (List.getElem?_eq_some_iff.mp h).1⟩
  | coast dt warp =>
    rw [step, coast_tracks] at h
    have hk := (List.getElem?_eq_some_iff.mp h).1
    rw [List.length_map] at hk
    exact Or.inl (hcarried k ⟨rfl, hk⟩)

/-- A carried track keeps its id. -/
theorem carried_id (c : Call R) (i : ℕ) (t : STrack R) :
    (s.carried c i t).id = t.id := by
  cases c with
  | coast dt warp => rfl
  | update m dets dt warp =>
    simp only [carried, settled, settle]
    cases s.fate m dets dt warp i with
    | some j => rfl
    | none => exact missTrack_id _

/-- Only stored tracks are carried. -/
theorem exists_of_carries {c : Call R} {i k : ℕ} (h : s.Carries c i k) :
    ∃ t, s.tracks[i]? = some t := by
  cases c with
  | update m dets dt warp =>
    obtain ⟨t, ht, -⟩ := (s.mem_survivors m dets dt warp).mp (List.mem_of_getElem? h)
    exact ⟨t, ht⟩
  | coast dt warp => exact ⟨_, List.getElem?_eq_getElem h.2⟩

/-- A spawned track was initiated from a detection. -/
theorem getElem?_step_of_spawns {c : Call R} {k : ℕ} (hk : s.Spawns c k) :
    ∃ id det, (s.step c).2.tracks[k]? = some (spawnTrack s.cfg id det) := by
  cases c with
  | update m dets dt warp =>
    have hu := List.getElem?_eq_getElem hk.2
    have hnew := hu
    rw [s.getElem?_update_of_le m dets dt warp hk.1, newborns, List.getElem?_mapIdx,
      Option.map_eq_some_iff] at hnew
    obtain ⟨j, -, hj⟩ := hnew
    exact ⟨_, _, hu.trans (congrArg some hj.symm)⟩
  | coast dt warp => exact hk.elim

/-- A track is carried through a call, or the call is an update that leaves it unmatched above
its limit. -/
theorem carries_or_dropped (c : Call R) {i : ℕ} {t : STrack R} (ht : s.tracks[i]? = some t) :
    (∃ k, s.Carries c i k) ∨ (∃ m dets dt warp, c = .update m dets dt warp ∧
      s.fate m dets dt warp i = none ∧ missLimit s.cfg t < t.timeSinceUpdate + 1) := by
  cases c with
  | update m dets dt warp =>
    by_cases hdrop : s.fate m dets dt warp i = none ∧ missLimit s.cfg t < t.timeSinceUpdate + 1
    · exact Or.inr ⟨m, dets, dt, warp, rfl, hdrop⟩
    · refine Or.inl (List.mem_iff_getElem?.mp ((s.mem_survivors m dets dt warp).mpr ⟨t, ht, ?_⟩))
      exact fun hnone => not_lt.mp fun hlt => hdrop ⟨hnone, hlt⟩
  | coast dt warp => exact Or.inl ⟨i, rfl, (List.getElem?_eq_some_iff.mp ht).1⟩

end ByteTracker

/-! ## Runs -/

namespace ByteTracker

@[simp] theorem step_cfg (s : ByteTracker R) (c : Call R) : (s.step c).2.cfg = s.cfg := by
  cases c <;> rfl

/-- Every call reports the tracks it leaves. -/
theorem step_report (s : ByteTracker R) (c : Call R) :
    (s.step c).1 = (s.step c).2.tracks.map STrack.report := by
  cases c <;> rfl

@[simp] theorem run_nil (s : ByteTracker R) : s.run [] = s := rfl

theorem run_append (s : ByteTracker R) (cs ds : List (Call R)) :
    s.run (cs ++ ds) = (s.run cs).run ds := List.foldl_append

@[simp] theorem run_concat (s : ByteTracker R) (cs : List (Call R)) (c : Call R) :
    s.run (cs ++ [c]) = ((s.run cs).step c).2 := by
  rw [run_append]
  rfl

@[simp] theorem run_cfg (s : ByteTracker R) (cs : List (Call R)) : (s.run cs).cfg = s.cfg := by
  induction cs using List.reverseRecOn with
  | nil => rfl
  | append_singleton cs c ih => rw [run_concat, step_cfg, ih]

/-- The `a`-th call reports the tracks stored after it. -/
theorem getD_outputs (s : ByteTracker R) {cs : List (Call R)} {a : ℕ} (ha : a < cs.length) :
    (s.outputs cs).getD a [] = (s.run (cs.take (a + 1))).tracks.map STrack.report := by
  induction cs generalizing s a with
  | nil => exact absurd ha (Nat.not_lt_zero a)
  | cons c cs ih =>
    cases a with
    | zero => exact step_report s c
    | succ a => exact ih (s.step c).2 (Nat.lt_of_succ_lt_succ ha)

/-- What one call preserves, a run preserves. -/
theorem run_induction {P : ByteTracker R → Prop} (hstep : ∀ s c, P s → P (s.step c).2)
    {s : ByteTracker R} (hs : P s) (cs : List (Call R)) : P (s.run cs) := by
  induction cs using List.reverseRecOn with
  | nil => exact hs
  | append_singleton cs c ih =>
    rw [run_concat]
    exact hstep _ _ ih

end ByteTracker

end Ctrk
