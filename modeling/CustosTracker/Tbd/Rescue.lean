import CustosTracker.Tbd.SortMode

set_option relaxedAutoImplicit false
set_option autoImplicit false

/-!
# What low-score detections can do

Two updates from one state, with and without the low-score detections of a frame.  Stages 1 and 3
and the spawning loop see the high-score detections only, so all a low-score detection can do is to
match, in stage 2, a confirmed track that stage 1 left over.

## Main definitions

* `Ctrk.ByteTracker.sequel` — a stored track after an update, if it is kept.
* `Ctrk.ByteTracker.Rescued` — a track that a low-score detection kept confirmed.

## Main results

* `Ctrk.ByteTracker.update_tracks_sequel` — the tracks after an update, position by position.
* `Ctrk.ByteTracker.fate_keepHigh` — a fate with the low-score detections and the one without.
* `Ctrk.ByteTracker.low_scores_only_rescue`.
-/

namespace Ctrk

open Indexed

variable {R : Type} [Scalar R]

namespace ByteTracker

/-! ## Position by position -/

section Sequel

variable (m : Matcher R) (s : ByteTracker R) (dets : List (Detection R)) (dt : R)
  (warp : Affine23 R)

/-- The stored track at a position after an update; none when it is dropped. -/
def sequel (i : ℕ) : Option (STrack R) :=
  if i ∈ s.removed m dets dt warp then none else s.tracks[i]?.map (s.settled m dets dt warp i)

/-- The tracks after an update: what is left at each position, and the newborns. -/
theorem update_tracks_sequel : (s.update m dets dt warp).2.tracks =
    (List.range s.tracks.length).filterMap (s.sequel m dets dt warp) ++
      s.newborns m dets dt warp := by
  rw [update_tracks, survivors, kept, List.filterMap_filter]
  refine congrArg (· ++ _) (List.filterMap_congr fun i _ => ?_)
  rw [sequel]
  by_cases hi : i ∈ s.removed m dets dt warp
  · rw [if_pos hi, if_neg (by simpa using hi)]
  · rw [if_neg hi, if_pos (by simpa using hi)]

variable {s} {i : ℕ} {t : STrack R}

/-- A track is dropped, or settled by its fate. -/
theorem sequel_eq (ht : s.tracks[i]? = some t) : s.sequel m dets dt warp i =
    if s.fate m dets dt warp i = none ∧ missLimit s.cfg t < t.timeSinceUpdate + 1 then none
    else some (settle s.cfg (s.coastedDt + dt) dets (s.fate m dets dt warp i)
      (predictTrack dt warp t)) := by
  rw [sequel, ht, Option.map_some, settled]
  exact if_congr (s.mem_removed m dets dt warp ht) rfl rfl

/-- A matched track stays, corrected by its detection. -/
theorem sequel_of_match {j : ℕ} (ht : s.tracks[i]? = some t)
    (hf : s.fate m dets dt warp i = some j) : s.sequel m dets dt warp i =
      some (markMatched s.cfg (s.coastedDt + dt) (predictTrack dt warp t)
        (dets.getD j default)) := by
  rw [sequel_eq m dets dt warp ht, hf, if_neg fun h => Option.some_ne_none j h.1]
  rfl

/-- An unmatched track is dropped above its limit. -/
theorem sequel_of_miss (ht : s.tracks[i]? = some t) (hf : s.fate m dets dt warp i = none) :
    s.sequel m dets dt warp i = if missLimit s.cfg t < t.timeSinceUpdate + 1 then none
      else some (missTrack (predictTrack dt warp t)) := by
  rw [sequel_eq m dets dt warp ht, hf]
  exact if_congr (and_iff_right rfl) rfl rfl

end Sequel

/-! ## With and without the low-score detections -/

section TwoUpdates

variable [IsStrictOrderedRing R] {s : ByteTracker R} (dets : List (Detection R)) (dt : R)
  (warp : Affine23 R)

omit [IsStrictOrderedRing R] in
theorem useByte_eq_self (hbyte : s.cfg.useByte = true) :
    { s.cfg with useByte := true } = s.cfg := by
  rw [← hbyte]

/-- The stages without the low-score detections: stages 1 and 3 match the same, stage 2 nothing. -/
theorem stages_keepHigh (hbyte : s.cfg.useByte = true) :
    (s.associations iouMatcher dets dt warp).stage1 =
        (s.associations iouMatcher (keepHigh s.cfg dets) dt warp).stage1.map
          (Prod.map id (highIndex s.cfg dets)) ∧
      (s.associations iouMatcher (keepHigh s.cfg dets) dt warp).stage2 = [] ∧
      (s.associations iouMatcher dets dt warp).stage3 =
        (s.associations iouMatcher (keepHigh s.cfg dets) dt warp).stage3.map
          (Prod.map id (highIndex s.cfg dets)) := by
  have h1 := stage1_dropLow s.cfg s.coastedDt (s.predicted dt warp) dets
  have h2 := stage2_keepHigh s.cfg s.coastedDt (s.predicted dt warp) dets
  have h3 := stage3_dropLow s.cfg s.coastedDt (s.predicted dt warp) dets
  rw [useByte_eq_self hbyte] at h1 h2 h3
  exact ⟨h1, h2, h3⟩

/-- The spawning loop sees the same without the low-score detections. -/
theorem spawned_keepHigh (hbyte : s.cfg.useByte = true) :
    s.spawned iouMatcher dets dt warp = s.spawned iouMatcher (keepHigh s.cfg dets) dt warp := by
  have hleft := left_dropLow s.cfg s.coastedDt (s.predicted dt warp) dets
  rw [useByte_eq_self hbyte] at hleft
  have hunmatched : (s.associations iouMatcher dets dt warp).unmatchedHigh =
      (s.associations iouMatcher (keepHigh s.cfg dets) dt warp).unmatchedHigh.map
        (highIndex s.cfg dets) := by
    rw [associations, associate_unmatchedHigh, hleft]
    change removeMatched _ (s.associations iouMatcher dets dt warp).stage3 false = _
    rw [(stages_keepHigh dets dt warp hbyte).2.2]
    refine removeMatched_relabel fun j hj p hp h => ?_
    have hp' := lt_length_keepHigh s.cfg dets (stage3_mem _ _ _ _ _ hp).2.1
    exact highIndex_injOn s.cfg dets hp'
      (lt_length_keepHigh s.cfg dets (mem_removeMatched_snd.mp hj).1) h
  rw [spawned, spawned, hunmatched]
  refine spawnAll_relabel s.cfg s.cfg rfl rfl (fun j hj => getD_highIndex s.cfg dets ?_) s.nextId
  exact (mem_highDets.mp ((mem_unmatchedHigh _ _ _ _ _).mp hj).1).1

variable (i : ℕ)

/-- **Fates without the low-score detections.** A track is unmatched with and without them, matched
to the same high-score detection, or matched by stage 2 and unmatched without them.

**Proof sketch.** Dropping the low-score detections leaves stages 1 and 3 as they are, up to the
names of the detections, and empties stage 2.  A track that stage 2 matches is confirmed and was
left over by stage 1, and stage 3 only takes tentative ones. -/
theorem fate_keepHigh (hbyte : s.cfg.useByte = true) :
    (s.fate iouMatcher dets dt warp i = none ∧
      s.fate iouMatcher (keepHigh s.cfg dets) dt warp i = none) ∨
    (∃ k < (keepHigh s.cfg dets).length,
      s.fate iouMatcher dets dt warp i = some (highIndex s.cfg dets k) ∧
      s.fate iouMatcher (keepHigh s.cfg dets) dt warp i = some k) ∨
    ∃ j, (i, j) ∈ (s.associations iouMatcher dets dt warp).stage2 ∧
      s.fate iouMatcher dets dt warp i = some j ∧
      s.fate iouMatcher (keepHigh s.cfg dets) dt warp i = none := by
  obtain ⟨h1, h2, h3⟩ := stages_keepHigh dets dt warp hbyte
  have hnd := nodup_matched_fst iouMatcher s.cfg s.coastedDt (s.predicted dt warp)
    (keepHigh s.cfg dets)
  -- a match without the low-score detections is one with them
  have hmatched : ∀ k, (i, k) ∈ (s.associations iouMatcher (keepHigh s.cfg dets) dt warp).matched ↔
      (i, k) ∈ (s.associations iouMatcher (keepHigh s.cfg dets) dt warp).stage1 ∨
        (i, k) ∈ (s.associations iouMatcher (keepHigh s.cfg dets) dt warp).stage3 := by
    intro k
    rw [Associations.matched, h2, List.append_nil, List.mem_append]
  have hsame : ∀ k, (i, k) ∈ (s.associations iouMatcher (keepHigh s.cfg dets) dt warp).matched →
      k < (keepHigh s.cfg dets).length ∧ s.fate iouMatcher (keepHigh s.cfg dets) dt warp i = some k :=
    fun k hk => ⟨matched_snd_lt _ _ _ _ _ hk, Associations.fate_of_mem hnd hk⟩
  cases hf : s.fate iouMatcher dets dt warp i with
  | none =>
    refine Or.inl ⟨rfl, Associations.fate_eq_none_iff.mpr fun hmem => ?_⟩
    obtain ⟨⟨i', k⟩, hk, rfl⟩ := List.mem_map.mp hmem
    refine Associations.fate_eq_none_iff.mp hf ?_
    refine List.mem_map.mpr ⟨(i', highIndex s.cfg dets k), ?_, rfl⟩
    rw [Associations.matched, List.mem_append, List.mem_append, h1, h3]
    rcases (hmatched k).mp hk with hk | hk
    · exact Or.inl (Or.inl (List.mem_map_of_mem hk))
    · exact Or.inr (List.mem_map_of_mem hk)
  | some j =>
    have hj := Associations.mem_of_fate_eq_some hf
    rw [Associations.matched, List.mem_append, List.mem_append, h1, h3] at hj
    rcases hj with (hj | hj) | hj
    · obtain ⟨⟨i', k⟩, hk, heq⟩ := List.mem_map.mp hj
      obtain ⟨rfl, rfl⟩ := Prod.mk.inj heq
      obtain ⟨hlt, hfate⟩ := hsame k ((hmatched k).mpr (Or.inl hk))
      exact Or.inr (Or.inl ⟨k, hlt, rfl, hfate⟩)
    · refine Or.inr (Or.inr ⟨j, hj, rfl, Associations.fate_eq_none_iff.mpr fun hmem => ?_⟩)
      -- stage 2 takes confirmed tracks that stage 1 left over
      obtain ⟨⟨t, ht, hconfirmed⟩, hleft, -⟩ := stage2_mem _ _ _ _ _ hj
      obtain ⟨⟨i', k⟩, hk, rfl⟩ := List.mem_map.mp hmem
      rcases (hmatched k).mp hk with hk | hk
      · refine hleft (List.mem_map.mpr ⟨(i', highIndex s.cfg dets k), ?_, rfl⟩)
        exact h1 ▸ List.mem_map_of_mem hk
      · obtain ⟨⟨t', ht', htentative⟩, -⟩ := stage3_mem _ _ _ _ _ hk
        obtain rfl := Option.some.inj (ht.symm.trans ht')
        rw [hconfirmed] at htentative
        exact TrackState.noConfusion htentative
    · obtain ⟨⟨i', k⟩, hk, heq⟩ := List.mem_map.mp hj
      obtain ⟨rfl, rfl⟩ := Prod.mk.inj heq
      obtain ⟨hlt, hfate⟩ := hsame k ((hmatched k).mpr (Or.inr hk))
      exact Or.inr (Or.inl ⟨k, hlt, rfl, hfate⟩)

variable {dets dt warp i} {t : STrack R}

/-- A confirmed track that stage 1 left over: a low-score detection keeps it confirmed, and without
it the track is lost, or dropped when no miss is allowed. -/
structure Rescued (s : ByteTracker R) (dets : List (Detection R)) (dt : R) (warp : Affine23 R)
    (i : ℕ) (t : STrack R) : Prop where
  confirmed : t.state = .confirmed
  left_over : i ∉ (s.associations iouMatcher dets dt warp).stage1.map Prod.fst
  matched : ∃ j < dets.length, (dets.getD j default).score < s.cfg.trackThresh ∧
    ∃ u, s.sequel iouMatcher dets dt warp i = some u ∧
      u = markMatched s.cfg (s.coastedDt + dt) (predictTrack dt warp t) (dets.getD j default) ∧
      u.state = .confirmed ∧ u.timeSinceUpdate = 0
  missed : s.sequel iouMatcher (keepHigh s.cfg dets) dt warp i =
    if s.cfg.maxAge < 1 then none else some { predictTrack dt warp t with state := .lost }

/-- A match of stage 2 rescues its track.

**Proof sketch.** Stage 2 takes confirmed tracks with one miss, whose limit is the maximal age,
and matches them to low-score detections.  Without the match the track is missed once more. -/
theorem rescued_of_stage2 (ht : s.tracks[i]? = some t) {j : ℕ}
    (hj : (i, j) ∈ (s.associations iouMatcher dets dt warp).stage2)
    (hf : s.fate iouMatcher dets dt warp i = some j)
    (hf' : s.fate iouMatcher (keepHigh s.cfg dets) dt warp i = none) :
    s.Rescued dets dt warp i t := by
  have hlegal := stage2_legal iouMatcher s.cfg s.coastedDt (s.predicted dt warp) dets
  obtain ⟨-, hleft, hlow⟩ := stage2_mem _ _ _ _ _ hj
  have hrecent := (List.mem_filter.mp (hlegal.fst_mem _ hj)).2
  rw [getElem?_predicted, ht, Option.map_some] at hrecent
  obtain ⟨u, hu, hs⟩ := (Option.any_eq_true _ _).mp hrecent
  obtain rfl := Option.some.inj hu
  obtain ⟨hconfirmed, hmiss⟩ := of_decide_eq_true hs
  rw [predictTrack_state] at hconfirmed
  rw [predictTrack_timeSinceUpdate] at hmiss
  have hlimit : missLimit s.cfg t = s.cfg.maxAge := by
    rw [missLimit, if_neg (by simp [hconfirmed])]
  refine ⟨hconfirmed, hleft, ⟨j, (mem_lowDets.mp hlow).1, (mem_lowDets.mp hlow).2, _,
    sequel_of_match _ _ _ _ ht hf, rfl, ?_, rfl⟩, ?_⟩
  · rw [markMatched_state, predictTrack_state, hconfirmed]
    simp
  · rw [sequel_of_miss _ _ _ _ ht hf', hlimit, hmiss, missTrack,
      if_pos ((predictTrack_state dt warp t).trans hconfirmed)]

end TwoUpdates

/-- **Low-score detections only rescue confirmed tracks.** From every state with `use_byte` on, an
update with all detections and one without the low-score ones advance the id counter alike, spawn
the same tracks, and leave each stored track alike in every field, or dropped in both, unless it is
a confirmed track that stage 1 left over and a low-score detection rescued.

**Proof sketch.** Both updates spawn from the detections that stages 1 and 3 leave over, so they
spawn alike.  A stored track is settled by its fate, and the fates differ only if stage 2 matched
it (`fate_keepHigh`). -/
theorem low_scores_only_rescue [IsStrictOrderedRing R] (s : ByteTracker R)
    (hbyte : s.cfg.useByte = true) (dets : List (Detection R)) (dt : R) (warp : Affine23 R) :
    (s.update iouMatcher dets dt warp).2.nextId =
        (s.update iouMatcher (keepHigh s.cfg dets) dt warp).2.nextId ∧
    ∃ spawned,
      (s.update iouMatcher dets dt warp).2.tracks =
        (List.range s.tracks.length).filterMap (s.sequel iouMatcher dets dt warp) ++ spawned ∧
      (s.update iouMatcher (keepHigh s.cfg dets) dt warp).2.tracks =
        (List.range s.tracks.length).filterMap
          (s.sequel iouMatcher (keepHigh s.cfg dets) dt warp) ++ spawned ∧
      ∀ i t, s.tracks[i]? = some t →
        s.sequel iouMatcher dets dt warp i = s.sequel iouMatcher (keepHigh s.cfg dets) dt warp i ∨
          s.Rescued dets dt warp i t := by
  have hspawned := spawned_keepHigh dets dt warp hbyte
  have hnewborns : ∀ ds, (s.spawned iouMatcher ds dt warp).1 = s.newborns iouMatcher ds dt warp :=
    fun ds => congrArg Prod.fst (spawnAll_eq s.cfg ds _ s.nextId)
  refine ⟨congrArg Prod.snd hspawned, s.newborns iouMatcher dets dt warp,
    s.update_tracks_sequel iouMatcher dets dt warp, ?_, fun i t ht => ?_⟩
  · rw [update_tracks_sequel, ← hnewborns dets, ← hnewborns (keepHigh s.cfg dets), hspawned]
  · rcases fate_keepHigh dets dt warp i hbyte with
      ⟨hf, hf'⟩ | ⟨k, hk, hf, hf'⟩ | ⟨j, hj, hf, hf'⟩
    · left
      rw [sequel_of_miss _ _ _ _ ht hf, sequel_of_miss _ _ _ _ ht hf']
    · left
      rw [sequel_of_match _ _ _ _ ht hf, sequel_of_match _ _ _ _ ht hf', getD_highIndex s.cfg dets hk]
    · exact Or.inr (rescued_of_stage2 ht hj hf hf')

/-- A tracker that has just confirmed one track. -/
def confirmedScene : ByteTracker ℚ :=
  ((new { nInit := 1 }).update iouMatcher [⟨⟨0, 0, 10, 20⟩, 9 / 10, 0, []⟩] 1 .id).2

/-- The track's detection dims. -/
theorem low_scores_only_rescue_dimming :
    let dim : List (Detection ℚ) := [⟨⟨0, 0, 10, 20⟩, 1 / 5, 0, []⟩]
    (confirmedScene.update iouMatcher dim 1 .id).2.nextId =
        (confirmedScene.update iouMatcher (keepHigh confirmedScene.cfg dim) 1 .id).2.nextId ∧
      ∀ i t, confirmedScene.tracks[i]? = some t →
        confirmedScene.sequel iouMatcher dim 1 .id i =
            confirmedScene.sequel iouMatcher (keepHigh confirmedScene.cfg dim) 1 .id i ∨
          confirmedScene.Rescued dim 1 .id i t := by
  intro dim
  obtain ⟨hnext, -, -, -, htracks⟩ := confirmedScene.low_scores_only_rescue rfl dim 1 .id
  exact ⟨hnext, htracks⟩

end ByteTracker

end Ctrk
