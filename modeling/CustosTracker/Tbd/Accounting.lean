import CustosTracker.Tbd.Step

set_option relaxedAutoImplicit false
set_option autoImplicit false

/-!
# Detection and track accounting

Where every track and every detection of one update goes: the three stages together are
one-to-one, a detection is matched or spawns but never both, and the stored tracks after the
update are the survivors in their old order followed by the spawned ones.

## Main results

* `Ctrk.ByteTracker.mem_spawners` — which detections spawn a track.
* `Ctrk.ByteTracker.length_survivors` — every track survives or is pruned.
* `Ctrk.ByteTracker.update_accounting` — the accounting of one update.
-/

namespace Ctrk

open Indexed

variable {R : Type} [Scalar R]

namespace ByteTracker

variable (m : Matcher R) (s : ByteTracker R) (dets : List (Detection R)) (dt : R)
  (warp : Affine23 R)

/-! ## Detections -/

/-- A detection spawns a track exactly when it is confident enough for both thresholds and
neither stage 1 nor stage 3 matched it. -/
theorem mem_spawners {j : ℕ} :
    j ∈ s.spawners m dets dt warp ↔ j < dets.length ∧
      s.cfg.trackThresh ≤ (dets.getD j default).score ∧
      s.cfg.newTrackThresh ≤ (dets.getD j default).score ∧
      j ∉ (s.associations m dets dt warp).stage1.map Prod.snd ∧
      j ∉ (s.associations m dets dt warp).stage3.map Prod.snd := by
  rw [spawners, spawnDets, List.mem_filter, associations, mem_unmatchedHigh, mem_highDets]
  simp only [decide_eq_true_eq, not_lt]
  tauto

/-- Spawning follows the order of the detections. -/
theorem pairwise_spawners : (s.spawners m dets dt warp).Pairwise (· < ·) :=
  (((List.pairwise_lt_range.filter _).filter _).filter _).filter _

/-- A low-score detection takes part in stage 2 only. -/
theorem low_not_mem {j : ℕ} (hlow : (dets.getD j default).score < s.cfg.trackThresh) :
    j ∉ (s.associations m dets dt warp).stage1.map Prod.snd ∧
      j ∉ (s.associations m dets dt warp).stage3.map Prod.snd ∧
      j ∉ s.spawners m dets dt warp := by
  refine ⟨fun h => ?_, fun h => ?_, fun h => ?_⟩
  · obtain ⟨p, hp, rfl⟩ := List.mem_map.mp h
    have hhigh := (stage1_mem m s.cfg s.coastedDt _ dets hp).2
    exact absurd (mem_highDets.mp hhigh).2 (not_le.mpr hlow)
  · obtain ⟨p, hp, rfl⟩ := List.mem_map.mp h
    have hhigh := (stage3_mem m s.cfg s.coastedDt _ dets hp).2.1
    exact absurd (mem_highDets.mp hhigh).2 (not_le.mpr hlow)
  · exact absurd ((s.mem_spawners m dets dt warp).mp h).2.1 (not_le.mpr hlow)

/-- A detection is used at most once: by one match, or by one spawned track. -/
theorem nodup_used : ((s.associations m dets dt warp).matched.map Prod.snd ++
    s.spawners m dets dt warp).Nodup := by
  have hnd := nodup_matched_snd m s.cfg s.coastedDt (s.predicted dt warp) dets
  have hspawn := (s.pairwise_spawners m dets dt warp).imp fun h => Nat.ne_of_lt h
  refine List.nodup_append'.mpr ⟨hnd, hspawn, ?_⟩
  intro j hj hs
  obtain ⟨-, hhigh, -, h1, h3⟩ := (s.mem_spawners m dets dt warp).mp hs
  rw [Associations.matched, List.map_append, List.map_append, List.mem_append,
    List.mem_append] at hj
  rcases hj with (hj | hj) | hj
  · exact h1 hj
  · -- stage 2 only sees low-score detections
    obtain ⟨p, hp, rfl⟩ := List.mem_map.mp hj
    have hlow := (stage2_mem m s.cfg s.coastedDt _ dets hp).2.2
    exact absurd hhigh (not_le.mpr (mem_lowDets.mp hlow).2)
  · exact h3 hj

/-! ## Tracks -/

/-- No track is pruned twice. -/
theorem nodup_removed : (s.removed m dets dt warp).Nodup := by
  have hmature := s.nodup_unmatchedMature m dets dt warp
  have htent : (s.associations m dets dt warp).unmatchedTentative.Nodup :=
    nodup_removeMatched (nodup_trackPool _ _) _ _
  refine List.nodup_append'.mpr ⟨htent.filter _, hmature.filter _, ?_⟩
  intro i hi hi'
  obtain ⟨⟨t, ht, hs⟩, -⟩ := (s.mem_unmatchedTentative_iff m dets dt warp).mp
    (List.mem_of_mem_filter hi)
  obtain ⟨⟨t', ht', hs'⟩, -⟩ := (s.mem_unmatchedMature_iff m dets dt warp).mp
    (List.mem_of_mem_filter hi')
  rw [ht] at ht'
  exact hs' (Option.some.inj ht' ▸ hs)

/-- Every stored track survives or is pruned. -/
theorem length_survivors :
    (s.survivors m dets dt warp).length + (s.removed m dets dt warp).length = s.tracks.length :=
  length_kept (s.nodup_removed m dets dt warp) fun _ hi => s.removed_lt m dets dt warp hi

theorem length_update :
    (s.update m dets dt warp).2.tracks.length =
      (s.survivors m dets dt warp).length + (s.spawners m dets dt warp).length := by
  rw [update_tracks, List.length_append,
    length_filterMap_of_isSome (s.survivors_isSome m dets dt warp), newborns, List.length_mapIdx]

/-- The tracks spawned by an update follow its survivors, in the order of their detections. -/
theorem getElem?_update_of_spawner {k j : ℕ} (h : (s.spawners m dets dt warp)[k]? = some j) :
    (s.update m dets dt warp).2.tracks[(s.survivors m dets dt warp).length + k]? =
      some (spawnTrack s.cfg (idAfter s.nextId k) (dets.getD j default)) := by
  rw [s.getElem?_update_of_le m dets dt warp (Nat.le_add_right _ k), Nat.add_sub_cancel_left,
    newborns, List.getElem?_mapIdx, h]
  rfl

end ByteTracker

end Ctrk
