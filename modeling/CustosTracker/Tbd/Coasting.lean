import CustosTracker.Common.Motion
import CustosTracker.Tbd.Schedule

set_option relaxedAutoImplicit false
set_option autoImplicit false

/-!
# Coasting

Between two updates the tracker only advances its filters.  The centre of a track moves as a point
that drifts while the camera moves, and without camera motion only the time that has passed counts,
not the calls it was split into.

## Main definitions

* `Ctrk.coasts` — a sequence of coast calls.
* `Ctrk.ByteTracker.FiltersClamped` — every stored mean is within the clamps.

## Main results

* `Ctrk.ByteTracker.run_coasts` — coasts advance every track.
* `Ctrk.ByteTracker.coast_composes` — the closed form of a sequence of coasts.
* `Ctrk.ByteTracker.coast_splits` — only the time of the coasts counts.
-/

namespace Ctrk

variable {R : Type} [Scalar R]

/-- A sequence of coast calls. -/
def coasts (steps : List (R × Affine23 R)) : List (Call R) :=
  steps.map fun p => .coast p.1 p.2

/-- A track after a sequence of coasts. -/
def advanceAll (steps : List (R × Affine23 R)) (t : STrack R) : STrack R :=
  steps.foldl (fun t p => advance p.1 p.2 t) t

theorem advanceAll_concat (steps : List (R × Affine23 R)) (p : R × Affine23 R) (t : STrack R) :
    advanceAll (steps ++ [p]) t = advance p.1 p.2 (advanceAll steps t) := by
  rw [advanceAll, List.foldl_append]
  rfl

namespace ByteTracker

/-- Coasts advance every track. -/
theorem run_coasts (s : ByteTracker R) (steps : List (R × Affine23 R)) :
    (s.run (coasts steps)).tracks = s.tracks.map (advanceAll steps) := by
  induction steps using List.reverseRecOn with
  | nil => exact (List.map_id s.tracks).symm
  | append_singleton steps p ih =>
    have hsplit : coasts (steps ++ [p]) = coasts steps ++ [.coast p.1 p.2] := List.map_append
    rw [hsplit, run_concat, step, coast_tracks, ih, List.map_map]
    refine List.map_congr_left fun t _ => ?_
    exact (advanceAll_concat steps p t).symm

end ByteTracker

/-! ## With camera motion -/

/-- The moves of the plane a sequence of coasts stands for. -/
def coastMoves (steps : List (R × Affine23 R)) : List (R × ((R × R) →ᵃ[R] (R × R))) :=
  steps.map fun p => (p.1, p.2.toAffineMap)

/-- One coast moves the centre as a point of the plane; skipping the identity warp does not
matter. -/
theorem advance_centre_velocity (dt : R) (warp : Affine23 R) (t : STrack R) :
    ((advance dt warp t).kf.centre, (advance dt warp t).kf.velocity) =
      AffineMotion.move (t.kf.centre, t.kf.velocity) (dt, warp.toAffineMap) := by
  change ((if warp.identity then t.kf.predict dt else (t.kf.predict dt).applyAffine warp).centre,
    (if warp.identity then t.kf.predict dt else (t.kf.predict dt).applyAffine warp).velocity) = _
  split_ifs with hid
  · rw [Affine23.eq_id_of_identity hid, Affine23.toAffineMap_id, KalmanBox.predict_centre,
      KalmanBox.predict_velocity]
    rfl
  · exact t.kf.predict_applyAffine dt warp

/-- Coasts move the centre as a point of the plane. -/
theorem advanceAll_centre_velocity (steps : List (R × Affine23 R)) (t : STrack R) :
    ((advanceAll steps t).kf.centre, (advanceAll steps t).kf.velocity) =
      (coastMoves steps).foldl AffineMotion.move (t.kf.centre, t.kf.velocity) := by
  induction steps using List.reverseRecOn with
  | nil => rfl
  | append_singleton steps p ih =>
    have hsplit : coastMoves (steps ++ [p]) = coastMoves steps ++ [(p.1, p.2.toAffineMap)] :=
      List.map_append
    rw [advanceAll_concat, advance_centre_velocity, ih, hsplit, List.foldl_append]
    rfl

namespace ByteTracker

/-- **Warps compose along coasts.** From any state, after coasts with any time steps and any warps,
the centre of a track is the image of its drift for the whole time under all warps in turn, and its
velocity is turned by all linear parts; and in every state a run of a fresh tracker reaches,
skipping an identity warp leaves mean and covariance as applying it would.

**Proof sketch.** A coast moves the centre by its velocity and then by the warp, and the velocity
by the linear part.  Such moves compose to one affine motion by the library.  A reachable filter
is valid, and a valid filter is not changed by the identity warp. -/
theorem coast_composes [LawfulScalar R] :
    (∀ (s : ByteTracker R) (steps : List (R × Affine23 R)) (i : ℕ) (t : STrack R),
      s.tracks[i]? = some t →
      let W := AffineMotion.composed (coastMoves steps)
      ∃ u, (s.run (coasts steps)).tracks[i]? = some u ∧
        u.kf.centre = W (t.kf.centre + (steps.map Prod.fst).sum • t.kf.velocity) ∧
        u.kf.velocity = W.linear t.kf.velocity) ∧
    ∀ (cfg : AssocConfig R) (cs : List (Call R)), ∀ t ∈ ((new cfg).run cs).tracks,
      ∀ (dt : R) (warp : Affine23 R), warp.identity = true →
        (advance dt warp t).kf = t.kf.predict dt ∧
          (t.kf.predict dt).applyAffine warp = t.kf.predict dt := by
  refine ⟨fun s steps i t ht => ?_, fun cfg cs t ht dt warp hid => ⟨if_pos hid, ?_⟩⟩
  · have hmoves := advanceAll_centre_velocity steps t
    rw [AffineMotion.foldl_move] at hmoves
    obtain ⟨hcentre, hvelocity⟩ := Prod.mk.inj hmoves
    have helapsed : AffineMotion.elapsed (coastMoves steps) = (steps.map Prod.fst).sum := by
      rw [AffineMotion.elapsed, coastMoves, List.map_map]
      rfl
    refine ⟨advanceAll steps t, ?_, helapsed ▸ hcentre, hvelocity⟩
    rw [run_coasts, List.getElem?_map, ht, Option.map_some]
  · rw [Affine23.eq_id_of_identity hid]
    exact ((filtersValid_run cfg cs t ht).predict dt).applyAffine_id

end ByteTracker

/-! ## Without camera motion -/

namespace ByteTracker

/-- Every stored mean is within the clamps. -/
def FiltersClamped (s : ByteTracker R) : Prop := ∀ t ∈ s.tracks, t.kf.Clamped

section Clamped

variable [IsStrictOrderedRing R]

/-- An advanced mean is within the clamps. -/
theorem clamped_advance (dt : R) (warp : Affine23 R) (t : STrack R) :
    (advance dt warp t).kf.Clamped := by
  change KalmanBox.Clamped (if warp.identity then t.kf.predict dt
    else (t.kf.predict dt).applyAffine warp)
  split_ifs
  · exact KalmanBox.clamped_clampState
  · exact KalmanBox.clamped_clampState

/-- A call leaves every stored mean within the clamps. -/
theorem clamped_step (s : ByteTracker R) (c : Call R) : (s.step c).2.FiltersClamped := by
  intro u hu
  obtain ⟨k, hk⟩ := List.mem_iff_getElem?.mp hu
  rcases s.carries_or_spawns hk with ⟨i, t, -, -, rfl⟩ | hspawns
  · cases c with
    | coast dt warp => exact clamped_advance dt warp t
    | update m dets dt warp =>
      change KalmanBox.Clamped (settle s.cfg (s.coastedDt + dt) dets (s.fate m dets dt warp i)
        (predictTrack dt warp t)).kf
      cases s.fate m dets dt warp i with
      | none =>
        rw [settle, missTrack_kf]
        exact clamped_advance dt warp t
      | some j => exact KalmanBox.clamped_clampState
  · obtain ⟨id, det, hspawn⟩ := s.getElem?_step_of_spawns hspawns
    rw [hk] at hspawn
    rw [Option.some.inj hspawn]
    exact KalmanBox.clamped_clampState

/-- Every stored mean is within the clamps after every run. -/
theorem filtersClamped_run (cfg : AssocConfig R) (cs : List (Call R)) :
    ((new cfg).run cs).FiltersClamped :=
  run_induction (fun s c _ => s.clamped_step c) (fun _ ht => absurd ht List.not_mem_nil) cs

omit [IsStrictOrderedRing R] in
/-- Coasts without camera motion only predict. -/
theorem advanceAll_kf {steps : List (R × Affine23 R)} (hsteps : ∀ p ∈ steps, p.2.identity = true)
    (t : STrack R) : (advanceAll steps t).kf = (steps.map Prod.fst).foldl KalmanBox.predict t.kf := by
  induction steps generalizing t with
  | nil => rfl
  | cons p steps ih =>
    have hp : (advance p.1 p.2 t).kf = t.kf.predict p.1 := if_pos (hsteps p List.mem_cons_self)
    have hrest := ih (fun q hq => hsteps q (List.mem_cons_of_mem p hq)) (advance p.1 p.2 t)
    rw [List.map_cons, List.foldl_cons, ← hp]
    exact hrest

/-- The box an update associates on after coasts without camera motion.

**Proof sketch.** Without camera motion the coasts and the prediction of the update are
predictions only, so their means compose, and the warp of the update acts on equal means alike. -/
theorem box_predictTrack_advanceAll {steps : List (R × Affine23 R)}
    (hsteps : ∀ p ∈ steps, 0 ≤ p.1 ∧ p.2.identity = true) {dt : R} (hdt : 0 ≤ dt)
    (warp : Affine23 R) {t : STrack R} (ht : t.kf.Clamped) :
    (predictTrack dt warp (advanceAll steps t)).kf.box =
      (advance ((steps.map Prod.fst).sum + dt) warp t).kf.box := by
  have hmean : ((advanceAll steps t).kf.predict dt).mean =
      (t.kf.predict ((steps.map Prod.fst).sum + dt)).mean := by
    have hdts : ∀ a ∈ steps.map Prod.fst ++ [dt], 0 ≤ a := by
      intro a ha
      rcases List.mem_append.mp ha with ha | ha
      · obtain ⟨p, hp, rfl⟩ := List.mem_map.mp ha
        exact (hsteps p hp).1
      · rw [List.mem_singleton.mp ha]
        exact hdt
    have hsplit := KalmanBox.foldl_predict_mean ht hdts
    rw [List.foldl_append, List.sum_append, List.sum_singleton] at hsplit
    rw [advanceAll_kf (fun p hp => (hsteps p hp).2), ← hsplit]
    rfl
  apply KalmanBox.box_congr
  change (if warp.identity then (advanceAll steps t).kf.predict dt
      else ((advanceAll steps t).kf.predict dt).applyAffine warp).mean =
    (if warp.identity then t.kf.predict ((steps.map Prod.fst).sum + dt)
      else (t.kf.predict ((steps.map Prod.fst).sum + dt)).applyAffine warp).mean
  split_ifs
  · exact hmean
  · exact KalmanBox.applyAffine_mean_congr hmean warp

/-- **Splitting a prediction does not matter.** For a mean within the clamps, predictions by steps
that are not negative end at the mean of one prediction by their sum; so the boxes an update
associates on after coasts without camera motion depend on the time that has passed only, in every
state that a run of a fresh tracker reaches.

**Proof sketch.** One prediction of a clamped mean is the drift with its size clamped again, and
two clamped drifts of the same sign clamp like their sum.  Stored filters are clamped in every
reachable state. -/
theorem coast_splits :
    (∀ (k : KalmanBox R), 1 / 20 ≤ k.mean 2 → k.mean 2 ≤ 20 → 1 ≤ k.mean 3 →
      ∀ dts : List R, (∀ dt ∈ dts, 0 ≤ dt) →
        (dts.foldl KalmanBox.predict k).mean = (k.predict dts.sum).mean) ∧
    ∀ (cfg : AssocConfig R) (cs : List (Call R)) (steps : List (R × Affine23 R)),
      (∀ p ∈ steps, 0 ≤ p.1 ∧ p.2.identity = true) → ∀ (dt : R) (warp : Affine23 R), 0 ≤ dt →
        let s := (new cfg).run cs
        ((s.run (coasts steps)).predicted dt warp).map (fun t => t.kf.box) =
          s.tracks.map fun t => (advance ((steps.map Prod.fst).sum + dt) warp t).kf.box := by
  refine ⟨fun k hge hle hheight dts hdts => KalmanBox.foldl_predict_mean ⟨hge, hle, hheight⟩ hdts, ?_⟩
  intro cfg cs steps hsteps dt warp hdt s
  rw [predicted, run_coasts, List.map_map, List.map_map]
  refine List.map_congr_left fun t ht => ?_
  exact box_predictTrack_advanceAll hsteps hdt warp (filtersClamped_run cfg cs t ht)

end Clamped

/-- A walking target seen by a camera that pans and then holds still. -/
theorem coast_composes_pan :
    let t : STrack ℝ :=
      { kf := ⟨![0, 0, 1, 10, 1, 2, 0, 0], 1⟩
        id := 1
        state := .confirmed
        score := 1
        classId := 0 }
    let s : ByteTracker ℝ := { cfg := {}, tracks := [t] }
    let steps : List (ℝ × Affine23 ℝ) := [(1, ⟨1, 0, 3, 0, 1, 0⟩), (2, .id)]
    let W := AffineMotion.composed (coastMoves steps)
    ∃ u, (s.run (coasts steps)).tracks[0]? = some u ∧
      u.kf.centre = W (t.kf.centre + (steps.map Prod.fst).sum • t.kf.velocity) ∧
      u.kf.velocity = W.linear t.kf.velocity := by
  intro t s steps
  exact coast_composes.1 s steps 0 t rfl

/-- A shrinking target, predicted in three steps and in one. -/
theorem coast_splits_shrinking :
    let k : KalmanBox ℚ := ⟨![0, 0, 1, 10, 1, 0, 0, -4], 0⟩
    ([1, 2, 1].foldl KalmanBox.predict k).mean = (k.predict 4).mean := by
  intro k
  have h := coast_splits.1 k (by change (1 / 20 : ℚ) ≤ 1; norm_num)
    (by change (1 : ℚ) ≤ 20; norm_num) (by change (1 : ℚ) ≤ 10; norm_num) [1, 2, 1]
    (by norm_num)
  have hsum : ([1, 2, 1] : List ℚ).sum = 4 := by norm_num
  rwa [hsum] at h

end ByteTracker

end Ctrk
