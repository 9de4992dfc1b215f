import CustosTracker.Tbd.Coasting
import CustosTracker.Tbd.Identity
import CustosTracker.Tbd.Schedule

set_option relaxedAutoImplicit false
set_option autoImplicit false

/-!
# The reports of the facade

What `MultiTracker::update` returns, frame by frame: ids in increasing order, and boxes with a
positive area; and the rows a result file has for them.

## Main definitions

* `Ctrk.DumpRow`, `Ctrk.dumpRows` — the rows a result file has for a frame.
* `Ctrk.MultiTracker.outputs` — the reports of a sequence of frames.
* `Ctrk.MultiTracker.spawnTotal` — the tracks spawned on a sequence of frames.
* `Ctrk.WellFormed` — what every report satisfies.

## Main results

* `Ctrk.MultiTracker.wellFormed_outputs` — every report of a run is well formed.
-/

namespace Ctrk

variable {R : Type} [Scalar R]

/-! ## Positive ids and boxes -/

/-- A filter within the clamps reports a box of positive width and of height at least one. -/
theorem KalmanBox.Clamped.box_pos [IsStrictOrderedRing R] {k : KalmanBox R} (hk : k.Clamped) :
    0 < k.box.w ∧ 1 ≤ k.box.h := by
  have haspect : 0 < k.mean 2 := lt_of_lt_of_le (by norm_num) hk.aspect_ge
  have hheight : 0 < k.mean 3 := zero_lt_one.trans_le hk.one_le_height
  exact ⟨mul_pos haspect hheight, hk.one_le_height⟩

namespace ByteTracker

/-- The ids of the stored tracks are positive. -/
def IdsPositive (s : ByteTracker R) : Prop := ∀ t ∈ s.tracks, 1 ≤ t.id

/-- While the counter does not wrap, ids are positive. -/
theorem idsPositive_run (cfg : AssocConfig R) {cs : List (Call R)}
    (hN : (new cfg).totalSpawned cs < 2 ^ 31 - 1) : ((new cfg).run cs).IdsPositive := by
  induction cs using List.reverseRecOn with
  | nil => exact fun t ht => absurd ht List.not_mem_nil
  | append_singleton cs c ih =>
    rw [totalSpawned_concat] at hN
    obtain ⟨hnext, -⟩ := run_idOrder cfg (show (new cfg).totalSpawned cs < 2 ^ 31 - 1 by omega)
    rw [run_concat]
    intro u hu
    obtain ⟨k, hk⟩ := List.mem_iff_getElem?.mp hu
    rcases step_id (by omega) (by omega) hk with ⟨i, t, -, ht, hid⟩ | ⟨-, hlow, -⟩
    · rw [← hid]
      exact ih (by omega) t (List.mem_of_getElem? ht)
    · omega

end ByteTracker

/-! ## Reports -/

/-- A row of the dump file: frame number, id, box and score. -/
structure DumpRow (R : Type) where
  frame : ℤ
  id : ℤ
  box : BBox R
  score : R
  deriving DecidableEq

/-- The rows of one frame: its confirmed tracks. -/
def dumpRows (frameNo : ℤ) (tracks : List (Track R)) : List (DumpRow R) :=
  (tracks.filter fun t => t.state = .confirmed).map fun t => ⟨frameNo, t.id, t.box, t.score⟩

/-- A report with increasing positive ids and boxes of positive area. -/
structure WellFormed (tracks : List (Track R)) : Prop where
  ids_lt : (tracks.map Track.id).Pairwise (· < ·)
  one_le_id : ∀ t ∈ tracks, 1 ≤ t.id
  box_pos : ∀ t ∈ tracks, 0 < t.box.w ∧ 1 ≤ t.box.h

namespace MultiTracker

variable (ops : TbdOps R)

/-- The reports of a sequence of frames. -/
def outputs (s : MultiTracker R) : List (Frame R) → List (List (Track R))
  | [] => []
  | frame :: frames => (s.update ops frame).1 :: outputs (s.update ops frame).2 frames

theorem outputs_concat (s : MultiTracker R) (frames : List (Frame R)) (frame : Frame R) :
    s.outputs ops (frames ++ [frame]) =
      s.outputs ops frames ++ [((s.run ops frames).update ops frame).1] := by
  induction frames generalizing s with
  | nil => rfl
  | cons first frames ih =>
    rw [List.cons_append, outputs, ih, outputs]
    rfl

theorem calls_concat (s : MultiTracker R) (frames : List (Frame R)) (frame : Frame R) :
    s.calls ops (frames ++ [frame]) =
      s.calls ops frames ++ [(s.run ops frames).call ops frame] := by
  induction frames generalizing s with
  | nil => rfl
  | cons first frames ih =>
    rw [List.cons_append, calls, ih, calls]
    rfl

/-- The number of tracks a fresh facade spawns on a sequence of frames. -/
def spawnTotal (cfg : TbdConfig R) (frames : List (Frame R)) : ℕ :=
  (ByteTracker.new cfg.assoc).totalSpawned ((new cfg).calls ops frames)

/-- A report lists the tracks stored after the frame. -/
theorem update_report (s : MultiTracker R) (frame : Frame R) :
    (s.update ops frame).1 = (s.update ops frame).2.tracker.tracks.map STrack.report := by
  obtain ⟨hreport, htracker⟩ := s.update_eq_step ops frame
  rw [hreport, htracker, ByteTracker.step_report]

variable [IsStrictOrderedRing R]

/-- **Every report of a run is well formed**, while the id counter does not wrap.

**Proof sketch.** By induction on the frames from the end.  The report of the last frame reads
the stored tracks: their ids increase and are positive as long as the counter has not wrapped,
and clamped filters have boxes of positive size. -/
theorem wellFormed_outputs (cfg : TbdConfig R) {frames : List (Frame R)}
    (hspawn : spawnTotal ops cfg frames < 2 ^ 31 - 1) :
    ∀ tracks ∈ (new cfg).outputs ops frames, WellFormed tracks := by
  induction frames using List.reverseRecOn with
  | nil => exact fun tracks htracks => absurd htracks List.not_mem_nil
  | append_singleton frames frame ih =>
    intro tracks htracks
    rw [outputs_concat, List.mem_append, List.mem_singleton] at htracks
    rcases htracks with hold | rfl
    · refine ih ?_ tracks hold
      rw [spawnTotal, calls_concat, ByteTracker.totalSpawned_append] at hspawn
      rw [spawnTotal]
      omega
    · have htracker := run_tracker ops (new cfg) (frames ++ [frame])
      rw [run_concat] at htracker
      rw [update_report, htracker]
      obtain ⟨-, horder⟩ := ByteTracker.run_idOrder cfg.assoc hspawn
      have hpos := ByteTracker.idsPositive_run cfg.assoc hspawn
      have hclamped :=
        ByteTracker.filtersClamped_run cfg.assoc ((new cfg).calls ops (frames ++ [frame]))
      refine ⟨?_, ?_, ?_⟩
      · rw [List.map_map, List.pairwise_map, List.pairwise_iff_getElem]
        intro i j hi hj hij
        exact horder.sorted i j _ _ hij (List.getElem?_eq_getElem hi) (List.getElem?_eq_getElem hj)
      · intro t ht
        obtain ⟨u, hu, rfl⟩ := List.mem_map.mp ht
        exact hpos u hu
      · intro t ht
        obtain ⟨u, hu, rfl⟩ := List.mem_map.mp ht
        exact (hclamped u hu).box_pos

end MultiTracker

end Ctrk
