import CustosTracker.Library.Selection
import CustosTracker.Sot.Step

set_option relaxedAutoImplicit false
set_option autoImplicit false

/-!
# Which candidate the facade re-acquires

The candidate loop of the re-acquisition is a running optimum over the eligible detections: the
first one of greatest similarity with an embedder, the last one of least distance without.  Only
what this loop returns re-seeds the backend.

## Main definitions

* `Ctrk.SotTracker.Eligible` — the conditions on a candidate.

## Main results

* `Ctrk.SotTracker.foldl_considerCandidate_similarity`,
  `Ctrk.SotTracker.foldl_considerCandidate_distance` — the loop as a running optimum.
* `Ctrk.SotTracker.update_relock` — what an update re-seeds the backend with.
* `Ctrk.SotTracker.candidate_optimal` — both together, along runs.
-/

namespace Ctrk

open Selection

variable {R : Type} [Scalar R] {K : Backend R}

namespace SotTracker

variable (ops : HistOps R)

/-! ## Eligible detections -/

/-- The conditions on a re-acquisition candidate: score, class, size, distance, and with an
embedder the similarity. -/
structure Eligible (s : SotTracker K) (rc : ReacquireConfig R) (img : Image Bgr) (d : Detection R) :
    Prop where
  score : rc.minScore ≤ d.score
  cls : d.classId = rc.classId ∨ rc.classId < 0
  size_low : rc.sizeLow ≤ Scalar.sqrt (d.box.w * d.box.h / (s.lastGood.w * s.lastGood.h))
  size_high : Scalar.sqrt (d.box.w * d.box.h / (s.lastGood.w * s.lastGood.h)) ≤ rc.sizeHigh
  near : s.distance d ≤ s.searchRadius rc
  similar : s.cfg.reid.embedder ≠ .none → s.cfg.reid.accept ≤ s.similarity ops img d.box

variable {s : SotTracker K} {rc : ReacquireConfig R} {img : Image Bgr} {d : Detection R}

/-- The gates are the conditions that do not look at the pixels. -/
theorem passesGates_iff : s.passesGates rc d = true ↔
    rc.minScore ≤ d.score ∧ (d.classId = rc.classId ∨ rc.classId < 0) ∧
      rc.sizeLow ≤ Scalar.sqrt (d.box.w * d.box.h / (s.lastGood.w * s.lastGood.h)) ∧
      Scalar.sqrt (d.box.w * d.box.h / (s.lastGood.w * s.lastGood.h)) ≤ rc.sizeHigh ∧
      s.distance d ≤ s.searchRadius rc := by
  simp only [passesGates, Bool.not_eq_true', Bool.or_eq_false_iff, decide_eq_false_iff_not, not_lt,
    not_or, not_and, ne_eq, not_not, and_assoc]
  refine and_congr_right fun _ => and_congr_left fun _ => ?_
  omega

theorem eligible_iff : s.Eligible ops rc img d ↔ s.passesGates rc d = true ∧
    (s.cfg.reid.embedder ≠ .none → s.cfg.reid.accept ≤ s.similarity ops img d.box) := by
  rw [passesGates_iff]
  constructor
  · rintro ⟨hscore, hcls, hlow, hhigh, hnear, hsimilar⟩
    exact ⟨⟨hscore, hcls, hlow, hhigh, hnear⟩, hsimilar⟩
  · rintro ⟨⟨hscore, hcls, hlow, hhigh, hnear⟩, hsimilar⟩
    exact ⟨hscore, hcls, hlow, hhigh, hnear, hsimilar⟩

instance : DecidablePred (s.Eligible ops rc img) := fun _ =>
  decidable_of_iff _ (eligible_iff ops).symm

/-! ## The candidate loop -/

variable {best : Best R}

/-- **The loop with an embedder.** It keeps the most similar eligible detection, the first of equals,
with its similarity.  The similarity starts at `-1`, below every accepted one.

**Proof sketch.** The loop is a fold that overwrites the candidate and its similarity together,
so it chooses among the eligible detections above the initial similarity.  Accepted similarities
are not negative, hence above `-1`. -/
theorem foldl_considerCandidate_similarity [IsStrictOrderedRing R]
    (hreid : s.cfg.reid.embedder ≠ .none) (haccept : 0 ≤ s.cfg.reid.accept)
    (dets : List (Detection R)) :
    (dets.foldl (s.considerCandidate ops rc img) ⟨none, s.searchRadius rc, -1⟩).cand =
      choose (s.Eligible ops rc img)
        (fun x a => s.similarity ops img a.box < s.similarity ops img x.box) dets := by
  -- the loop overwrites a detection and its similarity
  have hstep : ∀ (best : Option (Detection R) × R) (d : Detection R),
      s.considerCandidate ops rc img ⟨best.1, s.searchRadius rc, best.2⟩ d =
        let next := overwrite (s.Eligible ops rc img) (fun d => s.similarity ops img d.box)
          (fun x a => a < x) best d
        ⟨next.1, s.searchRadius rc, next.2⟩ := by
    intro best d
    simp only [considerCandidate, overwrite, eligible_iff, if_pos hreid, Bool.not_eq_true']
    by_cases hgates : s.passesGates rc d = true
    · by_cases hsim : s.similarity ops img d.box < s.cfg.reid.accept
      · simp [hgates, hsim, hreid, not_le.mpr hsim]
      · by_cases hmore : best.2 < s.similarity ops img d.box
        · simp [hgates, hsim, hmore, not_lt.mp hsim]
        · simp [hgates, hsim, hmore]
    · simp [hgates]
  have hfold := @List.foldl_hom _ _ _ (fun best => Best.mk best.1 (s.searchRadius rc) best.2) _ _
    dets (none, -1) hstep
  rw [hfold, foldl_overwrite _ _ _ fun h h' => h'.trans h]
  refine choose_congr _ _ (fun d => and_iff_left_of_imp fun h => ?_) dets
  have hsim := h.similar hreid
  linarith

/-- **The loop without an embedder.** It keeps the nearest eligible detection, the last of equals,
with its distance.  The distance starts at the radius, which bounds every eligible one.

**Proof sketch.** The loop is a fold that overwrites the candidate and its distance together, so
it chooses among the eligible detections within the initial distance, and every eligible one is
within the radius. -/
theorem foldl_considerCandidate_distance (hreid : s.cfg.reid.embedder = .none)
    (dets : List (Detection R)) :
    (dets.foldl (s.considerCandidate ops rc img) ⟨none, s.searchRadius rc, -1⟩).cand =
      choose (s.Eligible ops rc img) (fun x a => s.distance x ≤ s.distance a) dets := by
  have hno : ¬s.cfg.reid.embedder ≠ .none := fun h => h hreid
  -- the loop overwrites a detection and its distance
  have hstep : ∀ (best : Option (Detection R) × R) (d : Detection R),
      s.considerCandidate ops rc img ⟨best.1, best.2, -1⟩ d =
        let next := overwrite (s.Eligible ops rc img) s.distance (fun x a => x ≤ a) best d
        ⟨next.1, next.2, -1⟩ := by
    intro best d
    simp only [considerCandidate, overwrite, eligible_iff, if_neg hno, Bool.not_eq_true']
    by_cases hgates : s.passesGates rc d = true
    · by_cases hnear : s.distance d ≤ best.2
      · simp [hgates, hnear, hreid]
      · simp [hgates, hnear]
    · simp [hgates]
  have hfold := @List.foldl_hom _ _ _ (fun best => Best.mk best.1 best.2 (-1)) _ _
    dets (none, s.searchRadius rc) hstep
  rw [hfold, foldl_overwrite _ _ _ fun h h' => h.trans h']
  exact choose_congr _ _ (fun d => and_iff_left_of_imp fun h => h.near) dets

/-- Nothing is picked exactly when no detection is eligible. -/
theorem pickCandidate_eq_none_iff [IsStrictOrderedRing R] (haccept : 0 ≤ s.cfg.reid.accept)
    (dets : List (Detection R)) :
    s.pickCandidate ops rc img dets = none ↔ ∀ d ∈ dets, ¬s.Eligible ops rc img d := by
  rw [pickCandidate]
  by_cases hreid : s.cfg.reid.embedder = .none
  · rw [foldl_considerCandidate_distance ops hreid]
    exact choose_eq_none_iff _ _
  · rw [foldl_considerCandidate_similarity ops hreid haccept]
    exact choose_eq_none_iff _ _

/-- With an embedder the first eligible detection of greatest similarity is picked. -/
theorem firstMax_of_pickCandidate [IsStrictOrderedRing R] (hreid : s.cfg.reid.embedder ≠ .none)
    (haccept : 0 ≤ s.cfg.reid.accept) {dets : List (Detection R)}
    (h : s.pickCandidate ops rc img dets = some d) :
    FirstMax (s.Eligible ops rc img) (fun d => s.similarity ops img d.box) dets d := by
  rw [pickCandidate, foldl_considerCandidate_similarity ops hreid haccept] at h
  exact firstMax_of_choose h

/-- Without an embedder the last eligible detection of least distance is picked. -/
theorem lastMin_of_pickCandidate (hreid : s.cfg.reid.embedder = .none) {dets : List (Detection R)}
    (h : s.pickCandidate ops rc img dets = some d) :
    LastMin (s.Eligible ops rc img) s.distance dets d := by
  rw [pickCandidate, foldl_considerCandidate_distance ops hreid] at h
  exact lastMin_of_choose h

/-! ## Re-seeding -/

/-- The facade as the candidate loop of a frame sees it: the backend has seen the frame, and one
more frame counts as lost. -/
def searching (s : SotTracker K) (frame : Frame R) : SotTracker K :=
  { s with backend := (K.update s.backend frame.image).2, framesLost := s.framesLost + 1 }

/-- The backend after a frame: re-seeded with a detection the candidate loop returned, or as its own
update left it. -/
inductive Seeded (s : SotTracker K) (frame : Frame R) (rep : SotReport R) (s' : SotTracker K) : Prop
  | kept (hrelock : rep.relock = none) (hbackend : s'.backend = (K.update s.backend frame.image).2)
  | seeded (rc : ReacquireConfig R) (d : Detection R) (hrelock : rep.relock = some d)
      (hdetector : s.reacquire = some rc)
      (hpick : (s.searching frame).pickCandidate ops rc frame.image frame.detections = some d)
      (hbackend : s'.backend = K.init (K.update s.backend frame.image).2 frame.image d.box)

variable {ops}

/-- The re-acquisition tail re-seeds only with what the candidate loop returns.

**Proof sketch.** Of the branches of the tail only the last re-seeds: the detector is due, and
the candidate loop has returned a detection. -/
theorem reacquireStep_relock {s₀ b s' : SotTracker K} {frame : Frame R} {rep₀ rep : SotReport R}
    (h : b.reacquireStep ops frame rep₀ = some (rep, s'))
    (hbackend : b.backend = (K.update s₀.backend frame.image).2) (hrq : b.reacquire = s₀.reacquire)
    (hseen : ∀ rc, pickCandidate ops { b with framesLost := b.framesLost + 1 } rc frame.image
      frame.detections = (s₀.searching frame).pickCandidate ops rc frame.image frame.detections)
    (hrelock : rep₀.relock = none) :
    Seeded ops s₀ frame rep s' := by
  unfold reacquireStep at h
  split at h
  · obtain ⟨rfl, rfl⟩ := Prod.mk.inj (Option.some.inj h)
    exact .kept hrelock hbackend
  · next rc hrc =>
    simp only at h
    split_ifs at h
    · obtain ⟨rfl, rfl⟩ := Prod.mk.inj (Option.some.inj h)
      exact .kept hrelock hbackend
    · split at h
      · obtain ⟨rfl, rfl⟩ := Prod.mk.inj (Option.some.inj h)
        exact .kept hrelock hbackend
      · next d hd =>
        obtain ⟨rfl, rfl⟩ := Prod.mk.inj (Option.some.inj h)
        exact .seeded rc d rfl (hrq ▸ hrc) (hseen rc ▸ hd) (by rw [← hbackend])

/-- **Re-seeding.** An update re-seeds the backend only with what the candidate loop returns. -/
theorem update_relock {frame : Frame R} {rep : SotReport R} {s' : SotTracker K}
    (h : s.update ops frame = some (rep, s')) : Seeded ops s frame rep s' := by
  unfold update judge at h
  simp only at h
  split at h
  · split_ifs at h
    · obtain ⟨rfl, rfl⟩ := Prod.mk.inj (Option.some.inj h)
      exact .kept rfl rfl
    · obtain ⟨rfl, rfl⟩ := Prod.mk.inj (Option.some.inj h)
      exact .kept rfl rfl
    · exact reacquireStep_relock h rfl rfl (fun _ => rfl) rfl
  · obtain ⟨rfl, rfl⟩ := Prod.mk.inj (Option.some.inj h)
    exact .kept rfl rfl
  · exact reacquireStep_relock h rfl rfl (fun _ => rfl) rfl

/-- A run keeps the configuration. -/
theorem run_cfg {s₀ s : SotTracker K} {calls : List (SotOp R)} {evs : List (SotEvent R)}
    (h : s₀.run ops calls = some (evs, s)) : s.cfg = s₀.cfg := by
  refine Trace.run_induction (P := fun _ s => s.cfg = s₀.cfg) rfl ?_ h
  intro evs s op e s₁ ih hstep
  cases op with
  | init frame target =>
    obtain ⟨-, rfl⟩ := Prod.mk.inj (Option.some.inj hstep)
    exact ih
  | update frame =>
    obtain ⟨⟨rep, s₂⟩, hup, heq⟩ := Option.map_eq_some_iff.mp hstep
    obtain ⟨-, rfl⟩ := Prod.mk.inj heq
    exact (update_keeps ops hup).1.trans ih

/-- The constructor makes the acceptance threshold nonnegative. -/
theorem resolve_accept_nonneg [IsStrictOrderedRing R] (cfg : SotConfig R) :
    0 ≤ cfg.resolve.reid.accept := by
  simp only [SotConfig.resolve]
  split_ifs with hneg
  · norm_num
  · norm_num
  · exact not_lt.mp hneg

/-- A facade that has been started on a target, with a detector. -/
def startedScene : SotTracker (playback : Backend ℚ) :=
  ((new {} []).enableReacquire {}).init pixelOps (blueFrame 0) ⟨0, 0, 4, 4⟩

/-- Two detections at the same distance from the target. -/
def twinDetections : List (Detection ℚ) :=
  [⟨⟨3, 0, 4, 4⟩, 1 / 2, 0, []⟩, ⟨⟨0, 3, 4, 4⟩, 1 / 2, 0, []⟩]

end SotTracker

end Ctrk
