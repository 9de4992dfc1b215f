import CustosTracker.Common.Motion
import CustosTracker.Tbd.Step

set_option relaxedAutoImplicit false
set_option autoImplicit false

/-!
# The elapsed time of a seeded velocity

The first match of a newborn seeds its velocity with the displacement from the detection that
spawned it, over the time since the last update.  A newborn may have missed that update and still
be there, and then the time since it was spawned is longer.

## Main definitions

* `Ctrk.Call.Steady` — a call of positive duration without camera motion.
* `Ctrk.BornFrom` — the detection that spawned a track, and the calls since.
* `Ctrk.seedFilter` — the filter `mark_matched` corrects.

## Main results

* `Ctrk.BornFrom.coastedDt` — the time since the last update against the time since the spawn.
* `Ctrk.BornFrom.waiting` — a track nobody has matched yet rests where it was spawned.
* `Ctrk.velocity_seed_elapsed` — when the seeded velocity is the true one.
-/

namespace Ctrk

open ByteTracker

variable {R : Type} [Scalar R]

/-- A call of positive duration without camera motion. -/
structure Call.Steady (c : Call R) : Prop where
  dt_pos : 0 < c.dt
  identity : c.warp.identity = true

/-- The time of a sequence of calls. -/
def elapsedDt (cs : List (Call R)) : R := (cs.map Call.dt).sum

theorem elapsedDt_concat (cs : List (Call R)) (c : Call R) :
    elapsedDt (cs ++ [c]) = elapsedDt cs + c.dt := by
  simp [elapsedDt]

/-- `BornFrom cfg cs k det since`: after the calls `cs` of a fresh tracker, the track stored at index
`k` is the one an update spawned from `det`, and `since` are the calls after that update. -/
inductive BornFrom (cfg : AssocConfig R) :
    List (Call R) → ℕ → Detection R → List (Call R) → Prop
  | spawned {cs : List (Call R)} {m : Matcher R} {dets : List (Detection R)} {dt : R}
      {warp : Affine23 R} {k j : ℕ} :
      (((new cfg).run cs).survivors m dets dt warp).length ≤ k →
      (((new cfg).run cs).spawners m dets dt warp)[
        k - (((new cfg).run cs).survivors m dets dt warp).length]? = some j →
      BornFrom cfg (cs ++ [.update m dets dt warp]) k (dets.getD j default) []
  | carried {cs since : List (Call R)} {c : Call R} {i k : ℕ} {det : Detection R} :
      BornFrom cfg cs i det since → ((new cfg).run cs).Carries c i k →
      BornFrom cfg (cs ++ [c]) k det (since ++ [c])

variable {cfg : AssocConfig R}

/-- Every stored track was spawned from a detection. -/
theorem exists_bornFrom {cs : List (Call R)} {k : ℕ} {u : STrack R}
    (hu : ((new cfg).run cs).tracks[k]? = some u) : ∃ det since, BornFrom cfg cs k det since := by
  induction cs using List.reverseRecOn generalizing k u with
  | nil => exact absurd hu (by simp [new])
  | append_singleton cs c ih =>
    rw [run_concat] at hu
    rcases carries_or_spawns _ hu with ⟨i, t, hc, ht, -⟩ | hk
    · obtain ⟨det, since, hborn⟩ := ih ht
      exact ⟨det, since ++ [c], .carried hborn hc⟩
    · cases c with
      | coast dt warp => exact hk.elim
      | update m dets dt warp =>
        rw [step, ((new cfg).run cs).getElem?_update_of_le m dets dt warp hk.1, newborns,
          List.getElem?_mapIdx, Option.map_eq_some_iff] at hu
        obtain ⟨j, hj, -⟩ := hu
        exact ⟨dets.getD j default, [], .spawned hk.1 hj⟩

/-! ## The time since the last update -/

section Elapsed

variable [IsStrictOrderedRing R] {cs since : List (Call R)} {k : ℕ} {det : Detection R}

/-- The time since the last update is not negative. -/
theorem coastedDt_run_nonneg (cfg : AssocConfig R) (hcs : ∀ c ∈ cs, c.Steady) :
    0 ≤ ((new cfg).run cs).coastedDt := by
  induction cs using List.reverseRecOn with
  | nil => exact le_rfl
  | append_singleton cs c ih =>
    have hold := ih fun c' hc' => hcs c' (List.mem_append_left _ hc')
    have hc := (hcs c (by simp)).dt_pos
    rw [run_concat]
    cases c with
    | update m dets dt warp => exact le_rfl
    | coast dt warp => exact add_nonneg hold hc.le

/-- **The coasted time of a newborn** is the time since it was spawned, unless there was an update
since; then it is shorter.

**Proof sketch.** By induction on what happened since the spawn.  The counter is zero at the
spawn; a coast adds its step to both sides, and an update clears the counter while the elapsed
time grows. -/
theorem BornFrom.coastedDt (h : BornFrom cfg cs k det since) (hcs : ∀ c ∈ cs, c.Steady) :
    ((∀ c ∈ since, c.isUpdate = false) ∧ ((new cfg).run cs).coastedDt = elapsedDt since) ∨
      (¬(∀ c ∈ since, c.isUpdate = false) ∧ ((new cfg).run cs).coastedDt < elapsedDt since) := by
  induction h with
  | spawned _ _ =>
    rw [run_concat]
    exact Or.inl ⟨fun c hc => absurd hc List.not_mem_nil, rfl⟩
  | @carried cs since c i k det _ _ ih =>
    have hcs' : ∀ c' ∈ cs, c'.Steady := fun c' hc' => hcs c' (List.mem_append_left _ hc')
    have hnonneg := coastedDt_run_nonneg cfg hcs'
    have hdt := (hcs c (by simp)).dt_pos
    rw [run_concat, elapsedDt_concat]
    cases c with
    | update m dets dt warp =>
      refine Or.inr ⟨fun hall => ?_, ?_⟩
      · exact absurd (hall (.update m dets dt warp) (by simp)) (by simp [Call.isUpdate])
      have hle : ((new cfg).run cs).coastedDt ≤ elapsedDt since := by
        rcases ih hcs' with ⟨-, heq⟩ | ⟨-, hlt⟩
        · exact heq.le
        · exact hlt.le
      change 0 < elapsedDt since + (Call.update m dets dt warp).dt
      linarith
    | coast dt warp =>
      have hiff : (∀ c' ∈ since ++ [.coast dt warp], c'.isUpdate = false) ↔
          ∀ c' ∈ since, c'.isUpdate = false := by
        simp [Call.isUpdate, or_imp, forall_and]
      rw [hiff]
      change _ ∧ ((new cfg).run cs).coastedDt + dt = elapsedDt since + dt ∨
        _ ∧ ((new cfg).run cs).coastedDt + dt < elapsedDt since + dt
      rw [add_left_inj, add_lt_add_iff_right]
      exact ih hcs'

end Elapsed

/-! ## Newborns -/

/-- The filter that `mark_matched` corrects: seeded on the first match. -/
def seedFilter (cfg : AssocConfig R) (effDt : R) (t : STrack R) (det : Detection R) : KalmanBox R :=
  if cfg.velocitySeed ∧ t.hits = 1 then t.kf.seedVelocity det.box effDt else t.kf

/-- A match corrects the seeded filter. -/
theorem markMatched_kf (cfg : AssocConfig R) (effDt : R) (t : STrack R) (det : Detection R) :
    (markMatched cfg effDt t det).kf =
      (seedFilter cfg effDt t det).update det.box (if cfg.nsa then 1 - det.score else 1) := rfl

/-- Without camera motion a call only predicts. -/
theorem advance_kf_of_identity {dt : R} {warp : Affine23 R} (h : warp.identity = true)
    (t : STrack R) : (advance dt warp t).kf = t.kf.predict dt := if_pos h

/-- A newborn, if it has not been matched, rests at the centre it was spawned at. -/
structure STrack.Waiting (det : Detection R) (t : STrack R) : Prop where
  one_le_hits : 1 ≤ t.hits
  centre : t.hits = 1 → t.kf.centre = (det.box.cx, det.box.cy)
  velocity : t.hits = 1 → t.kf.velocity = 0

/-- A prediction keeps a newborn waiting. -/
theorem STrack.Waiting.advance {det : Detection R} {t : STrack R} (h : t.Waiting det) {dt : R}
    {warp : Affine23 R} (hwarp : warp.identity = true) : (advance dt warp t).Waiting det where
  one_le_hits := h.one_le_hits
  centre hits := by
    have hits' : t.hits = 1 := hits
    rw [advance_kf_of_identity hwarp, KalmanBox.predict_centre, h.velocity hits', smul_zero,
      add_zero, h.centre hits']
  velocity hits := by
    have hits' : t.hits = 1 := hits
    rw [advance_kf_of_identity hwarp, KalmanBox.predict_velocity, h.velocity hits']

/-- **Every track waits at its birthplace for its first match.**

**Proof sketch.** By induction on what happened since the spawn.  A spawned filter starts at its
detection at rest, where predictions without camera motion leave it; the first match adds the
second hit, which ends the wait. -/
theorem BornFrom.waiting {cs since : List (Call R)} {k : ℕ} {det : Detection R}
    (h : BornFrom cfg cs k det since) (hcs : ∀ c ∈ cs, c.Steady) :
    ∃ t, ((new cfg).run cs).tracks[k]? = some t ∧ t.Waiting det := by
  induction h with
  | @spawned cs m dets dt warp k j hle hj =>
    rw [run_concat, step, getElem?_update_of_le m _ dets dt warp hle, newborns, List.getElem?_mapIdx,
      hj, Option.map_some]
    exact ⟨_, rfl, le_rfl, fun _ => KalmanBox.initiate_centre _,
      fun _ => KalmanBox.initiate_velocity _⟩
  | @carried cs since c i k det _ hc ih =>
    obtain ⟨t, ht, hwait⟩ := ih fun c' hc' => hcs c' (List.mem_append_left _ hc')
    have hwarp := (hcs c (by simp)).identity
    rw [run_concat, getElem?_step_of_carries _ hc, ht, Option.map_some]
    refine ⟨_, rfl, ?_⟩
    cases c with
    | coast dt warp => exact hwait.advance hwarp
    | update m dets dt warp =>
      have hadvanced : (advance dt warp t).Waiting det := hwait.advance hwarp
      have hpredicted : (predictTrack dt warp t).Waiting det :=
        ⟨hadvanced.one_le_hits, hadvanced.centre, hadvanced.velocity⟩
      simp only [ByteTracker.carried, settled, settle]
      cases ((new cfg).run cs).fate m dets dt warp i with
      | none =>
        refine ⟨?_, fun hits => ?_, fun hits => ?_⟩
        · rw [missTrack_hits]
          exact hpredicted.one_le_hits
        · rw [missTrack_hits] at hits
          rw [missTrack_kf]
          exact hpredicted.centre hits
        · rw [missTrack_hits] at hits
          rw [missTrack_kf]
          exact hpredicted.velocity hits
      | some j =>
        -- a matched track has a second hit
        have hone := hwait.one_le_hits
        refine ⟨?_, fun hits => ?_, fun hits => ?_⟩
        · change 1 ≤ t.hits + 1
          omega
        · change t.hits + 1 = 1 at hits
          omega
        · change t.hits + 1 = 1 at hits
          omega

/-! ## The seeded velocity -/

/-- A displacement over two different positive times gives one velocity only if it is zero. -/
theorem div_eq_div_iff_of_lt [IsStrictOrderedRing R] {x a b : R} (ha : 0 < a) (hab : a < b) :
    x / a = x / b ↔ x = 0 := by
  rw [div_eq_div_iff ha.ne' (ha.trans hab).ne']
  constructor
  · intro h
    have hzero : x * (b - a) = 0 := by linarith
    exact (mul_eq_zero.mp hzero).resolve_right (sub_pos.mpr hab).ne'
  · intro h
    rw [h, zero_mul, zero_mul]

section Seeding

variable [IsStrictOrderedRing R] {cs since : List (Call R)} {i : ℕ} {det : Detection R} {dt : R}
  {warp : Affine23 R} {t : STrack R}

/-- The first match seeds the displacement from the birthplace over the time since the last
update. -/
theorem BornFrom.seedFilter_velocity (hborn : BornFrom cfg cs i det since)
    (hcs : ∀ c ∈ cs, c.Steady) (hseed : cfg.velocitySeed = true) (hdt : 0 < dt)
    (hwarp : warp.identity = true) (ht : ((new cfg).run cs).tracks[i]? = some t)
    (hhits : t.hits = 1) (z : Detection R) :
    (seedFilter cfg (((new cfg).run cs).coastedDt + dt) (predictTrack dt warp t) z).velocity =
      ((z.box.cx - det.box.cx) / (((new cfg).run cs).coastedDt + dt),
        (z.box.cy - det.box.cy) / (((new cfg).run cs).coastedDt + dt)) := by
  obtain ⟨t', ht', hwait⟩ := hborn.waiting hcs
  obtain rfl := Option.some.inj (ht.symm.trans ht')
  have hcoasted := coastedDt_run_nonneg cfg hcs
  have hadvanced : (advance dt warp t).Waiting det := hwait.advance hwarp
  have hcentre : (predictTrack dt warp t).kf.centre = (det.box.cx, det.box.cy) :=
    hadvanced.centre hhits
  have hseeded : seedFilter cfg (((new cfg).run cs).coastedDt + dt) (predictTrack dt warp t) z =
      (predictTrack dt warp t).kf.seedVelocity z.box (((new cfg).run cs).coastedDt + dt) :=
    if_pos ⟨hseed, hhits⟩
  rw [hseeded, KalmanBox.seedVelocity_velocity _ _ (by linarith), hcentre]

/-- **When the seeded velocity is the true one.** In every run of a fresh tracker with steady calls,
whenever an update matches a track of one hit, the filter it corrects has been seeded, and the
seeded velocity is the displacement from the detection that spawned the track over the time of all
calls since then, exactly when there was no update in between or there is no displacement.

**Proof sketch.** The track waits where it was spawned, so the seeded velocity is the displacement
over the time since the last update, which is shorter than the time since the track was spawned as
soon as there was an update in between. -/
theorem velocity_seed_elapsed (cfg : AssocConfig R) (hseed : cfg.velocitySeed = true)
    (hcs : ∀ c ∈ cs, c.Steady) {m : Matcher R} {dets : List (Detection R)}
    (hcall : (Call.update m dets dt warp).Steady) {j : ℕ}
    (ht : ((new cfg).run cs).tracks[i]? = some t) (hhits : t.hits = 1)
    (hfate : ((new cfg).run cs).fate m dets dt warp i = some j) :
    let z := dets.getD j default
    let seeded := seedFilter cfg (((new cfg).run cs).coastedDt + dt) (predictTrack dt warp t) z
    (((new cfg).run cs).settled m dets dt warp i t).kf =
        seeded.update z.box (if cfg.nsa then 1 - z.score else 1) ∧
      (∃ det since, BornFrom cfg cs i det since) ∧
      ∀ det since, BornFrom cfg cs i det since →
        (seeded.velocity = ((z.box.cx - det.box.cx) / (elapsedDt since + dt),
            (z.box.cy - det.box.cy) / (elapsedDt since + dt)) ↔
          (∀ c ∈ since, c.isUpdate = false) ∨
            z.box.cx = det.box.cx ∧ z.box.cy = det.box.cy) := by
  intro z seeded
  refine ⟨?_, exists_bornFrom ht, fun det since hborn => ?_⟩
  · rw [settled, hfate, settle, markMatched_kf, run_cfg]
    rfl
  have hcoasted := coastedDt_run_nonneg cfg hcs
  have hdt : 0 < dt := hcall.dt_pos
  have hvelocity : seeded.velocity = ((z.box.cx - det.box.cx) / (((new cfg).run cs).coastedDt + dt),
      (z.box.cy - det.box.cy) / (((new cfg).run cs).coastedDt + dt)) :=
    hborn.seedFilter_velocity hcs hseed hdt hcall.identity ht hhits z
  rw [hvelocity, Prod.mk.injEq]
  rcases hborn.coastedDt hcs with ⟨hnone, heq⟩ | ⟨hsome, hlt⟩
  · rw [heq]
    exact iff_of_true ⟨rfl, rfl⟩ (Or.inl hnone)
  · have hshort : ((new cfg).run cs).coastedDt + dt < elapsedDt since + dt := by linarith
    rw [div_eq_div_iff_of_lt (by linarith) hshort, div_eq_div_iff_of_lt (by linarith) hshort,
      sub_eq_zero, sub_eq_zero, or_iff_right hsome]

end Seeding

/-! ## A newborn that misses an update -/

/-- The seeding configuration. -/
def seedConfig : AssocConfig ℚ := { velocitySeed := true }

/-- A detection of a walker at a pixel column. -/
def walkerDetection (x : ℚ) : Detection ℚ := ⟨⟨x, 0, 10, 20⟩, 9 / 10, 0, []⟩

/-- A detection spawns a track, and one more call follows. -/
def walkerCalls (c : Call ℚ) : List (Call ℚ) :=
  [.update iouMatcher [walkerDetection 0] 1 .id, c]

/-- The call after the spawning update carries the track. -/
theorem walkerCalls_bornFrom {c : Call ℚ}
    (hc : ((new seedConfig).run [.update iouMatcher [walkerDetection 0] 1 .id]).Carries c 0 0) :
    BornFrom seedConfig (walkerCalls c) 0 (walkerDetection 0) [c] := by
  have hspawned : BornFrom seedConfig ([] ++ [.update iouMatcher [walkerDetection 0] 1 .id]) 0
      ([walkerDetection 0].getD 0 default) [] :=
    .spawned (by decide +kernel) (by decide +kernel)
  exact .carried hspawned hc

theorem walkerCalls_missed_isSome : (((new seedConfig).run
    (walkerCalls (.update iouMatcher [] 1 .id))).tracks[0]?).isSome = true := by
  decide +kernel

theorem walkerCalls_coasted_isSome : (((new seedConfig).run
    (walkerCalls (.coast 1 .id))).tracks[0]?).isSome = true := by
  decide +kernel

/-- **A newborn that misses an update.** The walker moves one pixel in two frames, and is not detected
in between; the seeded velocity is one pixel per frame. -/
theorem velocity_seed_missed_update :
    let missed : Call ℚ := .update iouMatcher [] 1 .id
    let s := (new seedConfig).run (walkerCalls missed)
    let z := walkerDetection 1
    (∀ c ∈ walkerCalls missed, c.Steady) ∧
    ∃ t det since, s.tracks[0]? = some t ∧ t.hits = 1 ∧
      s.fate iouMatcher [z] 1 .id 0 = some 0 ∧ BornFrom seedConfig (walkerCalls missed) 0 det since ∧
      let seeded := seedFilter seedConfig (s.coastedDt + 1) (predictTrack 1 .id t) z
      seeded.velocity = (1, 0) ∧
      seeded.velocity ≠ ((z.box.cx - det.box.cx) / (elapsedDt since + 1),
        (z.box.cy - det.box.cy) / (elapsedDt since + 1)) := by
  intro missed s z
  have hborn : BornFrom seedConfig (walkerCalls missed) 0 (walkerDetection 0) [missed] := by
    apply walkerCalls_bornFrom
    change (survivors _ _ _ _ _)[0]? = some 0
    decide +kernel
  refine ⟨fun c hc => ?_, (s.tracks[0]?).get walkerCalls_missed_isSome, walkerDetection 0, [missed],
    (Option.some_get _).symm, ?_, ?_, hborn, ?_, ?_⟩
  · rcases List.mem_pair.mp hc with rfl | rfl <;> exact ⟨one_pos, Affine23.identity_id⟩
  · decide +kernel
  · decide +kernel
  · decide +kernel
  · decide +kernel

/-- A newborn that is coasted over instead gets its true velocity. -/
theorem velocity_seed_elapsed_coasted :
    let coasted : Call ℚ := .coast 1 .id
    let s := (new seedConfig).run (walkerCalls coasted)
    let z := walkerDetection 1
    ∃ t, s.tracks[0]? = some t ∧
      (seedFilter seedConfig (s.coastedDt + 1) (predictTrack 1 .id t) z).velocity =
        ((z.box.cx - (walkerDetection 0).box.cx) / (elapsedDt [coasted] + 1),
          (z.box.cy - (walkerDetection 0).box.cy) / (elapsedDt [coasted] + 1)) := by
  intro coasted s z
  have hborn : BornFrom seedConfig (walkerCalls coasted) 0 (walkerDetection 0) [coasted] := by
    apply walkerCalls_bornFrom
    refine ⟨rfl, ?_⟩
    decide +kernel
  have hsteady : ∀ c ∈ walkerCalls coasted, c.Steady := by
    intro c hc
    rcases List.mem_pair.mp hc with rfl | rfl <;> exact ⟨one_pos, Affine23.identity_id⟩
  have hcall : (Call.update iouMatcher [z] 1 .id : Call ℚ).Steady :=
    ⟨one_pos, Affine23.identity_id⟩
  have h := velocity_seed_elapsed seedConfig rfl hsteady hcall
    (Option.some_get walkerCalls_coasted_isSome).symm
    (by decide +kernel) (show s.fate iouMatcher [z] 1 .id 0 = some 0 by decide +kernel)
  refine ⟨_, (Option.some_get walkerCalls_coasted_isSome).symm, ?_⟩
  exact (h.2.2 _ _ hborn).mpr (Or.inl (by simp [coasted, Call.isUpdate]))

end Ctrk
