import CustosTracker.Tbd.Accounting

set_option relaxedAutoImplicit false
set_option autoImplicit false

/-!
# Static scenes

A scene of motionless, pairwise disjoint objects, seen by a camera that does not move.  Every
update receives one exact detection of each visible object, in any order; objects may stay
undetected for as long as lost tracks are kept.  The tracker holds one track per object, with the
id of the first update and exactly the object's box, for ever.

## Main definitions

* `Ctrk.SceneCall`, `Ctrk.SceneRun` — the calls of a static scene.
* `Ctrk.scenePhase`, `Ctrk.InScene` — what the track of one object looks like.
* `Ctrk.SceneInv` — what the tracker looks like.

## Main results

* `Ctrk.SceneInv.fate_iff` — an update matches every visible object with its own track.
* `Ctrk.SceneInv.update`, `Ctrk.SceneInv.coast` — both calls keep the invariant.
* `Ctrk.static_scene` — the reports of a static scene.
-/

namespace Ctrk

open ByteTracker KalmanBox

variable {R : Type} [Scalar R] {n : ℕ}

/-! ## Scenes -/

/-- A visible object, with the score and class of its detection. -/
structure Sighting (R : Type) (n : ℕ) where
  obj : Fin n
  score : R
  classId : ℤ

/-- The exact detection of a visible object, without a descriptor. -/
def Sighting.detection (b : Fin n → BBox R) (σ : Sighting R n) : Detection R :=
  ⟨b σ.obj, σ.score, σ.classId, []⟩

/-- A call in a static scene. -/
inductive SceneCall (R : Type) (n : ℕ)
  | update (seen : List (Sighting R n)) (dt : R)
  | coast (dt : R)

namespace SceneCall

/-- The objects a call sees, in the order of their detections. -/
def objs : SceneCall R n → List (Fin n)
  | update seen _ => seen.map Sighting.obj
  | coast _ => []

/-- The scores a call sees. -/
def scores : SceneCall R n → List R
  | update seen _ => seen.map Sighting.score
  | coast _ => []

/-- The time step of a call. -/
def dt : SceneCall R n → R
  | update _ dt => dt
  | coast dt => dt

/-- Whether a call is an update. -/
def isUpdate : SceneCall R n → Bool
  | update _ _ => true
  | coast _ => false

/-- The call of the tracker, with the source's matcher and no camera motion. -/
def call [IsStrictOrderedRing R] (b : Fin n → BBox R) : SceneCall R n → Call R
  | update seen dt => .update iouMatcher (seen.map (Sighting.detection b)) dt .id
  | coast dt => .coast dt .id

end SceneCall

/-- The number of updates among the calls. -/
def updateCount (cs : List (SceneCall R n)) : ℕ := cs.countP SceneCall.isUpdate

/-- The number of updates since object `i` was last seen. -/
def missed (i : Fin n) (cs : List (SceneCall R n)) : ℕ :=
  cs.foldl (fun k c => if c.isUpdate then if i ∈ c.objs then 0 else k + 1 else k) 0

/-- The objects of the first update, in the order of their detections. -/
def firstSeen : List (SceneCall R n) → List (Fin n)
  | [] => []
  | .update seen _ :: _ => seen.map Sighting.obj
  | .coast _ :: cs => firstSeen cs

/-- An association gate a perfect overlap passes and a disjoint pair fails. -/
def Gate (g : R) : Prop := 0 < g ∧ g ≤ 1

instance (g : R) : Decidable (Gate g) := inferInstanceAs (Decidable (0 < g ∧ g ≤ 1))

/-- The configurations a static scene needs. -/
structure SceneConfig (cfg : AssocConfig R) : Prop where
  high : Gate (1 - cfg.matchThreshHigh)
  tentative : Gate cfg.tentativeMatchThresh
  floor : Gate cfg.tentativeGateFloor
  relax_nonneg : 0 ≤ cfg.tentativeRelaxPerCoast
  maxAge_nonneg : 0 ≤ cfg.maxAge

/-- The calls of a static scene: confident detections, at most one of each object, all objects
visible in the first `max 1 nInit` updates and none missing for more than `maxAge` updates. -/
structure SceneRun (cfg : AssocConfig R) (cs : List (SceneCall R n)) : Prop where
  dt_nonneg : ∀ c ∈ cs, 0 ≤ c.dt
  once : ∀ c ∈ cs, c.objs.Nodup
  score : ∀ c ∈ cs, ∀ x ∈ c.scores, max cfg.trackThresh cfg.newTrackThresh ≤ x ∧ x ≤ 1
  warmup : ∀ p (h : p < cs.length), cs[p].isUpdate = true →
    (updateCount (cs.take p) : ℤ) < max 1 cfg.nInit → ∀ i, i ∈ cs[p].objs
  streak : ∀ p ≤ cs.length, ∀ i, (missed i (cs.take p) : ℤ) ≤ cfg.maxAge

section Counting

variable (cs : List (SceneCall R n)) (c : SceneCall R n) (i : Fin n)

omit [Scalar R] in
theorem updateCount_concat : updateCount (cs ++ [c]) = updateCount cs + c.isUpdate.toNat := by
  rw [updateCount, List.countP_append, List.countP_singleton, updateCount]
  cases c.isUpdate <;> rfl

omit [Scalar R] in
theorem missed_concat : missed i (cs ++ [c]) =
    if c.isUpdate then if i ∈ c.objs then 0 else missed i cs + 1 else missed i cs := by
  rw [missed, List.foldl_append]
  rfl

omit [Scalar R] in
theorem updateCount_update (seen : List (Sighting R n)) (dt : R) :
    updateCount (cs ++ [.update seen dt]) = updateCount cs + 1 := updateCount_concat cs _

omit [Scalar R] in
theorem updateCount_coast (dt : R) : updateCount (cs ++ [.coast dt]) = updateCount cs :=
  updateCount_concat cs _

omit [Scalar R] in
theorem missed_update (seen : List (Sighting R n)) (dt : R) :
    missed i (cs ++ [.update seen dt]) =
      if i ∈ seen.map Sighting.obj then 0 else missed i cs + 1 := missed_concat cs _ i

omit [Scalar R] in
theorem missed_coast (dt : R) : missed i (cs ++ [.coast dt]) = missed i cs := missed_concat cs _ i

omit [Scalar R] in
theorem firstSeen_append (ds : List (SceneCall R n)) : firstSeen (cs ++ ds) =
    if updateCount cs = 0 then firstSeen ds else firstSeen cs := by
  induction cs with
  | nil => rfl
  | cons d cs ih =>
    cases d with
    | update seen dt =>
      rw [if_neg]
      · rfl
      · show ¬(List.countP SceneCall.isUpdate (.update seen dt :: cs) = 0)
        rw [List.countP_cons]
        simp [SceneCall.isUpdate]
    | coast dt => exact ih

omit [Scalar R] in
theorem firstSeen_concat : firstSeen (cs ++ [c]) =
    if updateCount cs = 0 then c.objs else firstSeen cs := by
  rw [firstSeen_append]
  cases c <;> rfl

/-- Every prefix of the calls of a static scene is one. -/
theorem SceneRun.of_append {cfg : AssocConfig R} {cs ds : List (SceneCall R n)}
    (h : SceneRun cfg (cs ++ ds)) : SceneRun cfg cs where
  dt_nonneg d hd := h.dt_nonneg d (List.mem_append_left _ hd)
  once d hd := h.once d (List.mem_append_left _ hd)
  score d hd := h.score d (List.mem_append_left _ hd)
  warmup p hp hu hlt := by
    have hp' : p < (cs ++ ds).length := lt_of_lt_of_le hp (by simp)
    have hw := h.warmup p hp'
    rw [List.getElem_append_left hp, List.take_append_of_le_length hp.le] at hw
    exact hw hu hlt
  streak p hp i := by
    have hs := h.streak p (le_trans hp (by simp)) i
    rwa [List.take_append_of_le_length hp] at hs

end Counting

/-! ## The track of an object -/

/-- The state of the track of object `i`: tentative before update `nInit`, then confirmed or lost
according to the last update. -/
def scenePhase (cfg : AssocConfig R) (cs : List (SceneCall R n)) (i : Fin n) : TrackState :=
  if (updateCount cs : ℤ) < cfg.nInit then .tentative
  else if missed i cs = 0 then .confirmed else .lost

/-- The track of object `i` after the calls `cs`: at rest on the object's box. -/
structure InScene (b : Fin n → BBox R) (cfg : AssocConfig R) (cs : List (SceneCall R n)) (id : ℤ)
    (i : Fin n) (t : STrack R) : Prop where
  id_eq : t.id = id
  rests : t.kf.Rests (b i)
  embedding : t.embedding = []
  state : t.state = scenePhase cfg cs i
  hits : (updateCount cs : ℤ) < cfg.nInit → t.hits = updateCount cs
  timeSinceUpdate : t.timeSinceUpdate = missed i cs

section Track

variable [IsStrictOrderedRing R] {b : Fin n → BBox R} {cfg : AssocConfig R}
  {cs : List (SceneCall R n)} {id : ℤ} {i : Fin n} {t : STrack R}

omit [IsStrictOrderedRing R] in
/-- Prediction without camera motion keeps a track at rest. -/
theorem advance_rests (hb : Regular (b i)) (h : t.kf.Rests (b i)) (dt : R) :
    (advance dt .id t).kf.Rests (b i) := by
  simp only [advance, Affine23.identity_id, if_true]
  exact h.predict hb dt

omit [IsStrictOrderedRing R] in
/-- A coast keeps the track of an object. -/
theorem InScene.advance (hb : Regular (b i)) (h : InScene b cfg cs id i t) (dt : R) :
    InScene b cfg (cs ++ [.coast dt]) id i (advance dt .id t) := by
  refine ⟨h.id_eq, advance_rests hb h.rests dt, h.embedding, ?_, ?_, ?_⟩
  · rw [scenePhase, updateCount_coast, missed_coast]
    exact h.state
  · rw [updateCount_coast]
    exact h.hits
  · rw [missed_coast]
    exact h.timeSinceUpdate

/-- A match with the box a filter rests on keeps it at rest, with or without velocity seeding. -/
theorem markMatched_rests (hb : Regular (b i)) (h : t.kf.Rests (b i)) (effDt : R)
    (det : Detection R) (hdet : det.box = b i) : (markMatched cfg effDt t det).kf.Rests (b i) := by
  unfold markMatched
  simp only [hdet]
  split_ifs
  · exact (h.seedVelocity hb effDt).update hb _
  · exact (h.seedVelocity hb effDt).update hb _
  · exact h.update hb _
  · exact h.update hb _

/-- An update that sees the object keeps its track, which is confirmed from update `nInit` on.

**Proof sketch.** The box of the detection is the one the track rests at, so the correction
leaves it there.  A tentative track has as many hits as there were updates, so the hit that
confirms it comes with update `nInit`. -/
theorem InScene.markMatched (hb : Regular (b i)) (h : InScene b cfg cs id i t)
    {seen : List (Sighting R n)} (dt : R) (hi : i ∈ seen.map Sighting.obj) (effDt : R)
    {σ : Sighting R n} (hσ : σ.obj = i) :
    InScene b cfg (cs ++ [.update seen dt]) id i
      (markMatched cfg effDt (predictTrack dt .id t) (σ.detection b)) := by
  have hbox : (σ.detection b).box = b i := congrArg b hσ
  have hmiss : missed i (cs ++ [.update seen dt]) = 0 := by rw [missed_update, if_pos hi]
  refine ⟨h.id_eq, markMatched_rests hb (advance_rests hb h.rests dt) effDt _ hbox, h.embedding,
    ?_, ?_, ?_⟩
  · have hst := markMatched_state cfg effDt (predictTrack dt .id t) (σ.detection b)
    rw [predictTrack_state, predictTrack_hits] at hst
    have hold := h.state
    rw [scenePhase] at hold
    rw [scenePhase, updateCount_update, hmiss, hst]
    by_cases hnew : ((updateCount cs + 1 : ℕ) : ℤ) < cfg.nInit
    · -- still in the warm-up: the hits are the updates so far
      have hlt : (updateCount cs : ℤ) < cfg.nInit := by omega
      have hhits := h.hits hlt
      rw [if_pos hlt] at hold
      have hfew : ¬cfg.nInit ≤ t.hits + 1 := by omega
      rw [if_pos hnew]
      simp [hold, hfew]
    · rw [if_neg hnew, if_pos rfl]
      by_cases hlt : (updateCount cs : ℤ) < cfg.nInit
      · -- the update that completes the warm-up
        have hhits := h.hits hlt
        rw [if_pos hlt] at hold
        have hmany : cfg.nInit ≤ t.hits + 1 := by omega
        simp [hold, hmany]
      · rw [if_neg hlt] at hold
        by_cases hzero : missed i cs = 0 <;> simp [hold, hzero]
  · rw [updateCount_update]
    intro hlt
    show t.hits + 1 = _
    rw [h.hits (by omega)]
    omega
  · rw [hmiss]
    rfl

omit [IsStrictOrderedRing R] in
/-- An update after the warm-up that does not see the object keeps its track as lost.

**Proof sketch.** A miss leaves filter and descriptor and counts one update.  After the warm-up
the track is confirmed or lost, so the miss makes it lost. -/
theorem InScene.missTrack (hb : Regular (b i)) (h : InScene b cfg cs id i t)
    {seen : List (Sighting R n)} (dt : R) (hi : i ∉ seen.map Sighting.obj)
    (hwarm : cfg.nInit ≤ updateCount cs) :
    InScene b cfg (cs ++ [.update seen dt]) id i (missTrack (predictTrack dt .id t)) := by
  have hmiss : missed i (cs ++ [.update seen dt]) = missed i cs + 1 := by
    rw [missed_update, if_neg hi]
  have hst := missTrack_state (predictTrack dt .id t)
  rw [predictTrack_state] at hst
  have hkf : (Ctrk.missTrack (predictTrack dt .id t)).kf = (predictTrack dt .id t).kf := by
    unfold Ctrk.missTrack
    split_ifs <;> rfl
  have hemb : (Ctrk.missTrack (predictTrack dt .id t)).embedding = t.embedding := by
    unfold Ctrk.missTrack
    split_ifs <;> rfl
  refine ⟨(missTrack_id _).trans h.id_eq, ?_, hemb.trans h.embedding, ?_, ?_, ?_⟩
  · rw [hkf]
    exact advance_rests hb h.rests dt
  · have hold := h.state
    rw [scenePhase, if_neg (by omega)] at hold
    have hpast : ¬((updateCount cs + 1 : ℕ) : ℤ) < cfg.nInit := by omega
    rw [hst, scenePhase, updateCount_update, hmiss, if_neg hpast, if_neg (Nat.succ_ne_zero _)]
    by_cases hzero : missed i cs = 0 <;> simp [hold, hzero]
  · rw [updateCount_update]
    intro hlt
    omega
  · rw [missTrack_timeSinceUpdate, predictTrack_timeSinceUpdate, h.timeSinceUpdate, hmiss,
      Nat.cast_add, Nat.cast_one]

/-- The first update spawns the track of an object it sees. -/
theorem inScene_spawnTrack (hb : Regular (b i)) (hcount : updateCount cs = 0)
    {seen : List (Sighting R n)} (dt : R) (hi : i ∈ seen.map Sighting.obj) {σ : Sighting R n}
    (hσ : σ.obj = i) (id : ℤ) :
    InScene b cfg (cs ++ [.update seen dt]) id i (spawnTrack cfg id (σ.detection b)) := by
  have hbox : (σ.detection b).box = b i := congrArg b hσ
  have hmiss : missed i (cs ++ [.update seen dt]) = 0 := by rw [missed_update, if_pos hi]
  have hone : updateCount (cs ++ [.update seen dt]) = 1 := by rw [updateCount_update, hcount]
  refine ⟨rfl, ?_, rfl, ?_, ?_, ?_⟩
  · show (initiate (σ.detection b).box).Rests (b i)
    rw [hbox]
    exact rests_initiate hb
  · show (if cfg.nInit ≤ 1 then TrackState.confirmed else .tentative) = _
    rw [scenePhase, hone, hmiss]
    by_cases hn : cfg.nInit ≤ 1 <;> simp [hn]
  · rw [hone]
    exact fun _ => rfl
  · rw [hmiss]
    rfl

end Track

/-! ## The association of a static scene -/

/-- Track `k` and detection `j` belong to the same object. -/
def Same (order objs : List (Fin n)) (k j : ℕ) : Prop := ∃ i, order[k]? = some i ∧ objs[j]? = some i

/-- In a list without repetition an entry determines its index. -/
theorem index_unique {l : List (Fin n)} (hl : l.Nodup) {k k' : ℕ} {i : Fin n}
    (h : l[k]? = some i) (h' : l[k']? = some i) : k = k' :=
  (List.getElem?_inj (List.getElem?_eq_some_iff.mp h).1 hl).mp (h.trans h'.symm)

/-- The tracker holds exactly one track per object, each at rest on its object's box. -/
structure Placed (b : Fin n → BBox R) (order : List (Fin n)) (tracks : List (STrack R)) : Prop where
  length : tracks.length = order.length
  rests : ∀ (k : ℕ) (i : Fin n), order[k]? = some i →
    ∃ t : STrack R, tracks[k]? = some t ∧ t.kf.Rests (b i)

section Associate

variable [IsStrictOrderedRing R] {b : Fin n → BBox R} {cfg : AssocConfig R}
  {order : List (Fin n)} {tracks : List (STrack R)} {seen : List (Sighting R n)}

/-- Inside any gate, a track costs nothing with its own detection and is forbidden with others.

**Proof sketch.** The box of the track is the one of its object, and so is that of the detection:
they overlap fully or not at all.  The detections of a scene have no descriptors, so the cost is
that of the overlap. -/
theorem pairCost_scene (hb : ∀ i, Regular (b i)) (hdisj : ∀ i j, i ≠ j → iou (b i) (b j) = 0)
    (hpl : Placed b order tracks) {g : R} (hg : Gate g) (embs : Option (List (List R))) (w : R)
    {k j : ℕ} {i i' : Fin n} (hk : order[k]? = some i)
    (hj : (seen.map Sighting.obj)[j]? = some i') :
    pairCost (tracks.map fun t => t.kf.box) (seen.map (Sighting.detection b)) g embs w k j =
      if i = i' then 0 else kForbidden := by
  obtain ⟨t, ht, hrest⟩ := hpl.rests k i hk
  rw [List.getElem?_map, Option.map_eq_some_iff] at hj
  obtain ⟨σ, hσ, rfl⟩ := hj
  have htrack : (tracks.map fun t => t.kf.box).getD k default = b i := by
    rw [List.getD_eq_getElem?_getD, List.getElem?_map, ht, Option.map_some, Option.getD_some,
      hrest.box_eq (hb i)]
  have hdet : (seen.map (Sighting.detection b)).getD j default = σ.detection b := by
    rw [List.getD_eq_getElem?_getD, List.getElem?_map, hσ, Option.map_some, Option.getD_some]
  have hfused : ∀ x, fusedCost embs w k (σ.detection b) x = 1 - x := by
    intro x
    cases embs with
    | none => rfl
    | some l => simp [fusedCost, Sighting.detection]
  simp only [pairCost, htrack, hdet, hfused]
  show (if iou (b i) (b σ.obj) < g then kForbidden else 1 - iou (b i) (b σ.obj)) = _
  by_cases hi : i = σ.obj
  · rw [if_pos hi, ← hi, iou_self (hb i).w_pos (hb i).h_pos, if_neg (not_lt.mpr hg.2), sub_self]
  · rw [if_neg hi, hdisj i σ.obj hi, if_pos hg.1]

/-- Gated matching pairs the tracks and detections of the same objects.

**Proof sketch.** The pools are unambiguous (`mem_matchByIou_of_unambiguous`): a pair of the same
object costs nothing, any other is forbidden, and no object has two tracks or two detections. -/
theorem mem_matchByIou_scene (hb : ∀ i, Regular (b i))
    (hdisj : ∀ i j, i ≠ j → iou (b i) (b j) = 0) (hpl : Placed b order tracks)
    (horder : order.Nodup) (hseen : (seen.map Sighting.obj).Nodup) {trackIds detIds : List ℕ}
    (hT : trackIds.Nodup) (hD : detIds.Nodup) (hTlt : ∀ k ∈ trackIds, k < order.length)
    (hDlt : ∀ j ∈ detIds, j < seen.length) {g : R} (hg : Gate g)
    (embs : Option (List (List R))) (w : R) {k j : ℕ} :
    (k, j) ∈ matchByIou (tracks.map fun t => t.kf.box) trackIds
        (seen.map (Sighting.detection b)) detIds g embs w ↔
      k ∈ trackIds ∧ j ∈ detIds ∧ Same order (seen.map Sighting.obj) k j := by
  refine mem_matchByIou_of_unambiguous hT hD ?_ ?_ ?_ ?_
  · intro k _ j _ hkj
    obtain ⟨i, hk, hj⟩ := hkj
    rw [pairCost_scene hb hdisj hpl hg embs w hk hj, if_pos rfl]
  · intro k hk j hj hkj
    have hk' := List.getElem?_eq_getElem (hTlt k hk)
    have hj' := List.getElem?_eq_getElem
      (show j < (seen.map Sighting.obj).length by rw [List.length_map]; exact hDlt j hj)
    rw [pairCost_scene hb hdisj hpl hg embs w hk' hj', if_neg]
    exact fun he => hkj ⟨_, hk', he ▸ hj'⟩
  · intro k j j' h h'
    obtain ⟨i, hk, hj⟩ := h
    obtain ⟨i', hk', hj'⟩ := h'
    obtain rfl := Option.some.inj (hk.symm.trans hk')
    exact index_unique hseen hj hj'
  · intro k k' j h h'
    obtain ⟨i, hk, hj⟩ := h
    obtain ⟨i', hk', hj'⟩ := h'
    obtain rfl := Option.some.inj (hj.symm.trans hj')
    exact index_unique horder hk hk'

/-- The relaxed gate of stage 3 stays a gate. -/
theorem gate_tentative (hcfg : SceneConfig cfg) {coasted : R} (hc : 0 ≤ coasted) :
    Gate (max cfg.tentativeGateFloor
      (cfg.tentativeMatchThresh - cfg.tentativeRelaxPerCoast * coasted)) := by
  have hrelax : 0 ≤ cfg.tentativeRelaxPerCoast * coasted := mul_nonneg hcfg.relax_nonneg hc
  refine ⟨lt_max_of_lt_left hcfg.floor.1, max_le hcfg.floor.2 ?_⟩
  have hle := hcfg.tentative.2
  linarith

variable (hcfg : SceneConfig cfg) (hb : ∀ i, Regular (b i))
  (hdisj : ∀ i j, i ≠ j → iou (b i) (b j) = 0) (hpl : Placed b order tracks)
  (horder : order.Nodup) (hseen : (seen.map Sighting.obj).Nodup)
  (hscore : ∀ σ ∈ seen, cfg.trackThresh ≤ σ.score) {coasted : R} (hc : 0 ≤ coasted)
include hcfg hb hdisj hpl horder hseen hscore hc

/-- The three stages together pair the tracks and detections of the same objects.

**Proof sketch.** All detections reach the track threshold, so stage 2 has none. Stage 1 pairs
the mature tracks with their detections and stage 3 the tentative ones: the detections of the
tentative tracks are still free then, because stage 1 gave each detection to its own track. -/
theorem mem_matched_scene {k j : ℕ} :
    (k, j) ∈ (associate iouMatcher cfg coasted tracks
        (seen.map (Sighting.detection b))).matched ↔
      Same order (seen.map Sighting.obj) k j := by
  set dets := seen.map (Sighting.detection b) with hdets
  set a := associate iouMatcher cfg coasted tracks dets with ha
  have hlen : dets.length = seen.length := List.length_map _
  have hhigh : ∀ j, j ∈ highDets cfg dets ↔ j < seen.length := by
    intro j
    rw [mem_highDets, hlen]
    refine ⟨And.left, fun hj => ⟨hj, ?_⟩⟩
    rw [List.getD_eq_getElem _ _ (by rwa [hlen])]
    simp only [hdets, List.getElem_map]
    exact hscore _ (List.getElem_mem hj)
  have hpool : ∀ p, ∀ k ∈ trackPool tracks p, k < order.length := by
    intro p k hk
    obtain ⟨t, ht, -⟩ := mem_trackPool.mp hk
    rw [← hpl.length]
    exact (List.getElem?_eq_some_iff.mp ht).1
  have h1 : ∀ k j, (k, j) ∈ a.stage1 ↔ k ∈ trackPool tracks (fun t => ¬t.state = .tentative) ∧
      j ∈ highDets cfg dets ∧ Same order (seen.map Sighting.obj) k j := fun k j =>
    mem_matchByIou_scene hb hdisj hpl horder hseen (nodup_trackPool _ _) (nodup_highDets _ _)
      (hpool _) (fun j hj => (hhigh j).mp hj) hcfg.high _ _
  have h2 : ∀ k j, (k, j) ∉ a.stage2 := by
    intro k j hkj
    have hlow := mem_lowDets.mp (stage2_mem iouMatcher cfg coasted tracks dets hkj).2.2
    have hup := mem_highDets.mp ((hhigh j).mpr (hlen ▸ hlow.1))
    exact absurd hup.2 (not_le.mpr hlow.2)
  have h3 : ∀ k j, (k, j) ∈ a.stage3 ↔ k ∈ trackPool tracks (fun t => t.state = .tentative) ∧
      j ∈ removeMatched (highDets cfg dets) a.stage1 false ∧
      Same order (seen.map Sighting.obj) k j := fun k j =>
    mem_matchByIou_scene hb hdisj hpl horder hseen (nodup_trackPool _ _)
      (nodup_removeMatched (nodup_highDets _ _) _ _) (hpool _)
      (fun j hj => (hhigh j).mp (mem_removeMatched_snd.mp hj).1) (gate_tentative hcfg hc) _ _
  rw [Associations.matched, List.mem_append, List.mem_append]
  constructor
  · intro h
    rcases h with (h | h) | h
    · exact ((h1 k j).mp h).2.2
    · exact absurd h (h2 k j)
    · exact ((h3 k j).mp h).2.2
  · intro hsame
    obtain ⟨i, hk, hj⟩ := hsame
    obtain ⟨t, ht, -⟩ := hpl.rests k i hk
    have hj' : j < seen.length := by
      have hlt := (List.getElem?_eq_some_iff.mp hj).1
      rwa [List.length_map] at hlt
    by_cases htent : t.state = .tentative
    · refine Or.inr ((h3 k j).mpr ⟨mem_trackPool.mpr ⟨t, ht, decide_eq_true htent⟩, ?_, i, hk, hj⟩)
      refine mem_removeMatched_snd.mpr ⟨(hhigh j).mpr hj', fun hused => ?_⟩
      -- a track that took the detection in stage 1 would be this one, which is tentative
      obtain ⟨⟨k', j'⟩, hmem, hj'⟩ := List.mem_map.mp hused
      obtain rfl : j' = j := hj'
      obtain ⟨hmature, -, i', hk', hji'⟩ := (h1 k' j').mp hmem
      obtain rfl := Option.some.inj (hj.symm.trans hji')
      obtain rfl := index_unique horder hk hk'
      obtain ⟨t', ht', hs⟩ := mem_trackPool.mp hmature
      rw [ht] at ht'
      obtain rfl := Option.some.inj ht'
      simp [htent] at hs
    · exact Or.inl (Or.inl ((h1 k j).mpr
        ⟨mem_trackPool.mpr ⟨t, ht, decide_eq_true htent⟩, (hhigh j).mpr hj', i, hk, hj⟩))

/-- If every object has a track, no detection is left over. -/
theorem unmatchedHigh_scene (hall : ∀ i, i ∈ order) :
    (associate iouMatcher cfg coasted tracks
      (seen.map (Sighting.detection b))).unmatchedHigh = [] := by
  refine List.eq_nil_iff_forall_not_mem.mpr fun j hj => ?_
  rw [mem_unmatchedHigh, mem_highDets, List.length_map] at hj
  obtain ⟨⟨hlt, hscore'⟩, hfree1, hfree3⟩ := hj
  have hlt' : j < (seen.map Sighting.obj).length := by rwa [List.length_map]
  have hobj := List.getElem?_eq_getElem hlt'
  obtain ⟨k, hk⟩ := List.mem_iff_getElem?.mp (hall (seen.map Sighting.obj)[j])
  have hmem := (mem_matched_scene hcfg hb hdisj hpl horder hseen hscore hc).mpr ⟨_, hk, hobj⟩
  rw [Associations.matched, List.mem_append, List.mem_append] at hmem
  rcases hmem with (hmem | hmem) | hmem
  · exact hfree1 (List.mem_map_of_mem hmem)
  · have hlow := mem_lowDets.mp (stage2_mem iouMatcher cfg coasted tracks _ hmem).2.2
    exact absurd hscore' (not_le.mpr hlow.2)
  · exact hfree3 (List.mem_map_of_mem hmem)

end Associate

/-! ## The tracker of a static scene -/

/-- The tracker after the calls `cs` of a static scene: one track per object of the first update,
in its order. -/
structure SceneInv (b : Fin n → BBox R) (cfg : AssocConfig R) (cs : List (SceneCall R n))
    (s : ByteTracker R) : Prop where
  cfg_eq : s.cfg = cfg
  coastedDt_nonneg : 0 ≤ s.coastedDt
  before : updateCount cs = 0 → s.tracks = [] ∧ s.nextId = 1
  length : 0 < updateCount cs → s.tracks.length = (firstSeen cs).length
  order : 0 < updateCount cs → (firstSeen cs).Nodup ∧ ∀ i, i ∈ firstSeen cs
  track : 0 < updateCount cs → ∀ (k : ℕ) (i : Fin n), (firstSeen cs)[k]? = some i →
    ∃ t : STrack R, s.tracks[k]? = some t ∧ InScene b cfg cs (idAfter 1 k) i t

section Inv

variable [IsStrictOrderedRing R] {b : Fin n → BBox R} {cfg : AssocConfig R}
  {cs : List (SceneCall R n)} {s : ByteTracker R}

/-- A coast keeps the invariant.

**Proof sketch.** A coast changes no list of tracks in length or order, and each track rests
where it is. -/
theorem SceneInv.coast (hb : ∀ i, Regular (b i)) (h : SceneInv b cfg cs s) {dt : R}
    (hdt : 0 ≤ dt) : SceneInv b cfg (cs ++ [.coast dt]) (s.coast dt .id).2 := by
  have hcount := updateCount_coast cs dt
  have hfirst : 0 < updateCount cs → firstSeen (cs ++ [.coast dt]) = firstSeen cs := fun hpos => by
    rw [firstSeen_concat, if_neg hpos.ne']
  refine ⟨h.cfg_eq, add_nonneg h.coastedDt_nonneg hdt, ?_, ?_, ?_, ?_⟩ <;> rw [hcount] <;>
    intro hpos
  · obtain ⟨htracks, hnext⟩ := h.before hpos
    refine ⟨?_, hnext⟩
    rw [coast_tracks, htracks]
    rfl
  · rw [hfirst hpos, coast_tracks, List.length_map]
    exact h.length hpos
  · rw [hfirst hpos]
    exact h.order hpos
  · intro k i hk
    rw [hfirst hpos] at hk
    obtain ⟨t, ht, hin⟩ := h.track hpos k i hk
    refine ⟨advance dt .id t, ?_, hin.advance (hb i) dt⟩
    rw [coast_tracks, List.getElem?_map, ht, Option.map_some]

omit [IsStrictOrderedRing R] in
/-- Without tracks, every confident detection spawns one.

**Proof sketch.** Nothing can be matched without tracks, so exactly the detections that pass both
thresholds spawn, which are all.  The spawners are a sublist of the detections, hence all of them
in order. -/
theorem spawners_of_nil (m : Matcher R) (hs : s.tracks = []) (dets : List (Detection R)) (dt : R)
    (warp : Affine23 R) (hscore : ∀ det ∈ dets, max s.cfg.trackThresh s.cfg.newTrackThresh ≤
      det.score) : s.spawners m dets dt warp = List.range dets.length := by
  have hnone : ∀ (i : ℕ) {Q : STrack R → Prop},
      ¬∃ t, (s.predicted dt warp)[i]? = some t ∧ Q t := by
    intro i Q h
    obtain ⟨t, ht, -⟩ := h
    rw [getElem?_predicted, hs] at ht
    exact absurd ht (by simp)
  have hmem : ∀ j, j ∈ s.spawners m dets dt warp ↔ j ∈ List.range dets.length := by
    intro j
    rw [mem_spawners, List.mem_range]
    refine ⟨And.left, fun hj => ⟨hj, ?_, ?_, ?_, ?_⟩⟩
    · rw [List.getD_eq_getElem _ _ hj]
      exact (le_max_left _ _).trans (hscore _ (List.getElem_mem hj))
    · rw [List.getD_eq_getElem _ _ hj]
      exact (le_max_right _ _).trans (hscore _ (List.getElem_mem hj))
    · intro h
      obtain ⟨p, hp, -⟩ := List.mem_map.mp h
      exact hnone p.1 (stage1_mem m s.cfg s.coastedDt _ dets hp).1
    · intro h
      obtain ⟨p, hp, -⟩ := List.mem_map.mp h
      exact hnone p.1 (stage3_mem m s.cfg s.coastedDt _ dets hp).1
  have hsub : (s.spawners m dets dt warp).Sublist (List.range dets.length) :=
    List.filter_sublist.trans (List.filter_sublist.trans
      (List.filter_sublist.trans List.filter_sublist))
  have hnd := (s.pairwise_spawners m dets dt warp).imp fun h => Nat.ne_of_lt h
  exact hsub.eq_of_length
    ((List.perm_ext_iff_of_nodup hnd List.nodup_range).mpr hmem).length_eq

/-- The first update spawns one track for each of its detections.

**Proof sketch.** There are no tracks to survive, so the store is the spawned tracks in the order
of the detections (`spawners_of_nil`), one for each object. -/
theorem SceneInv.firstUpdate (hb : ∀ i, Regular (b i)) (h : SceneInv b cfg cs s)
    (hzero : updateCount cs = 0) {seen : List (Sighting R n)} (dt : R)
    (hseen : (seen.map Sighting.obj).Nodup) (hall : ∀ i, i ∈ seen.map Sighting.obj)
    (hscore : ∀ σ ∈ seen, max cfg.trackThresh cfg.newTrackThresh ≤ σ.score) :
    SceneInv b cfg (cs ++ [.update seen dt])
      (s.update iouMatcher (seen.map (Sighting.detection b)) dt .id).2 := by
  obtain ⟨htracks, hnext⟩ := h.before hzero
  set dets := seen.map (Sighting.detection b) with hdets
  have hfirst : firstSeen (cs ++ [.update seen dt]) = seen.map Sighting.obj := by
    rw [firstSeen_concat, if_pos hzero]
    rfl
  have hcount : updateCount (cs ++ [.update seen dt]) = 1 := by rw [updateCount_update, hzero]
  have hsurv : s.survivors iouMatcher dets dt .id = [] := by
    refine List.eq_nil_iff_forall_not_mem.mpr fun i hi => ?_
    obtain ⟨t, ht, -⟩ := (s.mem_survivors iouMatcher dets dt .id).mp hi
    rw [htracks] at ht
    exact absurd ht (by simp)
  have hspawn : s.spawners iouMatcher dets dt .id = List.range dets.length := by
    refine spawners_of_nil _ htracks _ _ _ fun det hdet => ?_
    obtain ⟨σ, hσ, rfl⟩ := List.mem_map.mp hdet
    rw [h.cfg_eq]
    exact hscore σ hσ
  refine ⟨h.cfg_eq, le_refl 0, fun hc => absurd (hcount.symm.trans hc) one_ne_zero, fun _ => ?_,
    fun _ => ?_, fun _ k i hk => ?_⟩
  · rw [length_update, hsurv, hspawn, hfirst, hdets]
    simp
  · rw [hfirst]
    exact ⟨hseen, hall⟩
  · rw [hfirst, List.getElem?_map, Option.map_eq_some_iff] at hk
    obtain ⟨σ, hσ, hi⟩ := hk
    have hspawner : (s.spawners iouMatcher dets dt .id)[k]? = some k := by
      have hlt := (List.getElem?_eq_some_iff.mp hσ).1
      rw [hspawn, List.getElem?_range (by rwa [hdets, List.length_map])]
    have hu := s.getElem?_update_of_spawner iouMatcher dets dt .id hspawner
    have hdet : dets.getD k default = σ.detection b := by
      rw [List.getD_eq_getElem?_getD, hdets, List.getElem?_map, hσ]
      rfl
    rw [hsurv, List.length_nil, Nat.zero_add, hnext, h.cfg_eq, hdet] at hu
    exact ⟨_, hu, inScene_spawnTrack (hb i) hzero dt (hall i) hi _⟩

omit [IsStrictOrderedRing R] in
/-- The predicted tracks are at rest on their objects. -/
theorem SceneInv.placed (hb : ∀ i, Regular (b i)) (h : SceneInv b cfg cs s)
    (hpos : 0 < updateCount cs) (dt : R) : Placed b (firstSeen cs) (s.predicted dt .id) := by
  refine ⟨?_, fun k i hk => ?_⟩
  · rw [length_predicted]
    exact h.length hpos
  · obtain ⟨t, ht, hin⟩ := h.track hpos k i hk
    refine ⟨predictTrack dt .id t, ?_, advance_rests (hb i) hin.rests dt⟩
    rw [getElem?_predicted, ht, Option.map_some]

section Later

variable (hcfg : SceneConfig cfg) (hb : ∀ i, Regular (b i))
  (hdisj : ∀ i j, i ≠ j → iou (b i) (b j) = 0) (h : SceneInv b cfg cs s)
  (hpos : 0 < updateCount cs) {seen : List (Sighting R n)} (dt : R)
  (hseen : (seen.map Sighting.obj).Nodup) (hscore : ∀ σ ∈ seen, cfg.trackThresh ≤ σ.score)
include hcfg hb hdisj h hpos hseen hscore

/-- **The fate of a track.** A later update matches every visible object with its own track. -/
theorem SceneInv.fate_iff {k j : ℕ} :
    s.fate iouMatcher (seen.map (Sighting.detection b)) dt .id k = some j ↔
      Same (firstSeen cs) (seen.map Sighting.obj) k j := by
  have hmatched := mem_matched_scene hcfg hb hdisj (h.placed hb hpos dt) (h.order hpos).1 hseen
    hscore h.coastedDt_nonneg (k := k) (j := j)
  rw [← h.cfg_eq] at hmatched
  refine ⟨fun hf => hmatched.mp (Associations.mem_of_fate_eq_some hf), fun hs => ?_⟩
  exact Associations.fate_of_mem (nodup_matched_fst _ _ _ _ _) (hmatched.mpr hs)

/-- A later update spawns no track. -/
theorem SceneInv.spawners_eq_nil :
    s.spawners iouMatcher (seen.map (Sighting.detection b)) dt .id = [] := by
  have hleft := unmatchedHigh_scene hcfg hb hdisj (h.placed hb hpos dt) (h.order hpos).1 hseen
    hscore h.coastedDt_nonneg (h.order hpos).2
  rw [← h.cfg_eq] at hleft
  rw [spawners, associations, hleft]
  rfl

/-- A later update drops no track, as long as no object is missing for too long.

**Proof sketch.** A track that is not matched belongs to an object that is not seen.  Its warm-up
is over, so it may be missing up to the maximal age, which the scene does not pass. -/
theorem SceneInv.survivors_eq
    (hwarm : ∀ i, i ∉ seen.map Sighting.obj → cfg.nInit ≤ updateCount cs)
    (hstreak : ∀ i, (missed i (cs ++ [.update seen dt]) : ℤ) ≤ cfg.maxAge) :
    s.survivors iouMatcher (seen.map (Sighting.detection b)) dt .id =
      List.range s.tracks.length := by
  refine List.filter_eq_self.mpr fun k hk => ?_
  have hlt : k < (firstSeen cs).length := h.length hpos ▸ List.mem_range.mp hk
  have hobj := List.getElem?_eq_getElem hlt
  obtain ⟨t, ht, hin⟩ := h.track hpos k _ hobj
  have hsurv : k ∈ s.survivors iouMatcher (seen.map (Sighting.detection b)) dt .id := by
    refine (mem_survivors _ _ _ _ _).mpr ⟨t, ht, fun hnone => ?_⟩
    have hunseen : (firstSeen cs)[k] ∉ seen.map Sighting.obj := by
      intro hin
      obtain ⟨j, hj⟩ := List.mem_iff_getElem?.mp hin
      rw [(h.fate_iff hcfg hb hdisj hpos dt hseen hscore).mpr ⟨_, hobj, hj⟩] at hnone
      exact Option.some_ne_none j hnone
    -- an object that is not seen has left the warm-up, so only the age limits its track
    have hstate := hin.state
    have hw := hwarm _ hunseen
    have hage := hstreak (firstSeen cs)[k]
    rw [missed_update, if_neg hunseen, Nat.cast_add, Nat.cast_one] at hage
    rw [scenePhase, if_neg (not_lt.mpr hw)] at hstate
    have hmature : t.state ≠ .tentative := by
      rw [hstate]
      split_ifs <;> decide
    rw [missLimit, if_neg hmature, hin.timeSinceUpdate, h.cfg_eq]
    exact hage
  exact decide_eq_true (Indexed.mem_kept.mp hsurv).2

/-- **A later update keeps the invariant.**

**Proof sketch.** All tracks survive and none is spawned, so the track of an object stays at its
place.  Its fate is the detection of its object if that is seen, and a miss otherwise
(`fate_iff`). -/
theorem SceneInv.update
    (hwarm : ∀ i, i ∉ seen.map Sighting.obj → cfg.nInit ≤ updateCount cs)
    (hstreak : ∀ i, (missed i (cs ++ [.update seen dt]) : ℤ) ≤ cfg.maxAge) :
    SceneInv b cfg (cs ++ [.update seen dt])
      (s.update iouMatcher (seen.map (Sighting.detection b)) dt .id).2 := by
  have hsurv := h.survivors_eq hcfg hb hdisj hpos dt hseen hscore hwarm hstreak
  have hspawn := h.spawners_eq_nil hcfg hb hdisj hpos dt hseen hscore
  have hfirst : firstSeen (cs ++ [.update seen dt]) = firstSeen cs := by
    rw [firstSeen_concat, if_neg hpos.ne']
  refine ⟨h.cfg_eq, le_refl 0, fun hc => ?_, fun _ => ?_, fun _ => ?_, fun _ k i hk => ?_⟩
  · rw [updateCount_update] at hc
    exact absurd hc (Nat.succ_ne_zero _)
  · rw [length_update, hsurv, hspawn, hfirst, List.length_range, List.length_nil, Nat.add_zero]
    exact h.length hpos
  · rw [hfirst]
    exact h.order hpos
  · rw [hfirst] at hk
    obtain ⟨t, ht, hin⟩ := h.track hpos k i hk
    have hindex : (s.survivors iouMatcher (seen.map (Sighting.detection b)) dt .id)[k]? =
        some k := by
      rw [hsurv, List.getElem?_range (List.getElem?_eq_some_iff.mp ht).1]
    have hu := s.getElem?_update_of_survivor iouMatcher _ dt .id hindex
    rw [ht, Option.map_some] at hu
    refine ⟨_, hu, ?_⟩
    cases hf : s.fate iouMatcher (seen.map (Sighting.detection b)) dt .id k with
    | some j =>
      obtain ⟨i', hk', hj⟩ := (h.fate_iff hcfg hb hdisj hpos dt hseen hscore).mp hf
      obtain rfl := Option.some.inj (hk.symm.trans hk')
      have hi := List.mem_of_getElem? hj
      rw [List.getElem?_map, Option.map_eq_some_iff] at hj
      obtain ⟨σ, hσ, hobj⟩ := hj
      have hdet : (seen.map (Sighting.detection b)).getD j default = σ.detection b := by
        rw [List.getD_eq_getElem?_getD, List.getElem?_map, hσ]
        rfl
      simp only [settled, settle, hf, hdet, h.cfg_eq]
      exact hin.markMatched (hb i) dt hi _ hobj
    | none =>
      have hunseen : i ∉ seen.map Sighting.obj := by
        intro hi
        obtain ⟨j, hj⟩ := List.mem_iff_getElem?.mp hi
        rw [(h.fate_iff hcfg hb hdisj hpos dt hseen hscore).mpr ⟨i, hk, hj⟩] at hf
        exact Option.some_ne_none j hf
      simp only [settled, settle, hf]
      exact hin.missTrack (hb i) dt hunseen (hwarm i hunseen)

end Later

/-- The invariant holds throughout a static scene.

**Proof sketch.** By induction on the calls from the end: a coast, the first update or a later
update. -/
theorem sceneInv_run (hcfg : SceneConfig cfg) (hb : ∀ i, Regular (b i))
    (hdisj : ∀ i j, i ≠ j → iou (b i) (b j) = 0) (hcs : SceneRun cfg cs) :
    SceneInv b cfg cs ((ByteTracker.new cfg).run (cs.map (SceneCall.call b))) := by
  induction cs using List.reverseRecOn with
  | nil =>
    refine ⟨rfl, le_refl 0, fun _ => ⟨rfl, rfl⟩, ?_, ?_, ?_⟩ <;>
      exact fun hpos => absurd hpos (lt_irrefl 0)
  | append_singleton cs c ih =>
    have h := ih hcs.of_append
    have hmem : c ∈ cs ++ [c] := List.mem_append_right _ List.mem_cons_self
    rw [List.map_append, List.map_singleton, run_concat]
    cases c with
    | coast dt => exact h.coast hb (hcs.dt_nonneg _ hmem)
    | update seen dt =>
      have hseen := hcs.once _ hmem
      have hscore : ∀ σ ∈ seen, max cfg.trackThresh cfg.newTrackThresh ≤ σ.score := fun σ hσ =>
        (hcs.score _ hmem _ (List.mem_map_of_mem hσ)).1
      have hstreak : ∀ i, (missed i (cs ++ [.update seen dt]) : ℤ) ≤ cfg.maxAge := fun i => by
        have hs := hcs.streak _ le_rfl i
        rwa [List.take_length] at hs
      have hwarm : (updateCount cs : ℤ) < max 1 cfg.nInit → ∀ i, i ∈ seen.map Sighting.obj := by
        intro hlt
        have hw := hcs.warmup cs.length (by simp)
        rw [List.getElem_concat_length rfl, List.take_left] at hw
        exact hw rfl hlt
      rcases Nat.eq_zero_or_pos (updateCount cs) with hzero | hpos
      · refine h.firstUpdate hb hzero dt hseen (hwarm ?_) hscore
        rw [hzero]
        exact lt_max_of_lt_left one_pos
      · refine h.update hcfg hb hdisj hpos dt hseen
          (fun σ hσ => (le_max_left _ _).trans (hscore σ hσ)) (fun i hi => ?_) hstreak
        by_contra hlt
        exact hi (hwarm (lt_max_of_lt_right (not_le.mp hlt)) i)

end Inv

/-- The id an object got in the first update. -/
def sceneId (cs : List (SceneCall R n)) (i : Fin n) : ℤ := idAfter 1 ((firstSeen cs).idxOf i)

/-- **A static scene keeps its identities for ever.** Let the boxes be regular and pairwise
disjoint.  From the first update on, every call of a static scene leaves exactly one track per
object and reports it with the id of the first update and exactly the object's box.  From update
`nInit` on, the track is confirmed after every update that sees its object.

**Proof sketch.** The filters are at rest on the boxes, so predictions are exact, every pair of a
track and a detection overlaps completely or not at all, and the matching is forced
(`SceneInv.fate_iff`). A matched filter has no innovation and stays at rest. A missed track is in
its warm-up never, and otherwise young enough to be kept. -/
theorem static_scene [IsStrictOrderedRing R] {b : Fin n → BBox R} {cfg : AssocConfig R}
    {cs : List (SceneCall R n)} (hcfg : SceneConfig cfg) (hb : ∀ i, Regular (b i))
    (hdisj : ∀ i j, i ≠ j → iou (b i) (b j) = 0) (hcs : SceneRun cfg cs) (p : ℕ)
    (hp : p < cs.length) (hpos : 0 < updateCount (cs.take (p + 1))) :
    ((ByteTracker.new cfg).run ((cs.map (SceneCall.call b)).take (p + 1))).tracks.length = n ∧
    (firstSeen cs).Nodup ∧ (∀ i, i ∈ firstSeen cs) ∧
    (((ByteTracker.new cfg).outputs (cs.map (SceneCall.call b))).getD p []).map
        (fun t => (t.id, t.box, t.state)) =
      (firstSeen cs).map (fun i => (sceneId cs i, b i, scenePhase cfg (cs.take (p + 1)) i)) ∧
    (cfg.nInit ≤ updateCount (cs.take (p + 1)) → ∀ i ∈ cs[p].objs,
      scenePhase cfg (cs.take (p + 1)) i = .confirmed) := by
  have hsplit : cs.take (p + 1) ++ cs.drop (p + 1) = cs := List.take_append_drop _ _
  have hpre : SceneRun cfg (cs.take (p + 1)) := SceneRun.of_append (hsplit.symm ▸ hcs)
  have hfirst : firstSeen (cs.take (p + 1)) = firstSeen cs := by
    conv_rhs => rw [← hsplit]
    rw [firstSeen_append, if_neg hpos.ne']
  have hinv := sceneInv_run hcfg hb hdisj hpre
  rw [List.map_take] at hinv
  obtain ⟨hnd, hall⟩ := hinv.order hpos
  have hlen := hinv.length hpos
  rw [hfirst] at hnd hall hlen
  have hperm : (firstSeen cs).Perm (List.finRange n) :=
    (List.perm_ext_iff_of_nodup hnd (List.nodup_finRange n)).mpr fun i =>
      iff_of_true (hall i) (List.mem_finRange i)
  refine ⟨hlen.trans (hperm.length_eq.trans List.length_finRange), hnd, hall, ?_, ?_⟩
  · rw [getD_outputs _ (by rwa [List.length_map]), List.map_map]
    refine List.ext_getElem? fun k => ?_
    rw [List.getElem?_map, List.getElem?_map]
    rcases lt_or_ge k (firstSeen cs).length with hk | hk
    · have hobj := List.getElem?_eq_getElem hk
      obtain ⟨t, ht, hin⟩ := hinv.track hpos k _ (by rw [hfirst]; exact hobj)
      have hbox : t.kf.box = b (firstSeen cs)[k] := hin.rests.box_eq (hb _)
      rw [ht, hobj]
      simp only [Option.map_some, Function.comp_apply, STrack.report, sceneId, hbox, hin.id_eq,
        hin.state, List.Nodup.idxOf_getElem hnd k hk]
    · rw [List.getElem?_eq_none hk, List.getElem?_eq_none (hlen ▸ hk)]
      rfl
  · intro hwarm i hi
    have hlast : cs.take (p + 1) = cs.take p ++ [cs[p]] := List.take_succ_eq_append_getElem hp
    have hseen : missed i (cs.take (p + 1)) = 0 := by
      rw [hlast, missed_concat, if_pos hi]
      cases hc : cs[p] with
      | update seen dt => rfl
      | coast dt =>
        rw [hc] at hi
        exact absurd hi List.not_mem_nil
    rw [scenePhase, if_neg (not_lt.mpr hwarm), if_pos hseen]

/-- Two unit boxes, seen in both orders; the second one is missed once. -/
theorem static_scene_two_boxes :
    let b : Fin 2 → BBox ℚ := ![⟨0, 0, 2, 2⟩, ⟨5, 5, 2, 4⟩]
    let cs : List (SceneCall ℚ 2) := [.update [⟨0, 1, 0⟩, ⟨1, 1, 0⟩] 1, .coast 1,
      .update [⟨1, 1, 0⟩, ⟨0, 1, 0⟩] 1, .update [⟨0, 1, 0⟩, ⟨1, 1, 0⟩] 1, .update [⟨0, 1, 0⟩] 1]
    ((ByteTracker.new {}).run ((cs.map (SceneCall.call b)).take 5)).tracks.length = 2 :=
  (static_scene
    ⟨by decide +kernel, by decide +kernel, by decide +kernel, by decide +kernel, by decide⟩
    (fun i => by fin_cases i <;> exact ⟨by decide +kernel, by decide +kernel, by decide +kernel⟩)
    (by decide +kernel)
    ⟨by decide +kernel, by decide +kernel, by decide +kernel, by decide +kernel, by decide +kernel⟩
    4 (by decide) (by decide)).1

end Ctrk
