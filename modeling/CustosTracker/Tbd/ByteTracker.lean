import CustosTracker.Tbd.Association
import CustosTracker.Library.Indexed

set_option relaxedAutoImplicit false
set_option autoImplicit false

/-!
# The multi-object association core

`ByteTracker` of `core/src/tbd/byte_tracker.cpp`: Kalman prediction, three association stages,
the track life cycle, spawning and compaction.  The association procedure is a parameter, a
`Matcher`; the program uses `iouMatcher`.

## Main definitions

* `Ctrk.AssocConfig`, `Ctrk.STrack`, `Ctrk.ByteTracker`.
* `Ctrk.markMatched` — what a matched detection does to a track.
* `Ctrk.ByteTracker.coast`, `Ctrk.ByteTracker.update` — the two calls.
* `Ctrk.Call`, `Ctrk.ByteTracker.step`, `Ctrk.ByteTracker.run` — runs of the tracker.

## Implementation notes

Track ids are 32-bit: the counter wraps (`wrapInt`).  The other counters are unbounded.
Unused index pools of the source keep their names; `removed` is the list of flagged indices.
-/

namespace Ctrk

open Indexed

variable {R : Type} [Scalar R]

/-- Association configuration, with the defaults of `core/include/ctrk/tbd.hpp`. -/
structure AssocConfig (R : Type) [Scalar R] where
  useByte : Bool := true
  trackThresh : R := 1 / 2
  matchThreshHigh : R := 4 / 5
  matchThreshLow : R := 1 / 2
  tentativeMatchThresh : R := 7 / 10
  newTrackThresh : R := 3 / 5
  nInit : ℤ := 3
  maxAge : ℤ := 30
  nsa : Bool := true
  tentativeRelaxPerCoast : R := 3 / 10
  tentativeGateFloor : R := 1 / 5
  tentativePatience : ℤ := 1
  velocitySeed : Bool := false
  appearanceWeight : R := 0
  embeddingEma : R := 9 / 10

/-- A stored track. -/
structure STrack (R : Type) [Scalar R] where
  kf : KalmanBox R
  id : ℤ
  state : TrackState
  hits : ℤ := 1
  age : ℤ := 1
  timeSinceUpdate : ℤ := 0
  score : R
  classId : ℤ
  embedding : List R := []

/-- What the tracker reports of a stored track. -/
def STrack.report (t : STrack R) : Track R :=
  ⟨t.id, t.kf.box, t.score, t.classId, t.state, t.age, t.hits⟩

/-- The tracker's members. -/
structure ByteTracker (R : Type) [Scalar R] where
  cfg : AssocConfig R
  tracks : List (STrack R) := []
  nextId : ℤ := 1
  coastedDt : R := 0
  effDt : R := 1

/-- A fresh tracker. -/
def ByteTracker.new (cfg : AssocConfig R) : ByteTracker R := { cfg := cfg }

/-- Two's complement reduction to a 32-bit `int`. -/
def wrapInt (x : ℤ) : ℤ := x.bmod (2 ^ 32)

/-! ## Single tracks -/

/-- The moving average of appearance descriptors, renormalized. -/
def blendEmbedding (ema : R) (old new : List R) : List R :=
  if new.isEmpty then old
  else if old.length ≠ new.length then new
  else
    let mixed := List.zipWith (fun a b => ema * a + (1 - ema) * b) old new
    let norm := Scalar.sqrt (dot mixed mixed)
    if 0 < norm then mixed.map (· / norm) else mixed

/-- `mark_matched`: correct the filter, refresh the descriptor, reset the miss counter, count
the hit and promote the track. -/
def markMatched (cfg : AssocConfig R) (effDt : R) (track : STrack R) (det : Detection R) :
    STrack R :=
  let kf := if cfg.velocitySeed ∧ track.hits = 1 then track.kf.seedVelocity det.box effDt
    else track.kf
  let hits := track.hits + 1
  let state := if track.state = .lost then .confirmed else track.state
  { track with
    kf := kf.update det.box (if cfg.nsa then 1 - det.score else 1)
    embedding := blendEmbedding cfg.embeddingEma track.embedding det.embedding
    timeSinceUpdate := 0
    hits := hits
    score := det.score
    classId := det.classId
    state := if state = .tentative ∧ cfg.nInit ≤ hits then .confirmed else state }

/-- Predict by `dt`, warp into the current camera pose, and age by one frame. -/
def advance (dt : R) (warp : Affine23 R) (t : STrack R) : STrack R :=
  let kf := t.kf.predict dt
  { t with kf := if warp.identity then kf else kf.applyAffine warp, age := t.age + 1 }

/-- The prediction step of `update`, which also counts a miss in advance. -/
def predictTrack (dt : R) (warp : Affine23 R) (t : STrack R) : STrack R :=
  let t := advance dt warp t
  { t with timeSinceUpdate := t.timeSinceUpdate + 1 }

/-- A confirmed track that missed is lost. -/
def missTrack (t : STrack R) : STrack R :=
  if t.state = .confirmed then { t with state := .lost } else t

/-- A track spawned from a detection. -/
def spawnTrack (cfg : AssocConfig R) (id : ℤ) (det : Detection R) : STrack R :=
  { kf := KalmanBox.initiate det.box
    id := id
    state := if cfg.nInit ≤ 1 then .confirmed else .tentative
    score := det.score
    classId := det.classId }

/-! ## One update -/

/-- The outcome of the three association stages. -/
structure Associations where
  stage1 : List (ℕ × ℕ)
  stage2 : List (ℕ × ℕ)
  stage3 : List (ℕ × ℕ)
  unmatchedMature : List ℕ
  unmatchedTentative : List ℕ
  unmatchedHigh : List ℕ

/-- All matches, in the order they are applied. -/
def Associations.matched (a : Associations) : List (ℕ × ℕ) := a.stage1 ++ a.stage2 ++ a.stage3

/-- Detection indices with at least the high score. -/
def highDets (cfg : AssocConfig R) (dets : List (Detection R)) : List ℕ :=
  (List.range dets.length).filter fun j => cfg.trackThresh ≤ (dets.getD j default).score

/-- The other detection indices. -/
def lowDets (cfg : AssocConfig R) (dets : List (Detection R)) : List ℕ :=
  (List.range dets.length).filter fun j => ¬cfg.trackThresh ≤ (dets.getD j default).score

/-- Indices of the tracks with a given property. -/
def trackPool (tracks : List (STrack R)) (p : STrack R → Bool) : List ℕ :=
  (List.range tracks.length).filter fun i => tracks[i]?.any p

/-- The three association stages on predicted tracks. -/
def associate (m : Matcher R) (cfg : AssocConfig R) (coasted : R) (tracks : List (STrack R))
    (dets : List (Detection R)) : Associations :=
  let predicted := tracks.map fun t => t.kf.box
  let high := highDets cfg dets
  let low := lowDets cfg dets
  let tentativeTracks := trackPool tracks fun t => t.state = .tentative
  let matureTracks := trackPool tracks fun t => ¬t.state = .tentative
  -- stage 1: high-score detections against confirmed and lost tracks
  let trackEmbs := if 0 < cfg.appearanceWeight then some (tracks.map STrack.embedding) else none
  let stage1 := m.run predicted matureTracks dets high (1 - cfg.matchThreshHigh) trackEmbs
    cfg.appearanceWeight
  let unmatchedMature := removeMatched matureTracks stage1 true
  let unmatchedHigh := removeMatched high stage1 false
  -- stage 2: low-score detections against tracks matched in the previous update
  let recent := unmatchedMature.filter fun i =>
    tracks[i]?.any fun t => t.state = .confirmed ∧ t.timeSinceUpdate = 1
  let stage2 := if cfg.useByte then m.run predicted recent dets low cfg.matchThreshLow none 0
    else []
  let unmatchedMature := if cfg.useByte then removeMatched unmatchedMature stage2 true
    else unmatchedMature
  -- stage 3: remaining high-score detections against tentative tracks
  let tentGate := max cfg.tentativeGateFloor
    (cfg.tentativeMatchThresh - cfg.tentativeRelaxPerCoast * coasted)
  let stage3 := m.run predicted tentativeTracks dets unmatchedHigh tentGate none 0
  { stage1 := stage1
    stage2 := stage2
    stage3 := stage3
    unmatchedMature := unmatchedMature
    unmatchedTentative := removeMatched tentativeTracks stage3 true
    unmatchedHigh := removeMatched unmatchedHigh stage3 false }

/-- The spawning loop: one new track per confident detection left over. -/
def spawnAll (cfg : AssocConfig R) (dets : List (Detection R)) :
    List ℕ → ℤ → List (STrack R) × ℤ
  | [], nextId => ([], nextId)
  | dj :: js, nextId =>
    let det := dets.getD dj default
    if det.score < cfg.newTrackThresh then spawnAll cfg dets js nextId
    else
      let rest := spawnAll cfg dets js (wrapInt (nextId + 1))
      (spawnTrack cfg nextId det :: rest.1, rest.2)

namespace ByteTracker

/-- The tracks after the prediction step of an update. -/
def predicted (s : ByteTracker R) (dt : R) (warp : Affine23 R) : List (STrack R) :=
  s.tracks.map (predictTrack dt warp)

/-- The associations of an update. -/
def associations (m : Matcher R) (s : ByteTracker R) (dets : List (Detection R)) (dt : R)
    (warp : Affine23 R) : Associations :=
  associate m s.cfg s.coastedDt (s.predicted dt warp) dets

/-- The tracks after `mark_matched` ran on every match. -/
def afterMatches (m : Matcher R) (s : ByteTracker R) (dets : List (Detection R)) (dt : R)
    (warp : Affine23 R) : List (STrack R) :=
  modifyAll Prod.fst
    (fun p t => markMatched s.cfg (s.coastedDt + dt) t (dets.getD p.2 default))
    (s.predicted dt warp) (s.associations m dets dt warp).matched

/-- The tracks after the unmatched confirmed ones were marked lost. -/
def afterMisses (m : Matcher R) (s : ByteTracker R) (dets : List (Detection R)) (dt : R)
    (warp : Affine23 R) : List (STrack R) :=
  modifyAll id (fun _ => missTrack) (s.afterMatches m dets dt warp)
    (s.associations m dets dt warp).unmatchedMature

/-- The indices flagged for removal. -/
def removed (m : Matcher R) (s : ByteTracker R) (dets : List (Detection R)) (dt : R)
    (warp : Affine23 R) : List ℕ :=
  let a := s.associations m dets dt warp
  let tracks := s.afterMatches m dets dt warp
  (a.unmatchedTentative.filter fun i =>
      tracks[i]?.any fun t => s.cfg.tentativePatience < t.timeSinceUpdate) ++
    a.unmatchedMature.filter fun i => tracks[i]?.any fun t => s.cfg.maxAge < t.timeSinceUpdate

/-- The spawned tracks and the advanced id counter. -/
def spawned (m : Matcher R) (s : ByteTracker R) (dets : List (Detection R)) (dt : R)
    (warp : Affine23 R) : List (STrack R) × ℤ :=
  spawnAll s.cfg dets (s.associations m dets dt warp).unmatchedHigh s.nextId

/-- `update`: predict, associate, apply the matches and misses, spawn, compact, report. -/
def update (m : Matcher R) (s : ByteTracker R) (dets : List (Detection R)) (dt : R)
    (warp : Affine23 R) : List (Track R) × ByteTracker R :=
  let spawned := s.spawned m dets dt warp
  let tracks := compact (s.afterMisses m dets dt warp ++ spawned.1) (s.removed m dets dt warp)
  (tracks.map STrack.report,
    { s with
      tracks := tracks
      nextId := spawned.2
      coastedDt := 0
      effDt := s.coastedDt + dt })

/-- `coast`: advance every track without association or life-cycle changes. -/
def coast (s : ByteTracker R) (dt : R) (warp : Affine23 R) : List (Track R) × ByteTracker R :=
  let tracks := s.tracks.map (advance dt warp)
  (tracks.map STrack.report, { s with tracks := tracks, coastedDt := s.coastedDt + dt })

end ByteTracker

/-! ## Runs -/

/-- A call of the tracker; each update names the association procedure it uses. -/
inductive Call (R : Type) [Scalar R]
  | update (m : Matcher R) (dets : List (Detection R)) (dt : R) (warp : Affine23 R)
  | coast (dt : R) (warp : Affine23 R)

/-- Whether a call is an update. -/
def Call.isUpdate : Call R → Bool
  | .update .. => true
  | .coast .. => false

namespace ByteTracker

/-- Execute one call: the report and the new state. -/
def step (s : ByteTracker R) : Call R → List (Track R) × ByteTracker R
  | .update m dets dt warp => s.update m dets dt warp
  | .coast dt warp => s.coast dt warp

/-- The state after a sequence of calls. -/
def run (s : ByteTracker R) (cs : List (Call R)) : ByteTracker R :=
  cs.foldl (fun s c => (s.step c).2) s

/-- The reports of a sequence of calls. -/
def outputs (s : ByteTracker R) : List (Call R) → List (List (Track R))
  | [] => []
  | c :: cs => (s.step c).1 :: outputs (s.step c).2 cs

end ByteTracker

end Ctrk
