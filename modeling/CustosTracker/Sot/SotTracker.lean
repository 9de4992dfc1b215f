import CustosTracker.Common.Image
import CustosTracker.Library.Trace

set_option relaxedAutoImplicit false
set_option autoImplicit false

/-!
# The single-object facade

`SotTracker` of `core/src/sot/sot_tracker.cpp`: score hysteresis, drift verification of the tracked
box, and detector-assisted re-acquisition, over an arbitrary tracking backend.

## Main definitions

* `Ctrk.SotConfig`, `Ctrk.Reid`, `Ctrk.ReacquireConfig` — configuration, with the defaults of
  `core/include/ctrk/sot.hpp`.
* `Ctrk.Backend` — what the facade needs of a backend.
* `Ctrk.SotTracker`, `Ctrk.SotTracker.init`, `Ctrk.SotTracker.update`.
* `Ctrk.SotOp`, `Ctrk.SotTracker.run` — runs, with the events they produce.

## Implementation notes

`update` returns, besides the result, what a frame did on the way (`SotReport`): the backend's
answer, the drift check, the verdict, the detector call and the re-lock.  It returns `none` where
the source divides by a zero `detect_every`.  In exact arithmetic a division by zero gives zero
where the source's floats give an infinity; this only concerns degenerate boxes.
-/

namespace Ctrk

variable {R : Type} [Scalar R]

/-! ## Configuration -/

/-- The tracking backends. -/
inductive SotBackend
  | nanoTrack
  | mosse
  deriving DecidableEq

/-- The appearance embedders of re-identification. -/
inductive Embedder
  | none
  | hsvHist
  | nanoZ
  deriving DecidableEq

/-- Appearance verification. -/
structure Reid (R : Type) [Scalar R] where
  embedder : Embedder := .none
  accept : R := -1
  driftCheckEvery : ℤ := 0
  driftThr : R := -1

/-- Configuration of the facade and its backends. -/
structure SotConfig (R : Type) [Scalar R] where
  backend : SotBackend := .nanoTrack
  penaltyK : R := 55 / 1000
  windowInfluence : R := 455 / 1000
  sizeLr : R := 37 / 100
  contextAmount : R := 1 / 2
  lostScoreThr : R := -1
  lostPatience : ℤ := 5
  templateUpdateInterval : ℤ := 0
  templateRefreshThr : R := 7 / 10
  templateBlend : R := 1 / 2
  reid : Reid R := {}

/-- Detector-assisted re-acquisition. -/
structure ReacquireConfig (R : Type) [Scalar R] where
  classId : ℤ := -1
  detectEvery : ℤ := 3
  minScore : R := 4 / 10
  sizeLow : R := 1 / 2
  sizeHigh : R := 2
  baseRadiusFrac : R := 3 / 2
  growthPerFrame : R := 5 / 100

/-- The constructor's resolution of the automatic thresholds. -/
def SotConfig.resolve (cfg : SotConfig R) : SotConfig R :=
  let nanoz := cfg.reid.embedder = .nanoZ
  { cfg with
    lostScoreThr := if cfg.lostScoreThr < 0 then
        if cfg.backend = .nanoTrack then 30 / 100 else 8
      else cfg.lostScoreThr
    reid := { cfg.reid with
      accept := if cfg.reid.accept < 0 then if nanoz then 65 / 100 else 4 / 10 else cfg.reid.accept
      driftThr := if cfg.reid.driftThr < 0 then if nanoz then 55 / 100 else 4 / 10
        else cfg.reid.driftThr } }

/-! ## Backends -/

/-- A tracking backend, as the facade uses it: its state, `init` and `update`, and the embedding
branch of the NanoTrack backend. -/
structure Backend (R : Type) where
  State : Type
  init : State → Image Bgr → BBox R → State
  update : State → Image Bgr → SotResult R × State
  isNano : State → Bool
  embed : State → Image Bgr → BBox R → List R
  zf : State → List R

/-- The histogram routines of the facade: the hue-saturation histogram of a region with unit sum,
and `cv::compareHist` with `HISTCMP_BHATTACHARYYA`. -/
structure HistOps (R : Type) where
  hist : Image Bgr → List R
  compareHist : List R → List R → R

/-- `hsv_hist`. -/
def hsvHist (ops : HistOps R) (img : Image Bgr) (box : BBox R) : List R :=
  regionHist ops.hist img box

/-! ## The facade -/

/-- The facade's members.  A detector is present exactly when `reacquire` is set. -/
structure SotTracker (K : Backend R) where
  cfg : SotConfig R
  backend : K.State
  reacquire : Option (ReacquireConfig R) := none
  lowStreak : ℤ := 0
  lastGood : BBox R := default
  framesLost : ℤ := 0
  refHist : List R := []
  refEmbed : List R := []
  sinceDriftCheck : ℤ := 0
  driftLatched : Bool := false

/-- What one frame did: the backend's answer, the similarity of a drift check, the verdict of
score and drift check, the search radius of a detector call, the re-lock, and the result. -/
structure SotReport (R : Type) where
  raw : SotResult R
  check : Option R := none
  verdict : SotState
  search : Option R := none
  relock : Option (Detection R) := none
  result : SotResult R

namespace SotTracker

variable {K : Backend R} (ops : HistOps R)

/-- A fresh facade over a fresh backend. -/
def new (cfg : SotConfig R) (backend : K.State) : SotTracker K :=
  { cfg := cfg.resolve, backend := backend }

/-- `enable_reacquire` with a detector. -/
def enableReacquire (s : SotTracker K) (rc : ReacquireConfig R) : SotTracker K :=
  { s with reacquire := some rc }

/-- The streak of low scores after a score. -/
def nextStreak (s : SotTracker K) (score : R) : ℤ :=
  if score < s.cfg.lostScoreThr then s.lowStreak + 1 else 0

/-- `classify`: the state a streak of low scores stands for. -/
def classify (s : SotTracker K) (score : R) : SotState :=
  if s.nextStreak score = 0 then .tracking
  else if s.cfg.lostPatience ≤ s.nextStreak score then .lost else .unstable

/-- `similarity`: how much a box looks like the initial target; `1` without a signal. -/
def similarity (s : SotTracker K) (img : Image Bgr) (box : BBox R) : R :=
  match s.cfg.reid.embedder with
  | .hsvHist =>
    if s.refHist.isEmpty then 1
    else
      let hist := hsvHist ops img box
      if hist.isEmpty then 1 else 1 - ops.compareHist s.refHist hist
  | .nanoZ =>
    if !K.isNano s.backend || s.refEmbed.isEmpty then 1
    else cosineSimilarity (K.embed s.backend img box) s.refEmbed
  | .none => 1

/-- The search radius around the last credible box. -/
def searchRadius (s : SotTracker K) (rc : ReacquireConfig R) : R :=
  hypot s.lastGood.w s.lastGood.h * (rc.baseRadiusFrac + rc.growthPerFrame * s.framesLost)

/-- The distance of a detection from the last credible box. -/
def distance (s : SotTracker K) (d : Detection R) : R :=
  hypot (d.box.cx - s.lastGood.cx) (d.box.cy - s.lastGood.cy)

/-- The gates of `pick_candidate`: score, class, size and distance. -/
def passesGates (s : SotTracker K) (rc : ReacquireConfig R) (d : Detection R) : Bool :=
  let sizeRatio := Scalar.sqrt (d.box.w * d.box.h / (s.lastGood.w * s.lastGood.h))
  !(decide (d.score < rc.minScore) || decide (0 ≤ rc.classId ∧ d.classId ≠ rc.classId) ||
    decide (sizeRatio < rc.sizeLow ∨ rc.sizeHigh < sizeRatio) ||
    decide (s.searchRadius rc < s.distance d))

/-- The best candidate so far, with its distance and its similarity. -/
structure Best (R : Type) where
  cand : Option (Detection R)
  dist : R
  sim : R

/-- One step of the candidate loop: the most similar accepted candidate with re-identification,
the nearest one without. -/
def considerCandidate (s : SotTracker K) (rc : ReacquireConfig R) (img : Image Bgr) (best : Best R)
    (d : Detection R) : Best R :=
  if !s.passesGates rc d then best
  else if s.cfg.reid.embedder ≠ .none then
    let sim := s.similarity ops img d.box
    if sim < s.cfg.reid.accept then best
    else if best.sim < sim then { best with cand := some d, sim := sim } else best
  else if s.distance d ≤ best.dist then { best with cand := some d, dist := s.distance d }
  else best

/-- `pick_candidate`: the best re-acquisition candidate near the last credible box. -/
def pickCandidate (s : SotTracker K) (rc : ReacquireConfig R) (img : Image Bgr)
    (dets : List (Detection R)) : Option (Detection R) :=
  (dets.foldl (s.considerCandidate ops rc img) ⟨none, s.searchRadius rc, -1⟩).cand

/-- `init`: start on a target. -/
def init (s : SotTracker K) (frame : Frame R) (target : BBox R) : SotTracker K :=
  let backend := K.init s.backend frame.image target
  { s with
    lowStreak := 0
    framesLost := 0
    lastGood := target
    driftLatched := false
    sinceDriftCheck := 0
    backend := backend
    refHist := if s.cfg.reid.embedder = .hsvHist then hsvHist ops frame.image target
      else s.refHist
    refEmbed := if s.cfg.reid.embedder = .nanoZ ∧ K.isNano backend then K.zf backend
      else s.refEmbed }

/-- Whether drift is verified at all. -/
def driftEnabled (cfg : SotConfig R) : Bool :=
  decide (cfg.reid.embedder ≠ .none) && decide (0 < cfg.reid.driftCheckEvery)

/-- The check counter, advanced on a healthy frame unless the latch is set. -/
def countCheck (s : SotTracker K) : ℤ :=
  if driftEnabled s.cfg && !s.driftLatched then s.sinceDriftCheck + 1 else s.sinceDriftCheck

/-- `check_due`: every frame while latched, else every `drift_check_every` healthy frames. -/
def checkDue (s : SotTracker K) : Bool :=
  driftEnabled s.cfg && (s.driftLatched || decide (s.cfg.reid.driftCheckEvery ≤ s.countCheck))

/-- The tail of `update` on a frame judged lost: call the detector at its cadence and re-seed the
template from the best candidate. -/
def reacquireStep (s : SotTracker K) (frame : Frame R) (rep : SotReport R) :
    Option (SotReport R × SotTracker K) :=
  match s.reacquire with
  | none => some (rep, s)
  | some rc =>
    let s := { s with framesLost := s.framesLost + 1 }
    if rc.detectEvery = 0 then none
    else if s.framesLost.tmod rc.detectEvery ≠ 0 then some (rep, s)
    else
      let rep := { rep with search := some (s.searchRadius rc) }
      match s.pickCandidate ops rc frame.image frame.detections with
      | none => some (rep, s)
      | some d =>
        some ({ rep with relock := some d, result := ⟨d.box, d.score, .unstable⟩ },
          { s with
            backend := K.init s.backend frame.image d.box
            lowStreak := s.cfg.lostPatience - 1 })

/-- `update`, from the verdict of the score on: check for drift where a check is due, and look for
the target where it is lost. -/
def judge (s : SotTracker K) (frame : Frame R) (r : SotResult R) (verdict : SotState) :
    Option (SotReport R × SotTracker K) :=
  let rep : SotReport R := { raw := r, verdict := verdict, result := { r with state := verdict } }
  match verdict with
  | .tracking =>
    let due := s.checkDue
    let s := { s with sinceDriftCheck := s.countCheck }
    if !due then some (rep, { s with lastGood := r.box, framesLost := 0 })
    else
      let s := { s with sinceDriftCheck := 0 }
      let sim := s.similarity ops frame.image r.box
      if s.cfg.reid.driftThr ≤ sim then
        some ({ rep with check := some sim },
          { s with driftLatched := false, lastGood := r.box, framesLost := 0 })
      else
        { s with driftLatched := true, lowStreak := s.cfg.lostPatience }.reacquireStep ops frame
          { rep with check := some sim, verdict := .lost, result := { r with state := .lost } }
  | .unstable => some (rep, s)
  | .lost => s.reacquireStep ops frame rep

/-- `update`: track one frame. -/
def update (s : SotTracker K) (frame : Frame R) : Option (SotReport R × SotTracker K) :=
  let (r, backend) := K.update s.backend frame.image
  let verdict := s.classify r.score
  { s with backend := backend, lowStreak := s.nextStreak r.score }.judge ops frame r verdict

/-- An update judges the answer of the backend. -/
theorem update_eq_judge (s : SotTracker K) (frame : Frame R) :
    s.update ops frame =
      judge ops
        { s with
          backend := (K.update s.backend frame.image).2
          lowStreak := s.nextStreak (K.update s.backend frame.image).1.score }
        frame (K.update s.backend frame.image).1
        (s.classify (K.update s.backend frame.image).1.score) := rfl

end SotTracker

/-! ## Runs -/

/-- A call of the facade. -/
inductive SotOp (R : Type)
  | init (frame : Frame R) (target : BBox R)
  | update (frame : Frame R)

/-- What a call produced. -/
inductive SotEvent (R : Type)
  | started (target : BBox R)
  | reported (rep : SotReport R)

namespace SotTracker

variable {K : Backend R} (ops : HistOps R)

/-- Execute one call. -/
def step (s : SotTracker K) : SotOp R → Option (SotEvent R × SotTracker K)
  | .init frame target => some (.started target, s.init ops frame target)
  | .update frame => (s.update ops frame).map fun p => (.reported p.1, p.2)

/-- Execute a sequence of calls and collect their events. -/
def run (s : SotTracker K) (calls : List (SotOp R)) : Option (List (SotEvent R) × SotTracker K) :=
  Trace.run (step ops) s calls

end SotTracker

/-! ## Playback -/

/-- A backend that plays back a list of answers. -/
def playback : Backend R where
  State := List (SotResult R)
  init answers _ _ := answers
  update
    | [], _ => (⟨default, 0, .tracking⟩, [])
    | r :: answers, _ => (r, answers)
  isNano _ := false
  embed _ _ _ := []
  zf _ := []

/-- Histograms that see the colour of one pixel. -/
def pixelOps : HistOps R where
  hist m := [((m.px 0 0).b.toNat : R)]
  compareHist a b := if a = b then 0 else 1

/-- A frame of one shade of blue. -/
def blueFrame (b : UInt8) : Frame R := ⟨⟨8, 8, fun _ _ => ⟨b, 0, 0⟩⟩, 0, []⟩

end Ctrk
