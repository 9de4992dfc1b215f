import CustosTracker.Tbd.Gmc
import CustosTracker.Tbd.Step

set_option relaxedAutoImplicit false
set_option autoImplicit false

/-!
# The tracking-by-detection facade

`MultiTracker` of `core/src/tbd/multi_tracker.cpp`: time steps from timestamps, camera motion, the
detect-or-coast schedule, and the boxes kept for the next frame's camera-motion estimate.

## Main definitions

* `Ctrk.TbdConfig`, `Ctrk.TbdOps`, `Ctrk.MultiTracker`.
* `Ctrk.MultiTracker.update`, `Ctrk.MultiTracker.run` — one frame, a sequence of frames.

## Implementation notes

The detector answers per call: a `Frame` carries the detections `detect` returns for it.
-/

namespace Ctrk

variable {R : Type} [Scalar R]

/-- How camera motion is compensated. -/
inductive GmcMethod
  | off
  | sparseFlow
  deriving DecidableEq

/-- Configuration of the facade, with the defaults of `core/include/ctrk/tbd.hpp`. -/
structure TbdConfig (R : Type) [Scalar R] where
  assoc : AssocConfig R := {}
  gmc : GmcMethod := .off
  nominalFps : R := 30
  detectInterval : ℤ := 1

/-- The routines the facade calls: camera flow, appearance histograms, association. -/
structure TbdOps (R : Type) [Scalar R] where
  flow : FlowOps R
  hsvHist : Image Bgr → List R
  matcher : Matcher R

/-- The facade's members. -/
structure MultiTracker (R : Type) [Scalar R] where
  cfg : TbdConfig R
  tracker : ByteTracker R
  gmc : GmcEstimator R := {}
  gmcExclude : List (BBox R) := []
  prevTNs : ℤ := -1
  untilDetect : ℤ := 0

namespace MultiTracker

/-- A fresh facade. -/
def new (cfg : TbdConfig R) : MultiTracker R := { cfg := cfg, tracker := ByteTracker.new cfg.assoc }

/-- The time since the previous frame, in frame units. -/
def frameDt (s : MultiTracker R) (frame : Frame R) : R :=
  if 0 ≤ s.prevTNs ∧ s.prevTNs < frame.tNs then
    clamp (((frame.tNs - s.prevTNs : ℤ) : R) * (1 / 10 ^ 9) * s.cfg.nominalFps) (1 / 10) 5
  else 1

/-- The camera warp into a frame, and the estimator afterwards. -/
def cameraWarp (ops : TbdOps R) (s : MultiTracker R) (frame : Frame R) :
    Affine23 R × GmcEstimator R :=
  if s.cfg.gmc = .sparseFlow then s.gmc.estimate ops.flow frame.image s.gmcExclude
  else (.id, s.gmc)

/-- The detections of a detect frame, with descriptors when they are used. -/
def detect (ops : TbdOps R) (s : MultiTracker R) (frame : Frame R) : List (Detection R) :=
  if 0 < s.cfg.assoc.appearanceWeight then
    frame.detections.map fun d =>
      { d with embedding := hsvEmbedding ops.hsvHist frame.image d.box }
  else frame.detections

/-- `update`: one frame in, the live tracks out. -/
def update (ops : TbdOps R) (s : MultiTracker R) (frame : Frame R) :
    List (Track R) × MultiTracker R :=
  let dt := s.frameDt frame
  let (warp, gmc) := s.cameraWarp ops frame
  let trackGmc : Bool := s.cfg.gmc ≠ .off
  if 0 < s.untilDetect then
    let (out, tracker) := s.tracker.coast dt warp
    (out, { s with
      tracker := tracker
      gmc := gmc
      gmcExclude := if trackGmc then out.map Track.box else s.gmcExclude
      prevTNs := frame.tNs
      untilDetect := s.untilDetect - 1 })
  else
    let dets := s.detect ops frame
    let (out, tracker) := s.tracker.update ops.matcher dets dt warp
    (out, { s with
      tracker := tracker
      gmc := gmc
      gmcExclude := if trackGmc then dets.map Detection.box ++ out.map Track.box
        else s.gmcExclude
      prevTNs := frame.tNs
      untilDetect := max 1 s.cfg.detectInterval - 1 })

/-- The facade after a sequence of frames. -/
def run (ops : TbdOps R) (s : MultiTracker R) (frames : List (Frame R)) : MultiTracker R :=
  frames.foldl (fun s frame => (s.update ops frame).2) s

end MultiTracker

end Ctrk
