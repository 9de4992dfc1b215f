import CustosTracker.Apps.VideoSource
import CustosTracker.Sot.SotTracker
import CustosTracker.Tbd.Reports

set_option relaxedAutoImplicit false
set_option autoImplicit false

/-!
# The command-line programs

The main loops of `apps/track_tbd.cpp` and `apps/track_sot.cpp`: read a frame, track it, dump the
result.

## Main definitions

* `Ctrk.TrackTbd`, `Ctrk.trackTbd` — the multi-object program.
* `Ctrk.TrackSot`, `Ctrk.trackSot` — the single-object program.

## Implementation notes

The programs read a file without a display, so that nothing but its end stops them.  Drawing,
encoding and latency statistics are left out.
-/

namespace Ctrk

variable {R : Type} [Scalar R]

/-! ## Multi-object tracking -/

/-- The variables of the loop of `track_tbd`: the tracker, the number of frames read, and the rows
of the dump when it is open. -/
structure TrackTbd (R : Type) [Scalar R] where
  tracker : MultiTracker R
  frameNo : ℤ := 0
  dump : Option (List (DumpRow R))

/-- The body of the loop. -/
def TrackTbd.onFrame (ops : TbdOps R) (s : TrackTbd R) (frame : Frame R) : TrackTbd R :=
  let frameNo := s.frameNo + 1
  let (tracks, tracker) := s.tracker.update ops frame
  { tracker := tracker
    frameNo := frameNo
    dump := s.dump.map fun rows => rows ++ dumpRows frameNo tracks }

/-- `track_tbd` on a file with a probed frame rate, with whether a dump opens. -/
def trackTbd (ops : TbdOps R) (detector : Image Bgr → List (Detection R)) (cfg : TbdConfig R)
    (dumps : Bool) (probed : R) (images : List (Image Bgr)) : Option (TrackTbd R) :=
  let src := VideoSource.new probed images
  VideoSource.consume (fun s image tNs => some (s.onFrame ops ⟨image, tNs, detector image⟩)) src.fps
    src.images src.idx
    { tracker := MultiTracker.new { cfg with nominalFps := src.fps }
      dump := if dumps then some [] else none }

/-! ## Single-object tracking -/

/-- The variables of the loop of `track_sot`: the tracker, whether it is initialized, the boxes of
the dump when it is open, and the results drawn. -/
structure TrackSot (K : Backend R) where
  tracker : SotTracker K
  initialized : Bool := false
  dump : Option (List (BBox R))
  drawn : List (SotResult R) := []

namespace TrackSot

variable {K : Backend R} (ops : HistOps R)

/-- Track one frame: the first one initializes the tracker on the given box. -/
def track (box : BBox R) (s : TrackSot K) (frame : Frame R) : Option (SotResult R × SotTracker K) :=
  if !s.initialized then some (⟨box, 1, .tracking⟩, s.tracker.init ops frame box)
  else (s.tracker.update ops frame).map fun p => (p.1.result, p.2)

/-- The body of the loop. -/
def onFrame (box : BBox R) (s : TrackSot K) (frame : Frame R) : Option (TrackSot K) :=
  (s.track ops box frame).map fun p =>
    { tracker := p.2
      initialized := true
      dump := s.dump.map fun boxes => boxes ++ [p.1.box]
      drawn := s.drawn ++ [p.1] }

end TrackSot

/-- `track_sot` with a constructed tracker, on a file with a probed frame rate. -/
def trackSot {K : Backend R} (ops : HistOps R) (detector : Image Bgr → List (Detection R))
    (tracker : SotTracker K) (box : BBox R) (dumps : Bool) (probed : R)
    (images : List (Image Bgr)) : Option (TrackSot K) :=
  let src := VideoSource.new probed images
  VideoSource.consume (fun s image tNs => s.onFrame ops box ⟨image, tNs, detector image⟩) src.fps
    src.images src.idx { tracker := tracker, dump := if dumps then some [] else none }

end Ctrk
