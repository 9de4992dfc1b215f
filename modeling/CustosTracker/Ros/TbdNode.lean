import CustosTracker.Ros.SotNode
import CustosTracker.Tbd.Reports

set_option relaxedAutoImplicit false
set_option autoImplicit false

/-!
# The tracking-by-detection node

`TbdNode` of `ros2/ctrk_ros/src/tbd_node.cpp`: images in, one array of detections per image out,
and a dump file of the confirmed tracks while the node is active.

## Main definitions

* `Ctrk.Detection2DArray`, `Ctrk.toDetections` — the messages.
* `Ctrk.TbdNode`, with its transitions and its callback `onImage`.
* `Ctrk.TbdCall`, `Ctrk.TbdNode.deliver`, `Ctrk.TbdNode.life` — the life of a node.

## Implementation notes

`onImage` returns none where the source dereferences an empty optional or pointer.  A row of the
dump is the numbers it formats.  Logging and the latency samples are left out.
-/

namespace Ctrk

variable {R : Type} [Scalar R]

/-! ## Messages -/

/-- `vision_msgs/ObjectHypothesisWithPose`. -/
structure ObjectHypothesis (R : Type) where
  classId : String
  score : R
  deriving DecidableEq

/-- `vision_msgs/Detection2D`: a box by its centre and size. -/
structure Detection2D (R : Type) where
  header : Header
  id : String
  centerX : R
  centerY : R
  sizeX : R
  sizeY : R
  results : List (ObjectHypothesis R)
  deriving DecidableEq

/-- `vision_msgs/Detection2DArray`. -/
structure Detection2DArray (R : Type) where
  header : Header
  detections : List (Detection2D R)
  deriving DecidableEq

/-- Whether a track is published. -/
def published (includeLost : Bool) (t : Track R) : Bool :=
  !(decide (t.state ≠ .confirmed) && !(includeLost && decide (t.state = .lost)))

/-- The message of one track. -/
def toDetection (header : Header) (t : Track R) : Detection2D R where
  header := header
  id := toString t.id
  centerX := t.box.cx
  centerY := t.box.cy
  sizeX := t.box.w
  sizeY := t.box.h
  results := [⟨toString t.classId, t.score⟩]

/-- `to_detections`. -/
def toDetections (tracks : List (Track R)) (header : Header) (includeLost : Bool) :
    Detection2DArray R :=
  ⟨header, (tracks.filter (published includeLost)).map (toDetection header)⟩

/-! ## The node -/

/-- The parameters the callbacks read. -/
structure TbdNodeParams (R : Type) [Scalar R] where
  cfg : TbdConfig R := {}
  publishLost : Bool := false
  dumps : Bool := false
  bench : Bool := false

/-- The node's members.  The publisher holds whether it is activated; the dump file keeps its rows
after it is closed. -/
structure TbdNode (R : Type) [Scalar R] where
  lifecycle : Lifecycle := .unconfigured
  params : TbdNodeParams R := {}
  tracker : Option (MultiTracker R) := none
  tracksPub : Option Bool := none
  imageSub : Bool := false
  dumpOpen : Bool := false
  dumpFile : List (DumpRow R) := []
  frameNo : ℤ := 0
  collector : Bool := false

/-- What the image callback did: the tracks the tracker returned, and the message published. -/
structure TbdReport (R : Type) where
  tracks : Option (List (Track R)) := none
  published : Option (Detection2DArray R) := none

/-- How a configuration ends: the parameters are accepted and the tracker is built, a parameter is
rejected, or the constructor of the tracker throws. -/
inductive TbdConfigure (R : Type) [Scalar R]
  | built (params : TbdNodeParams R)
  | badParams
  | badTracker (params : TbdNodeParams R)

namespace TbdNode

variable (ops : TbdOps R)

/-- `on_configure`. -/
def onConfigure (n : TbdNode R) : TbdConfigure R → Bool × TbdNode R
  | .badParams => (false, n)
  | .badTracker params => (false, { n with params := params, tracker := none })
  | .built params => (true, { n with
      params := params
      tracker := some (MultiTracker.new params.cfg)
      tracksPub := some false })

/-- `on_activate`, with whether the dump file opens. -/
def onActivate (n : TbdNode R) (dumpOpens : Bool) : Bool × TbdNode R :=
  let n := { n with tracksPub := n.tracksPub.map fun _ => true, frameNo := 0 }
  if n.params.dumps && !dumpOpens then (false, { n with dumpOpen := false })
  else (true, { n with
    dumpOpen := n.params.dumps
    dumpFile := if n.params.dumps then [] else n.dumpFile
    collector := if n.params.bench then true else n.collector
    imageSub := true })

/-- `on_deactivate`. -/
def onDeactivate (n : TbdNode R) : TbdNode R :=
  { n with
    imageSub := false
    tracksPub := n.tracksPub.map fun _ => false
    dumpOpen := false
    collector := false }

/-- `on_cleanup`. -/
def onCleanup (n : TbdNode R) : TbdNode R := { n with tracker := none, tracksPub := none }

/-- `on_shutdown`. -/
def onShutdown (n : TbdNode R) : TbdNode R :=
  { n with imageSub := false, tracker := none, tracksPub := none }

/-- `on_image`. -/
def onImage (n : TbdNode R) (msg : ImageMsg R) : Option (TbdReport R × TbdNode R) :=
  match toFrameView msg with
  | none => some ({}, n)
  | some view =>
    let frameNo := n.frameNo + 1
    n.tracker.bind fun tracker => n.tracksPub.map fun active =>
      let (tracks, tracker) := tracker.update ops view
      -- a lifecycle publisher publishes nothing until it is activated
      ({ tracks := some tracks
         published := if active then some (toDetections tracks msg.header n.params.publishLost)
           else none },
        { n with
          frameNo := frameNo
          tracker := some tracker
          dumpFile := if n.dumpOpen then n.dumpFile ++ dumpRows frameNo tracks else n.dumpFile })

end TbdNode

/-! ## The life of a node -/

/-- What the executor dispatches: transitions of the lifecycle, and images. -/
inductive TbdCall (R : Type) [Scalar R]
  | configure (outcome : TbdConfigure R)
  | activate (dumpOpens : Bool)
  | deactivate
  | cleanup
  | shutdown
  | image (msg : ImageMsg R)

/-- An event of the node: the call, and what it did. -/
abbrev TbdEvent (R : Type) [Scalar R] := TbdCall R × TbdReport R

namespace TbdNode

variable (ops : TbdOps R)

/-- Whether a call can be delivered: a transition in its primary state, an image to a
subscription. -/
def enabled (n : TbdNode R) : TbdCall R → Bool
  | .configure _ => n.lifecycle = .unconfigured
  | .activate _ => n.lifecycle = .inactive
  | .deactivate => n.lifecycle = .active
  | .cleanup => n.lifecycle = .inactive
  | .shutdown => n.lifecycle ≠ .finalized
  | .image _ => n.imageSub

/-- Execute one call.  A transition that fails leaves the primary state as it was. -/
def dispatch (n : TbdNode R) : TbdCall R → Option (TbdReport R × TbdNode R)
  | .configure outcome =>
    let p := n.onConfigure outcome
    some ({}, { p.2 with lifecycle := if p.1 then .inactive else .unconfigured })
  | .activate dumpOpens =>
    let p := n.onActivate dumpOpens
    some ({}, { p.2 with lifecycle := if p.1 then .active else .inactive })
  | .deactivate => some ({}, { n.onDeactivate with lifecycle := .inactive })
  | .cleanup => some ({}, { n.onCleanup with lifecycle := .unconfigured })
  | .shutdown => some ({}, { n.onShutdown with lifecycle := .finalized })
  | .image msg => n.onImage ops msg

/-- Deliver one call. -/
def deliver (n : TbdNode R) (c : TbdCall R) : Option (TbdEvent R × TbdNode R) :=
  if n.enabled c then (n.dispatch ops c).map fun p => ((c, p.1), p.2) else none

/-- Deliver a sequence of calls. -/
def life (n : TbdNode R) (cs : List (TbdCall R)) : Option (List (TbdEvent R) × TbdNode R) :=
  Trace.run (deliver ops) n cs

end TbdNode

end Ctrk
