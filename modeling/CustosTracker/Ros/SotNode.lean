import CustosTracker.Sot.SotTracker

set_option relaxedAutoImplicit false
set_option autoImplicit false

/-!
# The single-object tracker node

`SotNode` of `ros2/ctrk_ros/src/sot_node.cpp`: images in, one status per image out, a target set
by a service or by a parameter, and a reset back to idle.

## Main definitions

* `Ctrk.ImageMsg`, `Ctrk.toFrameView`, `Ctrk.SotStatus` — the messages.
* `Ctrk.SotNode`, with its callbacks `onActivate`, `onImage`, `onSetTarget` and `onReset`.
* `Ctrk.SotCallback`, `Ctrk.SotNode.run` — runs of the callbacks of an activation.

## Implementation notes

Callbacks return, besides the new state, what they did (`SotNodeReport`): calls of the tracker,
messages, responses.  They return `none` where the source dereferences an empty pointer, and where
the tracker faults.  Logging and timing are left out, and so is the image subscription, which
lasts from activation to deactivation.
-/

namespace Ctrk

variable {R : Type} [Scalar R]

/-! ## Messages -/

/-- `std_msgs/Header`, with the stamp in nanoseconds. -/
structure Header where
  stampNs : ℤ
  frameId : String
  deriving DecidableEq

/-- `sensor_msgs/Image`, with what the tracker's detector answers on it. -/
structure ImageMsg (R : Type) where
  header : Header
  encoding : String
  image : Image Bgr
  detections : List (Detection R)

/-- `to_frame_view`: a view of a `bgr8` image. -/
def toFrameView (msg : ImageMsg R) : Option (Frame R) :=
  if msg.encoding ≠ "bgr8" then none
  else some ⟨msg.image, msg.header.stampNs, msg.detections⟩

/-- The states of `SotStatus.msg`. -/
inductive StatusState
  | idle
  | tracking
  | unstable
  | lost
  deriving DecidableEq, Repr

/-- `ctrk_interfaces/SotStatus`. -/
structure SotStatus (R : Type) where
  header : Header
  state : StatusState
  box : BBox R
  score : R

/-- `to_sot_status`. -/
def toSotStatus (result : SotResult R) (header : Header) : SotStatus R where
  header := header
  state := match result.state with
    | .tracking => .tracking
    | .unstable => .unstable
    | .lost => .lost
  box := result.box
  score := result.score

/-- `idle_status`. -/
def idleStatus (header : Header) : SotStatus R := ⟨header, .idle, default, 0⟩

/-- The response of a service. -/
structure ServiceResponse where
  accepted : Bool
  message : String
  deriving DecidableEq

/-! ## The node -/

/-- The primary states of a lifecycle node. -/
inductive Lifecycle
  | unconfigured
  | inactive
  | active
  | finalized
  deriving DecidableEq

/-- The parameters the callbacks read: the box that arms the first frame (empty, or four numbers),
and whether a dump path is set. -/
structure SotNodeParams (R : Type) where
  initBbox : List R := []
  dumps : Bool := false

/-- The node's members. -/
structure SotNode (K : Backend R) where
  lifecycle : Lifecycle := .unconfigured
  params : SotNodeParams R := {}
  tracker : Option (SotTracker K) := none
  lastFrame : Option (ImageMsg R) := none
  pendingInit : Option (BBox R) := none
  targetSet : Bool := false
  dumpOpen : Bool := false
  frameNo : ℤ := 0

/-- What one callback did: the frame and box it passed to `tracker_->init`, the result of
`tracker_->update`, the published status, the dumped box, and the response. -/
structure SotNodeReport (R : Type) where
  init : Option (Frame R × BBox R) := none
  updated : Option (SotResult R) := none
  published : Option (SotStatus R) := none
  dumped : Option (BBox R) := none
  response : Option ServiceResponse := none

namespace SotNode

variable {K : Backend R} (ops : HistOps R)

/-- `on_activate`, with whether the dump file opens: idle, or armed by the parameter. -/
def onActivate (n : SotNode K) (dumpOpens : Bool) : Bool × SotNode K :=
  let n := { n with
    frameNo := 0
    targetSet := false
    lastFrame := none
    pendingInit := if n.params.initBbox.isEmpty then none
      else some ⟨n.params.initBbox.getD 0 0, n.params.initBbox.getD 1 0, n.params.initBbox.getD 2 0,
        n.params.initBbox.getD 3 0⟩ }
  if n.params.dumps && !dumpOpens then (false, { n with dumpOpen := false })
  else (true, { n with dumpOpen := n.params.dumps })

/-- The activation transition: refused outside the inactive state, and undone on failure. -/
def activate (n : SotNode K) (dumpOpens : Bool) : SotNode K :=
  if n.lifecycle ≠ .inactive then n
  else
    let p := n.onActivate dumpOpens
    { p.2 with lifecycle := if p.1 then .active else .inactive }

/-- `dump_box`: the box goes to the dump file when one is open. -/
def dumpBox (n : SotNode K) (b : BBox R) : Option (BBox R) := if n.dumpOpen then some b else none

/-- `on_image`. -/
def onImage (n : SotNode K) (msg : ImageMsg R) : Option (SotNodeReport R × SotNode K) :=
  match toFrameView msg with
  | none => some ({}, n)
  | some view =>
    let n := { n with frameNo := n.frameNo + 1 }
    if !n.targetSet then
      match n.pendingInit with
      | some box =>
        n.tracker.map fun tracker =>
          ({ init := some (view, box)
             published := some (toSotStatus ⟨box, 1, .tracking⟩ msg.header)
             dumped := n.dumpBox box },
            { n with
              tracker := some (tracker.init ops view box)
              pendingInit := none
              targetSet := true })
      | none =>
        some ({ published := some (idleStatus msg.header) }, { n with lastFrame := some msg })
    else
      n.tracker.bind fun tracker => (tracker.update ops view).map fun p =>
        ({ updated := some p.1.result
           published := some (toSotStatus p.1.result msg.header)
           dumped := n.dumpBox p.1.result.box },
          { n with tracker := some p.2 })

/-- A request for a target with positive width and height. -/
def validTarget (req : BBox R) : Bool := !decide (req.w ≤ 0 ∨ req.h ≤ 0)

/-- `on_set_target`. -/
def onSetTarget (n : SotNode K) (req : BBox R) : Option (SotNodeReport R × SotNode K) :=
  if n.lifecycle ≠ .active then some ({ response := some ⟨false, "node not active"⟩ }, n)
  else if !validTarget req then
    some ({ response := some ⟨false, "w and h must be positive"⟩ }, n)
  else
    match n.lastFrame with
    | some msg =>
      (toFrameView msg).bind fun view => n.tracker.map fun tracker =>
        ({ init := some (view, req)
           dumped := n.dumpBox req
           response := some ⟨true, "initialized on cached frame"⟩ },
          { n with
            tracker := some (tracker.init ops view req)
            targetSet := true
            pendingInit := none })
    | none =>
      some ({ response := some ⟨true, "armed; will initialize on the next frame"⟩ },
        { n with pendingInit := some req, targetSet := false })

/-- `on_reset`. -/
def onReset (n : SotNode K) : SotNodeReport R × SotNode K :=
  ({ response := some ⟨true, "idle"⟩ },
    { n with targetSet := false, pendingInit := none, lastFrame := none })

end SotNode

/-! ## Runs -/

/-- A callback of an active node. -/
inductive SotCallback (R : Type)
  | image (msg : ImageMsg R)
  | setTarget (req : BBox R)
  | reset

namespace SotNode

variable {K : Backend R} (ops : HistOps R)

/-- Dispatch one callback. -/
def callback (n : SotNode K) : SotCallback R → Option (SotNodeReport R × SotNode K)
  | .image msg => n.onImage ops msg
  | .setTarget req => n.onSetTarget ops req
  | .reset => some n.onReset

/-- Execute one callback; the event is the callback with its report. -/
def step (n : SotNode K) (c : SotCallback R) :
    Option ((SotCallback R × SotNodeReport R) × SotNode K) :=
  (n.callback ops c).map fun p => ((c, p.1), p.2)

/-- Execute a sequence of callbacks. -/
def run (n : SotNode K) (cs : List (SotCallback R)) :
    Option (List (SotCallback R × SotNodeReport R) × SotNode K) :=
  Trace.run (step ops) n cs

end SotNode

end Ctrk
