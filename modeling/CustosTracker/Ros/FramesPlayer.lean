import CustosTracker.Library.Trace

set_option relaxedAutoImplicit false
set_option autoImplicit false

/-!
# The frames player

`FramesPlayerNode` of `ros2/ctrk_ros/src/frames_player_node.cpp`: an image sequence published by a
clock, or in lockstep with the outputs of a tracker.

## Main definitions

* `Ctrk.Capture` — what the player uses of a video capture.
* `Ctrk.FramesPlayer`, with its callbacks `onWaitTick`, `onAck` and `publishNext`.
* `Ctrk.Playback`, `Ctrk.Playback.run` — a player and a tracker that answers every frame.

## Implementation notes

Frames are numbered from `1` in the order of their publication.  What an image holds and its stamp
are left out, and so is the shutdown after the last frame.
-/

namespace Ctrk

/-- A video capture: `read`, with whether it gives a frame, and `open`, with whether it succeeds. -/
structure Capture where
  State : Type
  read : State → Bool × State
  reopen : State → Bool × State

/-- The pacing modes. -/
inductive PlayerMode
  | rate
  | lockstep
  deriving DecidableEq

/-- The parameters of the player that decide what it publishes. -/
structure PlayerParams where
  mode : PlayerMode := .rate
  loop : Bool := false
  frameLimit : ℤ := 0

/-- The player's members.  A timer that is set holds true; the timeout timer holds the number of
frames published when it was armed. -/
structure FramesPlayer (C : Capture) where
  params : PlayerParams
  cap : C.State
  waitTimer : Bool := true
  rateTimer : Bool := false
  timeoutTimer : Option ℕ := none
  done : Bool := false
  published : ℕ := 0

namespace FramesPlayer

variable {C : Capture}

/-- Read a frame; at the end of a sequence that loops, from its start. -/
def readFrame (n : FramesPlayer C) : Bool × C.State :=
  let r := C.read n.cap
  if r.1 then r
  else if n.params.loop ∧ 0 < n.published then
    let o := C.reopen r.2
    if o.1 then C.read o.2 else o
  else r

/-- Whether `frame_limit` frames are published. -/
def limitReached (n : FramesPlayer C) : Bool :=
  0 < n.params.frameLimit ∧ n.params.frameLimit ≤ n.published

/-- `finish`. -/
def finish (n : FramesPlayer C) : FramesPlayer C :=
  if n.done then n else { n with done := true, rateTimer := false, timeoutTimer := none }

/-- `publish_next`, with the number of the frame it publishes. -/
def publishNext (n : FramesPlayer C) : Option ℕ × FramesPlayer C :=
  let n := { n with timeoutTimer := none }
  if n.done then (none, n)
  else if n.limitReached then (none, n.finish)
  else
    let (found, cap) := n.readFrame
    let n := { n with cap := cap }
    if !found then (none, n.finish)
    else (some (n.published + 1), { n with published := n.published + 1 })

/-- `arm_timeout`. -/
def armTimeout (n : FramesPlayer C) : FramesPlayer C := { n with timeoutTimer := some n.published }

/-- `on_ack`. -/
def onAck (n : FramesPlayer C) : Option ℕ × FramesPlayer C :=
  if n.done then (none, n)
  else
    let (frame, n) := n.publishNext
    (frame, if !n.done then n.armTimeout else n)

/-- `on_wait_tick`, with whether the tracker has subscribed and the start delay is over. -/
def onWaitTick (n : FramesPlayer C) (ready : Bool) : Option ℕ × FramesPlayer C :=
  if !ready then (none, n)
  else
    let (frame, n) := { n with waitTimer := false }.publishNext
    (frame, if n.params.mode = .rate then { n with rateTimer := true } else n.armTimeout)

/-- Whether the player has a frame left to publish. -/
def hasNext (n : FramesPlayer C) : Bool := !n.done && !n.limitReached && n.readFrame.1

end FramesPlayer

/-! ## A player with a tracker -/

/-- A player, and the frames of the tracker whose outputs are not delivered yet, in order. -/
structure Playback (C : Capture) where
  player : FramesPlayer C
  inFlight : List ℕ := []

/-- What the executor dispatches: a timer, or the next output of the tracker. -/
inductive PlaybackCall
  | waitTick (ready : Bool)
  | rateTick
  | output
  | timeout
  deriving DecidableEq

/-- What happened: the frame whose output was delivered, the frame whose timeout fired, and the
frame published. -/
structure PlaybackEvent where
  delivered : Option ℕ := none
  timedOut : Option ℕ := none
  published : Option ℕ := none
  deriving DecidableEq

namespace Playback

variable {C : Capture}

/-- The tracker receives what the player publishes. -/
def receive (s : Playback C) (r : Option ℕ × FramesPlayer C) : Playback C :=
  { player := r.2, inFlight := s.inFlight ++ r.1.toList }

/-- Dispatch one call; none when its timer is not set or no output is left to deliver. -/
def step (s : Playback C) : PlaybackCall → Option (PlaybackEvent × Playback C)
  | .waitTick ready =>
    if s.player.waitTimer then
      let r := s.player.onWaitTick ready
      some ({ published := r.1 }, s.receive r)
    else none
  | .rateTick =>
    if s.player.rateTimer then
      let r := s.player.publishNext
      some ({ published := r.1 }, s.receive r)
    else none
  | .output =>
    match s.inFlight with
    | [] => none
    | k :: rest =>
      let s := { s with inFlight := rest }
      -- only the lockstep mode subscribes to the outputs
      if s.player.params.mode = .lockstep then
        let r := s.player.onAck
        some ({ delivered := some k, published := r.1 }, s.receive r)
      else some ({ delivered := some k }, s)
  | .timeout =>
    match s.player.timeoutTimer with
    | none => none
    | some k =>
      let r := s.player.onAck
      some ({ timedOut := some k, published := r.1 }, s.receive r)

/-- Dispatch a sequence of calls. -/
def run (s : Playback C) (calls : List PlaybackCall) : Option (List PlaybackEvent × Playback C) :=
  Trace.run step s calls

/-- A player on a capture, before its first frame. -/
def new (params : PlayerParams) (cap : C.State) : Playback C :=
  { player := { params := params, cap := cap } }

end Playback

end Ctrk
