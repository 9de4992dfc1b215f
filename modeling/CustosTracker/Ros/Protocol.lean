import CustosTracker.Ros.Designation

set_option relaxedAutoImplicit false
set_option autoImplicit false

/-!
# The callback protocol of the single-object node

The node over its whole life: lifecycle transitions, images, requests and resets in any order.
Two optional members and a flag encode whether it is idle, armed or tracking; the invariant
`ProtocolInv` ties them to the history.

## Main definitions

* `Ctrk.NodeCall` — the transitions and callbacks, `Ctrk.SotNode.dispatch`, `Ctrk.SotNode.life`.
* `Ctrk.initializes`, `Ctrk.designation` — the events the protocol is about.
* `Ctrk.SotNode.Protocol` — the protocol, of a history and the state after it.

## Main results

* `Ctrk.SotNode.protocolInv_life` — the invariant holds after every run.
* `Ctrk.SotNode.callback_protocol` — every run follows the protocol.

## Implementation notes

A service exists from the configuration to the cleanup, the image subscription from the activation
to the deactivation; a call that cannot be delivered is not part of a run.
-/

namespace Ctrk

open Trace

variable {R : Type} [Scalar R] {K : Backend R}

/-! ## Transitions -/

/-- What the executor dispatches: transitions of the lifecycle, and callbacks. -/
inductive NodeCall (K : Backend R)
  | configure (params : SotNodeParams R) (tracker : SotTracker K)
  | activate (dumpOpens : Bool)
  | deactivate
  | cleanup
  | shutdown
  | callback (c : SotCallback R)

/-- An event of the node: the call, and what it did. -/
abbrev NodeEvent (K : Backend R) := NodeCall K × SotNodeReport R

namespace SotNode

variable (ops : HistOps R)

/-- `on_configure`, with the parameters it reads and the tracker it builds. -/
def onConfigure (n : SotNode K) (params : SotNodeParams R) (tracker : SotTracker K) : SotNode K :=
  { n with params := params, tracker := some tracker }

/-- `on_deactivate`. -/
def onDeactivate (n : SotNode K) : SotNode K := { n with lastFrame := none, dumpOpen := false }

/-- `on_cleanup`. -/
def onCleanup (n : SotNode K) : SotNode K := { n with tracker := none }

/-- `on_shutdown`. -/
def onShutdown (n : SotNode K) : SotNode K := { n with tracker := none }

/-- Whether a call can be delivered: a transition in its primary state, an image with the
subscription there, a request or a reset with the services there. -/
def enabled (n : SotNode K) : NodeCall K → Bool
  | .configure _ _ => n.lifecycle = .unconfigured
  | .activate _ => n.lifecycle = .inactive
  | .deactivate => n.lifecycle = .active
  | .cleanup => n.lifecycle = .inactive
  | .shutdown => n.lifecycle ≠ .finalized
  | .callback (.image _) => n.lifecycle = .active
  | .callback _ => n.lifecycle = .inactive ∨ n.lifecycle = .active

/-- Execute one call. -/
def dispatch (n : SotNode K) : NodeCall K → Option (SotNodeReport R × SotNode K)
  | .configure params tracker =>
    some ({}, { n.onConfigure params tracker with lifecycle := .inactive })
  | .activate dumpOpens => some ({}, n.activate dumpOpens)
  | .deactivate => some ({}, { n.onDeactivate with lifecycle := .inactive })
  | .cleanup => some ({}, { n.onCleanup with lifecycle := .unconfigured })
  | .shutdown => some ({}, { n.onShutdown with lifecycle := .finalized })
  | .callback c => n.callback ops c

/-- Deliver one call. -/
def deliver (n : SotNode K) (c : NodeCall K) : Option (NodeEvent K × SotNode K) :=
  if n.enabled c then (n.dispatch ops c).map fun p => ((c, p.1), p.2) else none

/-- Deliver a sequence of calls. -/
def life (n : SotNode K) (cs : List (NodeCall K)) : Option (List (NodeEvent K) × SotNode K) :=
  Trace.run (deliver ops) n cs

theorem deliver_eq_some {n n' : SotNode K} {c : NodeCall K} {e : NodeEvent K} :
    n.deliver ops c = some (e, n') ↔
      n.enabled c = true ∧ ∃ rep, n.dispatch ops c = some (rep, n') ∧ e = (c, rep) := by
  unfold deliver
  constructor
  · intro h
    split_ifs at h with henabled
    obtain ⟨⟨rep, n₁⟩, hdispatch, heq⟩ := Option.map_eq_some_iff.mp h
    obtain ⟨rfl, rfl⟩ := Prod.mk.inj heq
    exact ⟨henabled, rep, hdispatch, rfl⟩
  · intro h
    obtain ⟨henabled, rep, hdispatch, rfl⟩ := h
    rw [if_pos henabled, hdispatch]
    rfl

end SotNode

/-! ## Histories -/

/-- The event initialized the tracker. -/
def initializes (_ : List (NodeEvent K)) (e : NodeEvent K) : Bool := e.2.init.isSome

/-- A transition or a reset. -/
def NodeCall.interrupts : NodeCall K → Bool
  | .callback c => c.isReset
  | _ => true

/-- An activation or a reset. -/
def NodeCall.restarts : NodeCall K → Bool
  | .activate _ => true
  | .callback c => c.isReset
  | _ => false

/-- The parameters of the last configuration. -/
def configuredParams (evs : List (NodeEvent K)) : SotNodeParams R :=
  evs.foldl (fun params e => match e.1 with
    | .configure params' _ => params'
    | _ => params) {}

/-- A designation: an activation with an `init_bbox`, or a request accepted. -/
def designation (before : List (NodeEvent K)) (e : NodeEvent K) : Bool :=
  match e.1 with
  | .activate _ => !(configuredParams before).initBbox.isEmpty
  | .callback (.setTarget _) => e.2.response.any ServiceResponse.accepted
  | _ => false

theorem configuredParams_append_singleton (evs : List (NodeEvent K)) (e : NodeEvent K) :
    configuredParams (evs ++ [e]) = match e.1 with
      | .configure params _ => params
      | _ => configuredParams evs := by
  rw [configuredParams, List.foldl_append]
  rfl

namespace SotNode

variable (ops : HistOps R)

/-! ## The invariant -/

/-- A target was designated, and neither an activation nor a reset came after that. -/
def Designated (evs : List (NodeEvent K)) : Prop :=
  Since designation (fun e => e.1.restarts) evs

/-- The tracker was initialized, and only images and requests came after that. -/
def Initialized (evs : List (NodeEvent K)) : Prop :=
  Since initializes (fun e => e.1.interrupts) evs

/-- How the members of the node encode its history. -/
structure ProtocolInv (evs : List (NodeEvent K)) (n : SotNode K) : Prop where
  params : n.params = configuredParams evs
  tracker : n.lifecycle = .inactive ∨ n.lifecycle = .active → n.tracker.isSome = true
  cached : ∀ msg, n.lastFrame = some msg → (toFrameView msg).isSome = true
  designated : n.lifecycle = .active →
    (n.targetSet = true ∨ n.pendingInit.isSome = true ↔ Designated evs)
  initialized : n.lifecycle = .active → n.targetSet = true → Initialized evs

theorem protocolInv_nil : ProtocolInv [] ({} : SotNode K) where
  params := rfl
  tracker := by rintro (h | h) <;> cases h
  cached := fun msg h => by cases h
  designated := fun h => by cases h
  initialized := fun h => by cases h

theorem CallbackStep.keeps_params {n n' : SotNode K} {c : SotCallback R} {rep : SotNodeReport R}
    (h : CallbackStep ops n c rep n') : n'.params = n.params := by
  cases h <;> rfl

theorem CallbackStep.keeps_tracker {n n' : SotNode K} {c : SotCallback R} {rep : SotNodeReport R}
    (h : CallbackStep ops n c rep n') (hn : n.tracker.isSome = true) : n'.tracker.isSome = true := by
  cases h <;> first | exact hn | rfl

/-- A cached image has been viewed once, and can be viewed again. -/
theorem CallbackStep.keeps_viewable {n n' : SotNode K} {c : SotCallback R} {rep : SotNodeReport R}
    (h : CallbackStep ops n c rep n')
    (hn : ∀ msg, n.lastFrame = some msg → (toFrameView msg).isSome = true) :
    ∀ msg, n'.lastFrame = some msg → (toFrameView msg).isSome = true := by
  cases h with
  | cached msg view hview =>
    intro msg' hmsg
    obtain rfl := Option.some.inj hmsg
    rw [hview]
    rfl
  | reset => exact fun msg hmsg => by cases hmsg
  | _ => exact hn

/-- The flag and the armed box of the node say whether a target is designated. -/
theorem CallbackStep.designated {n n' : SotNode K} {c : SotCallback R} {rep : SotNodeReport R}
    (h : CallbackStep ops n c rep n') (evs : List (NodeEvent K)) :
    (n'.targetSet = true ∨ n'.pendingInit.isSome = true ↔
      designation evs (NodeCall.callback c, rep) = true ∨
        c.isReset = false ∧ (n.targetSet = true ∨ n.pendingInit.isSome = true)) := by
  cases h with
  | dropped msg hview => simp [designation, SotCallback.isReset]
  | cached msg view hview hset hpending => simp [designation, SotCallback.isReset]
  | consumed msg view box tracker hview hset hpending =>
    simp [designation, SotCallback.isReset, hpending]
  | tracked msg view tracker tracker' rep hview hset => simp [designation, SotCallback.isReset]
  | refused req message hrefused => simp [designation, SotCallback.isReset]
  | immediate req msg view tracker hactive hvalid hlast hview => simp [designation]
  | armed req hactive hvalid hlast => simp [designation]
  | reset => simp [designation, SotCallback.isReset]

/-- The flag is set by an initialization, and cleared by a reset. -/
theorem CallbackStep.initialized {n n' : SotNode K} {c : SotCallback R} {rep : SotNodeReport R}
    (h : CallbackStep ops n c rep n') (hset' : n'.targetSet = true) :
    rep.init.isSome = true ∨ c.isReset = false ∧ n.targetSet = true := by
  cases h with
  | consumed msg view box tracker hview hset hpending => exact Or.inl rfl
  | immediate req msg view tracker hactive hvalid hlast hview => exact Or.inl rfl
  | armed req hactive hvalid hlast => cases hset'
  | reset => cases hset'
  | _ => exact Or.inr ⟨rfl, hset'⟩

/-- A callback keeps the invariant. -/
theorem ProtocolInv.callback {evs : List (NodeEvent K)} {n n' : SotNode K} {c : SotCallback R}
    {rep : SotNodeReport R} (hinv : ProtocolInv evs n) (h : CallbackStep ops n c rep n') :
    ProtocolInv (evs ++ [(.callback c, rep)]) n' := by
  have hlife : n'.lifecycle = n.lifecycle := h.keeps_lifecycle
  refine ⟨?_, ?_, h.keeps_viewable ops hinv.cached, ?_, ?_⟩
  · rw [h.keeps_params, hinv.params, configuredParams_append_singleton]
  · rw [hlife]
    intro hconfigured
    exact h.keeps_tracker ops (hinv.tracker hconfigured)
  · rw [hlife]
    intro hactive
    rw [Designated, since_append_singleton, h.designated ops evs, hinv.designated hactive]
    rfl
  · rw [hlife]
    intro hactive hset'
    rw [Initialized, since_append_singleton]
    rcases h.initialized ops hset' with hinit | ⟨hreset, hset⟩
    · exact Or.inl hinit
    · exact Or.inr ⟨hreset, hinv.initialized hactive hset⟩

/-- After an activation nothing is set, and `init_bbox` arms the node.

**Proof sketch.** An activation keeps parameters and tracker and clears the rest, so the
designation since the last restart is the one that the parameters arm. -/
theorem ProtocolInv.activate {evs : List (NodeEvent K)} {n : SotNode K} (hinv : ProtocolInv evs n)
    (hinactive : n.lifecycle = .inactive) (dumpOpens : Bool) (rep : SotNodeReport R) :
    ProtocolInv (evs ++ [(.activate dumpOpens, rep)]) (n.activate dumpOpens) := by
  obtain ⟨hlast, hset, hpending⟩ := onActivate_state n dumpOpens
  have hkept : (n.onActivate dumpOpens).2.params = n.params ∧
      (n.onActivate dumpOpens).2.tracker = n.tracker := by
    simp only [onActivate]
    split_ifs <;> exact ⟨rfl, rfl⟩
  rw [SotNode.activate, if_neg (not_not.mpr hinactive)]
  refine ⟨?_, ?_, ?_, ?_, ?_⟩
  · rw [configuredParams_append_singleton]
    exact hkept.1.trans hinv.params
  · intro _
    exact (congrArg Option.isSome hkept.2).trans (hinv.tracker (Or.inl hinactive))
  · intro msg hmsg
    rw [hlast] at hmsg
    cases hmsg
  · intro _
    rw [Designated, since_append_singleton, hset, hpending]
    simp [designation, NodeCall.restarts, ← hinv.params, armsFirst]
  · intro _ hset'
    rw [hset] at hset'
    cases hset'

/-- Outside the active state only the parameters, the tracker and the cached frame matter. -/
theorem ProtocolInv.of_not_active {evs : List (NodeEvent K)} {n : SotNode K} {e : NodeEvent K}
    (hlife : n.lifecycle ≠ .active) (hparams : n.params = configuredParams (evs ++ [e]))
    (htracker : n.lifecycle = .inactive → n.tracker.isSome = true)
    (hcached : ∀ msg, n.lastFrame = some msg → (toFrameView msg).isSome = true) :
    ProtocolInv (evs ++ [e]) n where
  params := hparams
  tracker := by
    rintro (hinactive | hactive)
    · exact htracker hinactive
    · exact absurd hactive hlife
  cached := hcached
  designated := fun hactive => absurd hactive hlife
  initialized := fun hactive => absurd hactive hlife

/-- **Every call keeps the invariant.**

**Proof sketch.** By cases on the call.  The lifecycle calls set the fields the invariant speaks
about; the callbacks are the step lemma. -/
theorem ProtocolInv.deliver {evs : List (NodeEvent K)} {n n' : SotNode K} {c : NodeCall K}
    {e : NodeEvent K} (hinv : ProtocolInv evs n) (h : n.deliver ops c = some (e, n')) :
    ProtocolInv (evs ++ [e]) n' := by
  obtain ⟨henabled, rep, hdispatch, rfl⟩ := (deliver_eq_some ops).mp h
  have hparams := configuredParams_append_singleton evs (c, rep)
  cases c with
  | configure params tracker =>
    obtain ⟨rfl, rfl⟩ := Prod.mk.inj (Option.some.inj hdispatch)
    refine ProtocolInv.of_not_active (fun hactive => Lifecycle.noConfusion hactive) ?_ ?_ ?_
    · exact hparams.symm
    · intro _
      rfl
    · exact hinv.cached
  | activate dumpOpens =>
    obtain ⟨rfl, rfl⟩ := Prod.mk.inj (Option.some.inj hdispatch)
    exact hinv.activate (by simpa [enabled] using henabled) dumpOpens _
  | deactivate =>
    obtain ⟨rfl, rfl⟩ := Prod.mk.inj (Option.some.inj hdispatch)
    refine ProtocolInv.of_not_active (fun hactive => Lifecycle.noConfusion hactive) ?_ ?_ ?_
    · exact hinv.params.trans hparams.symm
    · intro _
      exact hinv.tracker (Or.inr (by simpa [enabled] using henabled))
    · intro msg hmsg
      cases hmsg
  | cleanup =>
    obtain ⟨rfl, rfl⟩ := Prod.mk.inj (Option.some.inj hdispatch)
    refine ProtocolInv.of_not_active (fun hactive => Lifecycle.noConfusion hactive) ?_ ?_ ?_
    · exact hinv.params.trans hparams.symm
    · intro hinactive
      cases hinactive
    · exact hinv.cached
  | shutdown =>
    obtain ⟨rfl, rfl⟩ := Prod.mk.inj (Option.some.inj hdispatch)
    refine ProtocolInv.of_not_active (fun hactive => Lifecycle.noConfusion hactive) ?_ ?_ ?_
    · exact hinv.params.trans hparams.symm
    · intro hinactive
      cases hinactive
    · exact hinv.cached
  | callback c => exact hinv.callback ops (callback_step ops hdispatch)

/-- **The invariant holds after every run.** -/
theorem protocolInv_life {cs : List (NodeCall K)} {evs : List (NodeEvent K)} {n : SotNode K}
    (h : ({} : SotNode K).life ops cs = some (evs, n)) : ProtocolInv evs n := by
  refine Trace.run_induction (P := ProtocolInv) protocolInv_nil ?_ h
  intro evs n₁ c e n₂ hinv hdeliver
  exact hinv.deliver ops hdeliver

/-! ## The protocol -/

omit [Scalar R] in
theorem toSotStatus_state_ne_idle (result : SotResult R) (header : Header) :
    (toSotStatus result header).state ≠ .idle := by
  obtain ⟨box, score, state⟩ := result
  cases state <;> simp [toSotStatus]

/-- The protocol of the callbacks, for a history and the state after it. -/
structure Protocol (evs : List (NodeEvent K)) (n : SotNode K) : Prop where
  /-- The tracker is updated only after an initialization in the same activation, with no reset
  in between. -/
  update_initialized : ∀ (pre : List (NodeEvent K)) (e : NodeEvent K) (post : List (NodeEvent K)),
    evs = pre ++ e :: post → e.2.updated.isSome = true → Initialized pre
  /-- Every `bgr8` image is answered by one status, which is idle exactly when no target was
  designated since the last activation or reset. -/
  one_status : ∀ (pre : List (NodeEvent K)) (msg : ImageMsg R) (rep : SotNodeReport R)
      (post : List (NodeEvent K)),
    evs = pre ++ (.callback (.image msg), rep) :: post → msg.encoding = "bgr8" →
      ∃ status, rep.published = some status ∧ (status.state = .idle ↔ ¬Designated pre)
  /-- A request for no valid target, or outside the active state, is refused and changes
  nothing. -/
  refused_unchanged : ∀ req : BBox R, n.lifecycle ≠ .active ∨ req.w ≤ 0 ∨ req.h ≤ 0 →
    ∃ message, n.dispatch ops (.callback (.setTarget req)) =
      some ({ response := some ⟨false, message⟩ }, n)
  /-- The next call goes through, unless the tracker itself fails on an image. -/
  only_tracker_fails : ∀ c : NodeCall K, n.enabled c = true → n.dispatch ops c = none →
    ∃ (msg : ImageMsg R) (view : Frame R) (tracker : SotTracker K),
      c = .callback (.image msg) ∧ toFrameView msg = some view ∧ n.tracker = some tracker ∧
        tracker.update ops view = none

/-- What the node does with a `bgr8` image while it is active. -/
theorem ProtocolInv.status {evs : List (NodeEvent K)} {n n' : SotNode K} {msg : ImageMsg R}
    {rep : SotNodeReport R} (hinv : ProtocolInv evs n) (hactive : n.lifecycle = .active)
    (hencoding : msg.encoding = "bgr8") (h : CallbackStep ops n (.image msg) rep n') :
    ∃ status, rep.published = some status ∧ (status.state = .idle ↔ ¬Designated evs) := by
  rw [← hinv.designated hactive]
  cases h with
  | dropped msg hview => simp [toFrameView, hencoding] at hview
  | cached msg view hview hset hpending =>
    exact ⟨_, rfl, iff_of_true rfl (by simp [hset, hpending])⟩
  | consumed msg view box tracker hview hset hpending =>
    refine ⟨_, rfl, iff_of_false (toSotStatus_state_ne_idle _ _) ?_⟩
    simp [hpending]
  | tracked msg view tracker tracker' rep hview hset =>
    refine ⟨_, rfl, iff_of_false (toSotStatus_state_ne_idle _ _) ?_⟩
    simp [hset]

/-- An update happens while the flag is set. -/
theorem ProtocolInv.update {evs : List (NodeEvent K)} {n n' : SotNode K} {c : SotCallback R}
    {rep : SotNodeReport R} (hinv : ProtocolInv evs n) (henabled : n.enabled (.callback c) = true)
    (h : CallbackStep ops n c rep n') (hupdated : rep.updated.isSome = true) :
    Initialized evs := by
  cases h with
  | tracked msg view tracker tracker' rep hview hset =>
    exact hinv.initialized (by simpa [enabled] using henabled) hset
  | _ => cases hupdated

/-- A request that is not valid is refused. -/
theorem onSetTarget_refused (n : SotNode K) {req : BBox R}
    (h : n.lifecycle ≠ .active ∨ req.w ≤ 0 ∨ req.h ≤ 0) :
    ∃ message, n.onSetTarget ops req = some ({ response := some ⟨false, message⟩ }, n) := by
  by_cases hactive : n.lifecycle ≠ .active
  · exact ⟨_, if_pos hactive⟩
  · refine ⟨_, (if_neg hactive).trans (if_pos ?_)⟩
    simpa [validTarget] using h.resolve_left hactive

/-- Image callbacks dereference no empty pointer. -/
theorem ProtocolInv.onImage_fails {evs : List (NodeEvent K)} {n : SotNode K} {msg : ImageMsg R}
    (hinv : ProtocolInv evs n) (hactive : n.lifecycle = .active) (h : n.onImage ops msg = none) :
    ∃ (view : Frame R) (tracker : SotTracker K), toFrameView msg = some view ∧
      n.tracker = some tracker ∧ tracker.update ops view = none := by
  obtain ⟨tracker, htracker⟩ := Option.isSome_iff_exists.mp (hinv.tracker (Or.inr hactive))
  unfold onImage at h
  cases hview : toFrameView msg with
  | none =>
    rw [hview] at h
    cases h
  | some view =>
    refine ⟨view, tracker, rfl, htracker, ?_⟩
    simp only [hview, htracker] at h
    cases hset : n.targetSet with
    | false => cases hpending : n.pendingInit <;> simp [hset, hpending] at h
    | true => simpa [hset] using h

/-- Requests dereference no empty pointer, and the cached image has a view. -/
theorem ProtocolInv.onSetTarget_isSome {evs : List (NodeEvent K)} {n : SotNode K}
    (hinv : ProtocolInv evs n) (req : BBox R) : (n.onSetTarget ops req).isSome = true := by
  unfold onSetTarget
  split_ifs with hactive hvalid
  · rfl
  · rfl
  · obtain ⟨tracker, htracker⟩ :=
      Option.isSome_iff_exists.mp (hinv.tracker (Or.inr (not_not.mp hactive)))
    cases hlast : n.lastFrame with
    | none => rfl
    | some msg =>
      obtain ⟨view, hview⟩ := Option.isSome_iff_exists.mp (hinv.cached msg hlast)
      simp [hview, htracker]

/-- **Every run follows the protocol.** From a node that is not configured yet, through any
sequence of lifecycle transitions, images, requests and resets that goes through.

**Proof sketch.** Each clause looks at one call of the run and uses the invariant before it:
which frame an update gets, what a status reports, and why a call that does not go through is an
image on which the tracker fails.  The refusals need no invariant. -/
theorem callback_protocol (cs : List (NodeCall K)) (evs : List (NodeEvent K)) (n : SotNode K)
    (h : ({} : SotNode K).life ops cs = some (evs, n)) : Protocol ops evs n := by
  refine ⟨?_, ?_, ?_, ?_⟩
  · intro pre e post hsplit hupdated
    rw [hsplit] at h
    obtain ⟨cs₁, c, n₁, n₂, hpre, hstep⟩ := Trace.run_split h
    obtain ⟨henabled, rep, hdispatch, rfl⟩ := (deliver_eq_some ops).mp hstep
    cases c with
    | callback c =>
      exact (protocolInv_life ops hpre).update ops henabled (callback_step ops hdispatch) hupdated
    | _ =>
      obtain ⟨rfl, -⟩ := Prod.mk.inj (Option.some.inj hdispatch)
      cases hupdated
  · intro pre msg rep post hsplit hencoding
    rw [hsplit] at h
    obtain ⟨cs₁, c, n₁, n₂, hpre, hstep⟩ := Trace.run_split h
    obtain ⟨henabled, rep', hdispatch, heq⟩ := (deliver_eq_some ops).mp hstep
    obtain ⟨rfl, rfl⟩ := Prod.mk.inj heq
    exact (protocolInv_life ops hpre).status ops (by simpa [enabled] using henabled) hencoding
      (callback_step ops hdispatch)
  · intro req hrefused
    exact onSetTarget_refused ops n hrefused
  · intro c henabled hnone
    have hinv := protocolInv_life ops h
    cases c with
    | callback c =>
      cases c with
      | image msg =>
        obtain ⟨view, tracker, hview, htracker, hfails⟩ :=
          hinv.onImage_fails ops (by simpa [enabled] using henabled) hnone
        exact ⟨msg, view, tracker, rfl, hview, htracker, hfails⟩
      | setTarget req =>
        have hsome := hinv.onSetTarget_isSome ops req
        rw [show n.onSetTarget ops req = none from hnone] at hsome
        cases hsome
      | reset => cases hnone
    | _ => cases hnone

/-- A node is configured and activated, idles, tracks, is reset and deactivated, and once more. -/
def twoActivations : List (NodeCall (playback : Backend ℚ)) :=
  [.configure {} (SotTracker.new { backend := .mosse } []), .callback (.setTarget ⟨0, 0, 4, 4⟩),
    .activate false, .callback (.image (blueMsg 7)), .callback (.setTarget ⟨0, 0, 4, 4⟩),
    .callback (.image (blueMsg 7)), .callback .reset, .callback (.image (blueMsg 9)), .deactivate,
    .callback .reset, .activate false, .callback (.setTarget ⟨1, 1, 4, 4⟩),
    .callback (.image (blueMsg 9)), .shutdown]

theorem callback_protocol_twice :
    ∃ (evs : List (NodeEvent (playback : Backend ℚ))) (n : SotNode (playback : Backend ℚ)),
      ({} : SotNode (playback : Backend ℚ)).life pixelOps twoActivations = some (evs, n) ∧
        Protocol pixelOps evs n := by
  have hruns :
      (({} : SotNode (playback : Backend ℚ)).life pixelOps twoActivations).isSome = true := by
    decide +kernel
  obtain ⟨⟨evs, n⟩, h⟩ := Option.isSome_iff_exists.mp hruns
  exact ⟨evs, n, h, callback_protocol pixelOps twoActivations evs n h⟩

end SotNode

end Ctrk
