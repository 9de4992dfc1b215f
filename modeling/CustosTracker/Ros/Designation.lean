import CustosTracker.Ros.SotNode

set_option relaxedAutoImplicit false
set_option autoImplicit false

/-!
# On which frame a target is designated

A request that finds a cached frame initializes the tracker on it.  Frames are cached only while
the node is idle, so after a first target the cached frame is the one of that first request.

## Main definitions

* `Ctrk.SotNode.CallbackStep` — what one callback does.
* `Ctrk.lastAccepted`, `Ctrk.sinceReset` — the history of a sequence of callbacks.
* `Ctrk.Redesignated` — the history on which the cached frame is not the last one.

## Main results

* `Ctrk.SotNode.callback_step` — every callback is one of eight steps.
* `Ctrk.SotNode.cacheInvariant` — what the cached frame is, after every run.
* `Ctrk.SotNode.designation_iff` — exactly when every immediate designation uses the last frame.
-/

namespace Ctrk

variable {R : Type} [Scalar R] {K : Backend R}

namespace SotNode

variable (ops : HistOps R)

/-! ## One callback -/

/-- The steps of the callbacks. -/
inductive CallbackStep (n : SotNode K) :
    SotCallback R → SotNodeReport R → SotNode K → Prop
  /-- An image with another encoding. -/
  | dropped (msg : ImageMsg R) (hview : toFrameView msg = none) :
      CallbackStep n (.image msg) {} n
  /-- An image while idle. -/
  | cached (msg : ImageMsg R) (view : Frame R) (hview : toFrameView msg = some view)
      (hset : n.targetSet = false) (hpending : n.pendingInit = none) :
      CallbackStep n (.image msg) { published := some (idleStatus msg.header) }
        { n with frameNo := n.frameNo + 1, lastFrame := some msg }
  /-- An image while armed. -/
  | consumed (msg : ImageMsg R) (view : Frame R) (box : BBox R) (tracker : SotTracker K)
      (hview : toFrameView msg = some view) (hset : n.targetSet = false)
      (hpending : n.pendingInit = some box) (htracker : n.tracker = some tracker) :
      CallbackStep n (.image msg)
        { init := some (view, box)
          published := some (toSotStatus ⟨box, 1, .tracking⟩ msg.header)
          dumped := n.dumpBox box }
        { n with
          frameNo := n.frameNo + 1
          tracker := some (tracker.init ops view box)
          pendingInit := none
          targetSet := true }
  /-- An image while a target is set. -/
  | tracked (msg : ImageMsg R) (view : Frame R) (tracker tracker' : SotTracker K)
      (rep : SotReport R) (hview : toFrameView msg = some view) (hset : n.targetSet = true)
      (htracker : n.tracker = some tracker)
      (hupdate : tracker.update ops view = some (rep, tracker')) :
      CallbackStep n (.image msg)
        { updated := some rep.result
          published := some (toSotStatus rep.result msg.header)
          dumped := n.dumpBox rep.result.box }
        { n with frameNo := n.frameNo + 1, tracker := some tracker' }
  /-- A request refused. -/
  | refused (req : BBox R) (message : String)
      (hrefused : n.lifecycle ≠ .active ∨ validTarget req = false) :
      CallbackStep n (.setTarget req) { response := some ⟨false, message⟩ } n
  /-- A request with a cached frame. -/
  | immediate (req : BBox R) (msg : ImageMsg R) (view : Frame R) (tracker : SotTracker K)
      (hactive : n.lifecycle = .active) (hvalid : validTarget req = true)
      (hlast : n.lastFrame = some msg) (hview : toFrameView msg = some view)
      (htracker : n.tracker = some tracker) :
      CallbackStep n (.setTarget req)
        { init := some (view, req)
          dumped := n.dumpBox req
          response := some ⟨true, "initialized on cached frame"⟩ }
        { n with
          tracker := some (tracker.init ops view req)
          targetSet := true
          pendingInit := none }
  /-- A request without a cached frame. -/
  | armed (req : BBox R) (hactive : n.lifecycle = .active) (hvalid : validTarget req = true)
      (hlast : n.lastFrame = none) :
      CallbackStep n (.setTarget req)
        { response := some ⟨true, "armed; will initialize on the next frame"⟩ }
        { n with pendingInit := some req, targetSet := false }
  /-- A reset. -/
  | reset :
      CallbackStep n .reset { response := some ⟨true, "idle"⟩ }
        { n with targetSet := false, pendingInit := none, lastFrame := none }

theorem onImage_step {n n' : SotNode K} {msg : ImageMsg R} {rep : SotNodeReport R}
    (h : n.onImage ops msg = some (rep, n')) : CallbackStep ops n (.image msg) rep n' := by
  obtain ⟨lifecycle, params, tracker, last, pending, set, dump, no⟩ := n
  unfold onImage at h
  cases hview : toFrameView msg with
  | none =>
    rw [hview] at h
    obtain ⟨rfl, rfl⟩ := Prod.mk.inj (Option.some.inj h)
    exact .dropped msg hview
  | some view =>
    rw [hview] at h
    cases set with
    | false =>
      cases pending with
      | none =>
        obtain ⟨rfl, rfl⟩ := Prod.mk.inj (Option.some.inj h)
        exact .cached msg view hview rfl rfl
      | some box =>
        obtain ⟨tracker', htracker, h⟩ := Option.map_eq_some_iff.mp h
        obtain ⟨rfl, rfl⟩ := Prod.mk.inj h
        exact .consumed msg view box tracker' hview rfl rfl htracker
    | true =>
      obtain ⟨tracker', htracker, h⟩ := Option.bind_eq_some_iff.mp h
      obtain ⟨⟨rep', tracker''⟩, hupdate, h⟩ := Option.map_eq_some_iff.mp h
      obtain ⟨rfl, rfl⟩ := Prod.mk.inj h
      exact .tracked msg view tracker' tracker'' rep' hview rfl htracker hupdate

theorem onSetTarget_step {n n' : SotNode K} {req : BBox R} {rep : SotNodeReport R}
    (h : n.onSetTarget ops req = some (rep, n')) :
    CallbackStep ops n (.setTarget req) rep n' := by
  obtain ⟨lifecycle, params, tracker, last, pending, set, dump, no⟩ := n
  unfold onSetTarget at h
  split_ifs at h with hactive hvalid
  · obtain ⟨rfl, rfl⟩ := Prod.mk.inj (Option.some.inj h)
    exact .refused req _ (Or.inl hactive)
  · obtain ⟨rfl, rfl⟩ := Prod.mk.inj (Option.some.inj h)
    exact .refused req _ (Or.inr (by simpa using hvalid))
  · have hvalid' : validTarget req = true := by simpa using hvalid
    have hactive' : lifecycle = .active := by simpa using hactive
    cases last with
    | none =>
      obtain ⟨rfl, rfl⟩ := Prod.mk.inj (Option.some.inj h)
      exact .armed req hactive' hvalid' rfl
    | some msg =>
      obtain ⟨view, hview, h⟩ := Option.bind_eq_some_iff.mp h
      obtain ⟨tracker', htracker, h⟩ := Option.map_eq_some_iff.mp h
      obtain ⟨rfl, rfl⟩ := Prod.mk.inj h
      exact .immediate req msg view tracker' hactive' hvalid' rfl hview htracker

/-- Every callback is one of these steps. -/
theorem callback_step {n n' : SotNode K} {c : SotCallback R} {rep : SotNodeReport R}
    (h : n.callback ops c = some (rep, n')) : CallbackStep ops n c rep n' := by
  cases c with
  | image msg => exact onImage_step ops h
  | setTarget req => exact onSetTarget_step ops h
  | reset =>
    obtain ⟨rfl, rfl⟩ := Prod.mk.inj (Option.some.inj h)
    exact .reset

end SotNode

/-! ## Histories -/

/-- The frame of an image the node accepts. -/
def SotCallback.accepted : SotCallback R → Option (Frame R)
  | .image msg => toFrameView msg
  | _ => none

/-- A request for a valid target. -/
def SotCallback.designates : SotCallback R → Bool
  | .setTarget req => SotNode.validTarget req
  | _ => false

def SotCallback.isReset : SotCallback R → Bool
  | .reset => true
  | _ => false

/-- The last frame accepted. -/
def lastAccepted (cs : List (SotCallback R)) : Option (Frame R) :=
  (cs.filterMap SotCallback.accepted).getLast?

/-- The callbacks since the last reset, or since the activation. -/
def sinceReset (cs : List (SotCallback R)) : List (SotCallback R) :=
  cs.foldl (fun es c => if c.isReset then [] else es ++ [c]) []

/-- Since the last reset (or since an activation without `init_bbox`), frames were accepted before
the first valid request, and another frame, different from the last of these, was the last one
accepted after it. -/
def Redesignated (armed : Bool) (cs : List (SotCallback R)) : Prop :=
  (armed = true → ∃ c ∈ cs, c.isReset = true) ∧
    ∃ (idle : List (SotCallback R)) (first : SotCallback R) (rest : List (SotCallback R))
      (f f' : Frame R), sinceReset cs = idle ++ first :: rest ∧
        (∀ c ∈ idle, c.designates = false) ∧ first.designates = true ∧
        lastAccepted idle = some f ∧ lastAccepted rest = some f' ∧ f' ≠ f

omit [Scalar R] in
theorem lastAccepted_append (cs ds : List (SotCallback R)) :
    lastAccepted (cs ++ ds) = (lastAccepted ds).or (lastAccepted cs) := by
  rw [lastAccepted, List.filterMap_append, List.getLast?_append]
  rfl

omit [Scalar R] in
theorem lastAccepted_singleton (c : SotCallback R) : lastAccepted [c] = c.accepted := by
  cases h : c.accepted with
  | none => simp [lastAccepted, h]
  | some f => simp [lastAccepted, h]

omit [Scalar R] in
theorem lastAccepted_append_singleton (cs : List (SotCallback R)) (c : SotCallback R) :
    lastAccepted (cs ++ [c]) = c.accepted.or (lastAccepted cs) := by
  rw [lastAccepted_append, lastAccepted_singleton]

omit [Scalar R] in
theorem sinceReset_append_singleton (cs : List (SotCallback R)) (c : SotCallback R) :
    sinceReset (cs ++ [c]) = if c.isReset then [] else sinceReset cs ++ [c] := by
  simp [sinceReset]

omit [Scalar R] in
/-- What happened since the last reset happened. -/
theorem sinceReset_suffix (cs : List (SotCallback R)) : ∃ before, cs = before ++ sinceReset cs := by
  induction cs using List.reverseRecOn with
  | nil => exact ⟨[], rfl⟩
  | append_singleton cs c ih =>
    rw [sinceReset_append_singleton]
    split_ifs
    · exact ⟨cs ++ [c], (List.append_nil _).symm⟩
    · obtain ⟨before, hbefore⟩ := ih
      exact ⟨before, by rw [← List.append_assoc, ← hbefore]⟩

namespace SotNode

variable (ops : HistOps R)

/-! ## The cached frame -/

/-- A reset has left the armed start behind. -/
def Disarmed (armed : Bool) (cs : List (SotCallback R)) : Prop :=
  armed = true → ∃ c ∈ cs, c.isReset = true

/-- Since the last reset, a first valid request found no frame; or the armed start still lasts. -/
def Uncached (armed : Bool) (cs : List (SotCallback R)) : Prop :=
  (armed = true ∧ ∀ c ∈ cs, c.isReset = false) ∨
    ∃ (idle : List (SotCallback R)) (first : SotCallback R) (rest : List (SotCallback R)),
      sinceReset cs = idle ++ first :: rest ∧ (∀ c ∈ idle, c.designates = false) ∧
        first.designates = true ∧ lastAccepted idle = none

/-- What the cached frame is, in the three modes of the node. -/
inductive CacheInv (armed : Bool) (cs : List (SotCallback R)) (n : SotNode K) : Prop
  /-- No request yet: the last frame. -/
  | idle (hdisarmed : Disarmed armed cs) (hnone : ∀ c ∈ sinceReset cs, c.designates = false)
      (hlast : n.lastFrame.map toFrameView = (lastAccepted (sinceReset cs)).map some)
      (hset : n.targetSet = false) (hpending : n.pendingInit = none)
  /-- A first request on a frame: still that frame. -/
  | designated (hdisarmed : Disarmed armed cs) (idle : List (SotCallback R))
      (first : SotCallback R) (rest : List (SotCallback R)) (f : Frame R)
      (hsplit : sinceReset cs = idle ++ first :: rest)
      (hidle : ∀ c ∈ idle, c.designates = false) (hfirst : first.designates = true)
      (hf : lastAccepted idle = some f) (hlast : n.lastFrame.map toFrameView = some (some f))
      (hset : n.targetSet = true)
  /-- A first request on no frame: no frame until the next reset. -/
  | uncached (huncached : Uncached armed cs) (hlast : n.lastFrame = none)
      (hset : n.targetSet = true ∨ n.pendingInit.isSome = true)

omit [Scalar R] in
theorem Disarmed.append {armed : Bool} {cs : List (SotCallback R)} (h : Disarmed armed cs)
    (c : SotCallback R) : Disarmed armed (cs ++ [c]) := by
  intro harmed
  obtain ⟨c', hmem, hreset⟩ := h harmed
  exact ⟨c', List.mem_append_left _ hmem, hreset⟩

theorem Uncached.append {armed : Bool} {cs : List (SotCallback R)} (h : Uncached armed cs)
    {c : SotCallback R} (hc : c.isReset = false) : Uncached armed (cs ++ [c]) := by
  rcases h with ⟨harmed, hall⟩ | ⟨idle, first, rest, hsplit, hidle, hfirst, hnone⟩
  · refine Or.inl ⟨harmed, fun c' hc' => ?_⟩
    rcases List.mem_append.mp hc' with hold | hnew
    · exact hall c' hold
    · rwa [List.mem_singleton.mp hnew]
  · refine Or.inr ⟨idle, first, rest ++ [c], ?_, hidle, hfirst, hnone⟩
    rw [sinceReset_append_singleton, hc, hsplit]
    simp

/-- A callback that neither resets nor designates nor brings a frame keeps the idle mode. -/
theorem CacheInv.idle_append {armed : Bool} {cs : List (SotCallback R)} {n' : SotNode K}
    {c : SotCallback R} (hdisarmed : Disarmed armed cs)
    (hnone : ∀ c ∈ sinceReset cs, c.designates = false) (hreset : c.isReset = false)
    (hdes : c.designates = false)
    (hlast : n'.lastFrame.map toFrameView = (c.accepted.or (lastAccepted (sinceReset cs))).map some)
    (hset : n'.targetSet = false) (hpending : n'.pendingInit = none) :
    CacheInv armed (cs ++ [c]) n' := by
  apply CacheInv.idle (hdisarmed.append c) _ _ hset hpending
  · intro c' hc'
    rw [sinceReset_append_singleton, hreset] at hc'
    rcases List.mem_append.mp hc' with hold | hnew
    · exact hnone c' hold
    · rwa [List.mem_singleton.mp hnew]
  · rw [sinceReset_append_singleton, hreset, hlast]
    simp [lastAccepted_append_singleton]

/-- A callback that does not reset keeps the designated mode. -/
theorem CacheInv.designated_append {armed : Bool} {cs : List (SotCallback R)} {n' : SotNode K}
    {c : SotCallback R} (hdisarmed : Disarmed armed cs) {idle rest : List (SotCallback R)}
    {first : SotCallback R} {f : Frame R} (hsplit : sinceReset cs = idle ++ first :: rest)
    (hidle : ∀ c ∈ idle, c.designates = false) (hfirst : first.designates = true)
    (hf : lastAccepted idle = some f) (hreset : c.isReset = false)
    (hlast : n'.lastFrame.map toFrameView = some (some f)) (hset : n'.targetSet = true) :
    CacheInv armed (cs ++ [c]) n' := by
  apply CacheInv.designated (hdisarmed.append c) idle first (rest ++ [c]) f _ hidle hfirst hf hlast
    hset
  rw [sinceReset_append_singleton, hreset, hsplit]
  simp

/-- A reset goes back to the idle mode, without a frame. -/
theorem CacheInv.of_reset (armed : Bool) (cs : List (SotCallback R)) {n' : SotNode K}
    (hlast : n'.lastFrame = none) (hset : n'.targetSet = false) (hpending : n'.pendingInit = none) :
    CacheInv armed (cs ++ [.reset]) n' := by
  have hsince : sinceReset (cs ++ [SotCallback.reset]) = [] := by
    rw [sinceReset_append_singleton]
    rfl
  apply CacheInv.idle _ _ _ hset hpending
  · intro _
    exact ⟨.reset, List.mem_append_right _ (List.mem_singleton_self _), rfl⟩
  · rw [hsince]
    simp
  · rw [hsince, hlast]
    rfl

/-- A callback keeps the invariant.

**Proof sketch.** By cases on the invariant and on the callback.  Only a frame while no target is
set changes the cache, and only a reset, or the first valid request after it, changes which case
of the invariant holds; every other combination contradicts the flags of the node. -/
theorem CacheInv.step {armed : Bool} {cs : List (SotCallback R)} {n n' : SotNode K}
    {c : SotCallback R} {rep : SotNodeReport R} (hactive : n.lifecycle = .active)
    (hinv : CacheInv armed cs n) (hstep : CallbackStep ops n c rep n') :
    CacheInv armed (cs ++ [c]) n' := by
  cases hinv with
  | idle hdisarmed hnone hlast hset hpending =>
    cases hstep with
    | dropped msg hview =>
      refine CacheInv.idle_append hdisarmed hnone rfl rfl ?_ hset hpending
      rw [SotCallback.accepted, hview, Option.none_or, hlast]
    | cached msg view hview hset' hpending' =>
      refine CacheInv.idle_append hdisarmed hnone rfl rfl ?_ hset hpending
      rw [SotCallback.accepted, hview, Option.some_or]
      exact congrArg some hview
    | consumed msg view box tracker hview hset' hpending' htracker =>
      rw [hpending] at hpending'
      exact absurd hpending' (by simp)
    | tracked msg view tracker tracker' rep hview hset' htracker hupdate =>
      rw [hset] at hset'
      exact Bool.noConfusion hset'
    | refused req message hrefused =>
      have hinvalid : validTarget req = false := by
        rcases hrefused with hinactive | hinvalid
        · exact absurd hactive hinactive
        · exact hinvalid
      refine CacheInv.idle_append hdisarmed hnone rfl hinvalid ?_ hset hpending
      show n.lastFrame.map toFrameView =
        ((none : Option (Frame R)).or (lastAccepted (sinceReset cs))).map some
      rw [Option.none_or, hlast]
    | immediate req msg view tracker hactive' hvalid hlast' hview htracker =>
      have hf : lastAccepted (sinceReset cs) = some view := by
        rw [hlast', Option.map_some, hview] at hlast
        simpa using hlast.symm
      refine CacheInv.designated (hdisarmed.append _) (sinceReset cs) (.setTarget req) [] view ?_
        hnone hvalid hf ?_ rfl
      · rw [sinceReset_append_singleton]
        rfl
      · show n.lastFrame.map toFrameView = some (some view)
        rw [hlast', Option.map_some, hview]
    | armed req hactive' hvalid hlast' =>
      have hnone' : lastAccepted (sinceReset cs) = none := by
        rw [hlast'] at hlast
        simpa using hlast.symm
      refine CacheInv.uncached ?_ hlast' (Or.inr rfl)
      refine Or.inr ⟨sinceReset cs, .setTarget req, [], ?_, hnone, hvalid, hnone'⟩
      rw [sinceReset_append_singleton]
      rfl
    | reset => exact .of_reset armed cs rfl rfl rfl
  | designated hdisarmed idle first rest f hsplit hidle hfirst hf hlast hset =>
    cases hstep with
    | dropped msg hview => exact .designated_append hdisarmed hsplit hidle hfirst hf rfl hlast hset
    | cached msg view hview hset' hpending' =>
      rw [hset] at hset'
      exact Bool.noConfusion hset'
    | consumed msg view box tracker hview hset' hpending' htracker =>
      rw [hset] at hset'
      exact Bool.noConfusion hset'
    | tracked msg view tracker tracker' rep hview hset' htracker hupdate =>
      exact .designated_append hdisarmed hsplit hidle hfirst hf rfl hlast hset
    | refused req message hrefused =>
      exact .designated_append hdisarmed hsplit hidle hfirst hf rfl hlast hset
    | immediate req msg view tracker hactive' hvalid hlast' hview htracker =>
      exact .designated_append hdisarmed hsplit hidle hfirst hf rfl hlast rfl
    | armed req hactive' hvalid hlast' =>
      rw [hlast'] at hlast
      exact absurd hlast (by simp)
    | reset => exact .of_reset armed cs rfl rfl rfl
  | uncached huncached hlast hset =>
    cases hstep with
    | dropped msg hview => exact .uncached (huncached.append rfl) hlast hset
    | cached msg view hview hset' hpending' =>
      rcases hset with htarget | hbox
      · rw [htarget] at hset'
        exact Bool.noConfusion hset'
      · rw [hpending'] at hbox
        exact Bool.noConfusion hbox
    | consumed msg view box tracker hview hset' hpending' htracker =>
      exact .uncached (huncached.append rfl) hlast (Or.inl rfl)
    | tracked msg view tracker tracker' rep hview hset' htracker hupdate =>
      exact .uncached (huncached.append rfl) hlast hset
    | refused req message hrefused => exact .uncached (huncached.append rfl) hlast hset
    | immediate req msg view tracker hactive' hvalid hlast' hview htracker =>
      rw [hlast] at hlast'
      exact absurd hlast' (by simp)
    | armed req hactive' hvalid hlast' =>
      exact .uncached (huncached.append rfl) hlast (Or.inr rfl)
    | reset => exact .of_reset armed cs rfl rfl rfl

/-- No callback changes the lifecycle state. -/
theorem CallbackStep.keeps_lifecycle {n n' : SotNode K} {c : SotCallback R} {rep : SotNodeReport R}
    (hstep : CallbackStep ops n c rep n') : n'.lifecycle = n.lifecycle := by
  cases hstep <;> rfl

/-- Whether `init_bbox` arms the first frame. -/
def armsFirst (n : SotNode K) : Bool := !n.params.initBbox.isEmpty

/-- What `on_activate` sets, whether or not it succeeds. -/
theorem onActivate_state (n : SotNode K) (dumpOpens : Bool) :
    (n.onActivate dumpOpens).2.lastFrame = none ∧ (n.onActivate dumpOpens).2.targetSet = false ∧
      (n.onActivate dumpOpens).2.pendingInit.isSome = n.armsFirst := by
  cases hempty : n.params.initBbox.isEmpty with
  | true =>
    simp only [onActivate, armsFirst, hempty, if_true]
    split_ifs <;> exact ⟨rfl, rfl, rfl⟩
  | false =>
    simp only [onActivate, armsFirst, hempty, Bool.false_eq_true, if_false]
    split_ifs <;> exact ⟨rfl, rfl, rfl⟩

/-- An activation establishes the invariant.

**Proof sketch.** An activation empties the cache, and arms the initial box exactly when there is
one. -/
theorem cacheInv_activate {n : SotNode K} {dumpOpens : Bool} (hinactive : n.lifecycle = .inactive) :
    CacheInv n.armsFirst [] (n.activate dumpOpens) := by
  rw [activate, if_neg (not_not.mpr hinactive)]
  obtain ⟨hlast, hset, hpending⟩ := onActivate_state n dumpOpens
  cases harms : n.armsFirst with
  | false =>
    have hnone : (n.onActivate dumpOpens).2.pendingInit = none := by
      rw [harms] at hpending
      simpa using hpending
    refine CacheInv.idle ?_ ?_ ?_ hset hnone
    · intro harmed
      exact Bool.noConfusion harmed
    · intro c hc
      exact absurd hc List.not_mem_nil
    · show (n.onActivate dumpOpens).2.lastFrame.map toFrameView = _
      rw [hlast]
      rfl
  | true =>
    refine CacheInv.uncached (Or.inl ⟨rfl, ?_⟩) hlast (Or.inr (hpending.trans harms))
    intro c hc
    exact absurd hc List.not_mem_nil

/-- The events of a run carry its callbacks. -/
theorem run_calls {n n' : SotNode K} {calls : List (SotCallback R)}
    {evs : List (SotCallback R × SotNodeReport R)} (h : n.run ops calls = some (evs, n')) :
    evs.map Prod.fst = calls := by
  induction calls generalizing n evs with
  | nil =>
    obtain ⟨rfl, -⟩ := Prod.mk.inj (Option.some.inj h)
    rfl
  | cons c calls ih =>
    obtain ⟨e, n₁, es, hstep, hrun, rfl⟩ := Trace.run_cons_eq_some.mp h
    obtain ⟨⟨rep, n₂⟩, -, heq⟩ := Option.map_eq_some_iff.mp hstep
    obtain ⟨rfl, rfl⟩ := Prod.mk.inj heq
    rw [List.map_cons, ih hrun]

/-- The cached frame before every callback of an activation, and what the callback does.

**Proof sketch.** Split the run at the callback; the invariant holds after the front, by
induction over its callbacks, each of which keeps it. -/
theorem cacheInvariant {n n' : SotNode K} {dumpOpens : Bool} (hinactive : n.lifecycle = .inactive)
    (hactive : (n.activate dumpOpens).lifecycle = .active) {calls : List (SotCallback R)}
    {pre post : List (SotCallback R × SotNodeReport R)} {c : SotCallback R} {rep : SotNodeReport R}
    (h : (n.activate dumpOpens).run ops calls = some (pre ++ (c, rep) :: post, n')) :
    ∃ n₁ n₂ : SotNode K, n₁.lifecycle = .active ∧ CacheInv n.armsFirst (pre.map Prod.fst) n₁ ∧
      CallbackStep ops n₁ c rep n₂ := by
  obtain ⟨calls₁, c', n₁, n₂, hpre, hstep⟩ := Trace.run_split h
  have hinv := Trace.run_induction
    (P := fun evs m => m.lifecycle = .active ∧ CacheInv n.armsFirst (evs.map Prod.fst) m)
    ⟨hactive, cacheInv_activate hinactive⟩ ?_ hpre
  · obtain ⟨⟨rep', n₃⟩, hcall, hevent⟩ := Option.map_eq_some_iff.mp hstep
    obtain ⟨rfl, rfl⟩ := Prod.mk.inj (Prod.mk.inj hevent).1
    exact ⟨n₁, n₃, hinv.1, hinv.2, callback_step ops hcall⟩
  · intro evs m op e m' hm hop
    obtain ⟨⟨rep', m''⟩, hcall, heq⟩ := Option.map_eq_some_iff.mp hop
    obtain ⟨rfl, rfl⟩ := Prod.mk.inj heq
    have hcall' := callback_step ops hcall
    refine ⟨hcall'.keeps_lifecycle.trans hm.1, ?_⟩
    rw [List.map_append]
    exact hm.2.step ops hm.1 hcall'

/-! ## Immediate designations -/

theorem accepted_of_designates {c : SotCallback R} (h : c.designates = true) :
    c.accepted = none := by
  cases c with
  | image msg => exact Bool.noConfusion h
  | setTarget req => rfl
  | reset => rfl

/-- The last frame accepted, when the first request since the last reset found a frame. -/
theorem lastAccepted_of_split {cs idle rest : List (SotCallback R)} {first : SotCallback R}
    {f : Frame R} (hsplit : sinceReset cs = idle ++ first :: rest) (hfirst : first.designates = true)
    (hf : lastAccepted idle = some f) : lastAccepted cs = (lastAccepted rest).or (some f) := by
  obtain ⟨before, hbefore⟩ := sinceReset_suffix cs
  rw [hbefore, hsplit, lastAccepted_append, lastAccepted_append,
    show first :: rest = [first] ++ rest from rfl, lastAccepted_append, lastAccepted_singleton,
    accepted_of_designates hfirst, hf]
  cases lastAccepted rest <;> rfl

/-- The cached frame is the last one accepted, unless the history redesignates.

**Proof sketch.** Before the first valid request the cache is the last accepted frame, and
nothing has been redesignated.  Behind it the cache is the last frame accepted before that
request, so it is the last one overall unless another frame has been accepted since. -/
theorem CacheInv.cached_iff {armed : Bool} {cs : List (SotCallback R)} {n : SotNode K}
    (hinv : CacheInv armed cs n) {msg : ImageMsg R} {view : Frame R}
    (hlast : n.lastFrame = some msg) (hview : toFrameView msg = some view) :
    lastAccepted cs = some view ↔ ¬Redesignated armed cs := by
  cases hinv with
  | idle hdisarmed hnone hcached hset hpending =>
    have hsince : lastAccepted (sinceReset cs) = some view := by
      rw [hlast, Option.map_some, hview] at hcached
      simpa using hcached.symm
    obtain ⟨before, hbefore⟩ := sinceReset_suffix cs
    refine iff_of_true ?_ ?_
    · rw [hbefore, lastAccepted_append, hsince]
      rfl
    · intro hre
      obtain ⟨-, idle, first, rest, f, f', hsplit, -, hfirst, -⟩ := hre
      rw [hnone first (by rw [hsplit]; simp)] at hfirst
      exact Bool.noConfusion hfirst
  | designated hdisarmed idle first rest f hsplit hidle hfirst hf hcached hset =>
    obtain rfl : view = f := by
      rw [hlast, Option.map_some, hview] at hcached
      simpa using hcached
    rw [lastAccepted_of_split hsplit hfirst hf]
    constructor
    · intro hright hre
      obtain ⟨-, idle', first', rest', f, f', hsplit', hidle', hfirst', hf', hrest', hne⟩ := hre
      obtain ⟨rfl, rfl⟩ :=
        Trace.split_first_unique (hsplit.symm.trans hsplit') hidle hidle' hfirst hfirst'
      rw [hrest', Option.some_or] at hright
      exact hne ((Option.some.inj hright).trans (Option.some.inj (hf.symm.trans hf')))
    · intro hnot
      cases hrest : lastAccepted rest with
      | none => rfl
      | some f' =>
        by_contra hwrong
        exact hnot ⟨hdisarmed, idle, first, rest, view, f', hsplit, hidle, hfirst, hf, hrest,
          fun heq => hwrong (by rw [heq]; rfl)⟩
  | uncached huncached hcached hset =>
    rw [hcached] at hlast
    exact absurd hlast (by simp)

/-- A history that redesignates has a cached frame.

**Proof sketch.** A redesignating history has a frame before its first valid request, so the
invariant can be in its second case only, where the cache is full. -/
theorem CacheInv.lastFrame_of_redesignated {armed : Bool} {cs : List (SotCallback R)}
    {n : SotNode K} (hinv : CacheInv armed cs n) (hre : Redesignated armed cs) :
    n.lastFrame.isSome = true := by
  obtain ⟨hdisarmed', idle', first', rest', f, f', hsplit', hidle', hfirst', hf, -⟩ := hre
  cases hinv with
  | idle hdisarmed hnone hcached hset hpending =>
    rw [hnone first' (by rw [hsplit']; simp)] at hfirst'
    exact Bool.noConfusion hfirst'
  | designated hdisarmed idle first rest f hsplit hidle hfirst hf hcached hset =>
    cases hlast : n.lastFrame with
    | none =>
      rw [hlast] at hcached
      exact absurd hcached (by simp)
    | some msg => rfl
  | uncached huncached hcached hset =>
    rcases huncached with ⟨harmed, hall⟩ | ⟨idle, first, rest, hsplit, hidle, hfirst, hnone⟩
    · obtain ⟨c, hc, hreset⟩ := hdisarmed' harmed
      rw [hall c hc] at hreset
      exact Bool.noConfusion hreset
    · obtain ⟨rfl, -⟩ :=
        Trace.split_first_unique (hsplit.symm.trans hsplit') hidle hidle' hfirst hfirst'
      rw [hnone] at hf
      exact absurd hf (by simp)

/-- A valid request on a history that redesignates initializes on a frame that is not the last.

**Proof sketch.** The invariant holds before the request, and the cache is full, so the request
initializes on it; and on such a history the cache is not the last accepted frame
(`CacheInv.cached_iff`). -/
theorem stale_of_redesignated {n n' : SotNode K} {dumpOpens : Bool}
    (hinactive : n.lifecycle = .inactive)
    (hactive : (n.activate dumpOpens).lifecycle = .active) {calls : List (SotCallback R)}
    {pre post : List (SotCallback R × SotNodeReport R)} {req : BBox R} {rep : SotNodeReport R}
    (h : (n.activate dumpOpens).run ops calls = some (pre ++ (.setTarget req, rep) :: post, n'))
    (hvalid : validTarget req = true) (hre : Redesignated n.armsFirst (pre.map Prod.fst)) :
    rep.response = some ⟨true, "initialized on cached frame"⟩ ∧
      ¬∃ f, rep.init = some (f, req) ∧ lastAccepted (pre.map Prod.fst) = some f := by
  obtain ⟨n₁, n₂, hact, hinv, hstep⟩ := cacheInvariant ops hinactive hactive h
  have hsome := hinv.lastFrame_of_redesignated hre
  cases hstep with
  | refused req message hrefused =>
    rcases hrefused with hinact | hinvalid
    · exact absurd hact hinact
    · rw [hvalid] at hinvalid
      exact Bool.noConfusion hinvalid
  | armed req hact' hvalid' hlast =>
    rw [hlast] at hsome
    exact Bool.noConfusion hsome
  | immediate req msg view tracker hact' hvalid' hlast hview htracker =>
    refine ⟨rfl, ?_⟩
    intro hright
    obtain ⟨f, hinit, hf⟩ := hright
    obtain ⟨rfl, -⟩ := Prod.mk.inj (Option.some.inj hinit)
    exact (hinv.cached_iff hlast hview).mp hf hre

/-- A request that initializes at once uses the last frame, unless the history redesignates. -/
theorem fresh_of_not_redesignated {n n' : SotNode K} {dumpOpens : Bool}
    (hinactive : n.lifecycle = .inactive)
    (hactive : (n.activate dumpOpens).lifecycle = .active) {calls : List (SotCallback R)}
    {pre post : List (SotCallback R × SotNodeReport R)} {req : BBox R} {rep : SotNodeReport R}
    (h : (n.activate dumpOpens).run ops calls = some (pre ++ (.setTarget req, rep) :: post, n'))
    (hresponse : rep.response = some ⟨true, "initialized on cached frame"⟩)
    (hnot : validTarget req = true → ¬Redesignated n.armsFirst (pre.map Prod.fst)) :
    ∃ f, rep.init = some (f, req) ∧ lastAccepted (pre.map Prod.fst) = some f := by
  obtain ⟨n₁, n₂, hact, hinv, hstep⟩ := cacheInvariant ops hinactive hactive h
  cases hstep with
  | refused req message hrefused => exact absurd hresponse (by simp)
  | armed req hact' hvalid hlast => exact absurd hresponse (by simp)
  | immediate req msg view tracker hact' hvalid hlast hview htracker =>
    exact ⟨view, rfl, (hinv.cached_iff hlast hview).mpr (hnot hvalid)⟩

/-- **When designations are up to date.** Consider any run of image, request and reset callbacks
from an activation of the node.  Every request that initializes the tracker on the cached frame
passes it the last frame accepted before the request, exactly when no valid request of the run
comes on a history of this kind: since the last reset (or since an activation without `init_bbox`),
frames were accepted before the first valid request, and after it a last frame that differs from
the last of these.

**Proof sketch.** In one direction a valid request on a redesignating history initializes on a
frame that is not the last one (`stale_of_redesignated`).  In the other, without such a history
the cached frame is the last accepted one at every request that uses it. -/
theorem designation_iff {n n' : SotNode K} {dumpOpens : Bool} (hinactive : n.lifecycle = .inactive)
    (hactive : (n.activate dumpOpens).lifecycle = .active) (calls : List (SotCallback R))
    (evs : List (SotCallback R × SotNodeReport R))
    (h : (n.activate dumpOpens).run ops calls = some (evs, n')) :
    (∀ (pre : List (SotCallback R × SotNodeReport R)) (req : BBox R) (rep : SotNodeReport R)
        (post : List (SotCallback R × SotNodeReport R)),
      evs = pre ++ (.setTarget req, rep) :: post →
      rep.response = some ⟨true, "initialized on cached frame"⟩ →
      ∃ f, rep.init = some (f, req) ∧ lastAccepted (pre.map Prod.fst) = some f) ↔
    (∀ (pre : List (SotCallback R)) (req : BBox R) (post : List (SotCallback R)),
      calls = pre ++ .setTarget req :: post → validTarget req = true →
      ¬Redesignated n.armsFirst pre) := by
  have hcalls := run_calls ops h
  constructor
  · intro hfresh pre req post heq hvalid hre
    rw [← hcalls] at heq
    obtain ⟨pre', rest', rfl, rfl, hrest⟩ := List.map_eq_append_iff.mp heq
    obtain ⟨e, post', rfl, hreq, rfl⟩ := List.map_eq_cons_iff.mp hrest
    obtain ⟨c, rep⟩ := e
    obtain rfl : c = .setTarget req := hreq
    obtain ⟨hresponse, hstale⟩ := stale_of_redesignated ops hinactive hactive h hvalid hre
    exact hstale (hfresh pre' req rep post' rfl hresponse)
  · intro hnot pre req rep post heq hresponse
    subst heq
    apply fresh_of_not_redesignated ops hinactive hactive h hresponse
    intro hvalid
    apply hnot (pre.map Prod.fst) req (post.map Prod.fst) _ hvalid
    rw [← hcalls]
    simp

/-- A configured node. -/
def configuredNode : SotNode (playback : Backend ℚ) :=
  { lifecycle := .inactive, tracker := some (SotTracker.new { backend := .mosse } []) }

/-- An image of one shade of blue. -/
def blueMsg (b : UInt8) : ImageMsg ℚ :=
  ⟨⟨0, "camera"⟩, "bgr8", ⟨8, 8, fun _ _ => ⟨b, 0, 0⟩⟩, []⟩

/-- A target is set, another image arrives, and the target is set again. -/
def redesignation : List (SotCallback ℚ) :=
  [.image (blueMsg 7), .setTarget ⟨0, 0, 4, 4⟩, .image (blueMsg 200), .setTarget ⟨1, 1, 4, 4⟩]

theorem isSome_run_redesignation :
    ((configuredNode.activate false).run pixelOps redesignation).isSome = true := by
  decide +kernel

theorem designation_iff_redesignation :
    ∃ (evs : List (SotCallback ℚ × SotNodeReport ℚ)) (n' : SotNode (playback : Backend ℚ)),
    (configuredNode.activate false).run pixelOps redesignation = some (evs, n') ∧
    ((∀ (pre : List (SotCallback ℚ × SotNodeReport ℚ)) (req : BBox ℚ) (rep : SotNodeReport ℚ)
        (post : List (SotCallback ℚ × SotNodeReport ℚ)),
      evs = pre ++ (.setTarget req, rep) :: post →
      rep.response = some ⟨true, "initialized on cached frame"⟩ →
      ∃ f, rep.init = some (f, req) ∧ lastAccepted (pre.map Prod.fst) = some f) ↔
    (∀ (pre : List (SotCallback ℚ)) (req : BBox ℚ) (post : List (SotCallback ℚ)),
      redesignation = pre ++ .setTarget req :: post → validTarget req = true →
      ¬Redesignated configuredNode.armsFirst pre)) := by
  obtain ⟨⟨evs, n'⟩, h⟩ := Option.isSome_iff_exists.mp isSome_run_redesignation
  exact ⟨evs, n', h, designation_iff pixelOps rfl rfl redesignation evs h⟩

/-- **A stale designation.** The second request initializes on the first image. -/
theorem designation_stale :
    ¬∀ (n n' : SotNode (playback : Backend ℚ)) (dumpOpens : Bool) (calls : List (SotCallback ℚ))
        (evs : List (SotCallback ℚ × SotNodeReport ℚ)),
      n.lifecycle = .inactive → (n.activate dumpOpens).lifecycle = .active →
      (n.activate dumpOpens).run pixelOps calls = some (evs, n') →
      ∀ (pre : List (SotCallback ℚ × SotNodeReport ℚ)) (req : BBox ℚ) (rep : SotNodeReport ℚ)
        (post : List (SotCallback ℚ × SotNodeReport ℚ)),
      evs = pre ++ (.setTarget req, rep) :: post →
      rep.response = some ⟨true, "initialized on cached frame"⟩ →
      ∃ f, rep.init = some (f, req) ∧ lastAccepted (pre.map Prod.fst) = some f := by
  intro hfresh
  obtain ⟨⟨evs, n'⟩, h⟩ := Option.isSome_iff_exists.mp isSome_run_redesignation
  have hcalls : evs.map Prod.fst = [.image (blueMsg 7), .setTarget ⟨0, 0, 4, 4⟩,
      .image (blueMsg 200)] ++ [.setTarget ⟨1, 1, 4, 4⟩] := run_calls pixelOps h
  obtain ⟨pre, rest, rfl, hpre, hrest⟩ := List.map_eq_append_iff.mp hcalls
  obtain ⟨⟨c, rep⟩, post, rfl, hreq, -⟩ := List.map_eq_cons_iff.mp hrest
  obtain rfl : c = .setTarget ⟨1, 1, 4, 4⟩ := hreq
  have hne : (⟨(blueMsg 200).image, 0, []⟩ : Frame ℚ) ≠ ⟨(blueMsg 7).image, 0, []⟩ := by
    intro heq
    have hpx : (blueMsg 200).image.px 0 0 = (blueMsg 7).image.px 0 0 := by
      rw [(Frame.mk.inj heq).1]
    exact absurd hpx (by decide)
  have hre : Redesignated configuredNode.armsFirst (pre.map Prod.fst) := by
    rw [hpre]
    refine ⟨fun harmed => absurd harmed (by decide), [.image (blueMsg 7)],
      .setTarget ⟨0, 0, 4, 4⟩, [.image (blueMsg 200)], _, _, rfl, ?_, by decide, rfl, rfl, hne⟩
    intro c hc
    rw [List.mem_singleton.mp hc]
    rfl
  obtain ⟨hresponse, hstale⟩ := stale_of_redesignated pixelOps rfl rfl h (by decide) hre
  exact hstale (hfresh configuredNode n' false redesignation _ rfl rfl h pre _ rep post rfl hresponse)

end SotNode

end Ctrk
