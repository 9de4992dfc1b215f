import CustosTracker.Ros.TbdNode
import CustosTracker.Tbd.Reports

set_option relaxedAutoImplicit false
set_option autoImplicit false

/-!
# The callback protocol of the tracking-by-detection node

The node over its whole life: lifecycle transitions, failed or not, and images in any order.  What
it publishes and dumps is what a tracker built at the last configuration reports on the images
accepted since then.

## Main definitions

* `Ctrk.trackedFrames`, `Ctrk.activationReports`, `Ctrk.tbdParams` — what a history determines.
* `Ctrk.dumpOf` — the dump of a sequence of reports.
* `Ctrk.TbdNode.TbdInv` — how the members of the node encode its history.

## Main results

* `Ctrk.TbdNode.tbdInv_life` — the invariant holds after every run.
* `Ctrk.TbdNode.image_protocol` — every image is answered by the tracker of the last configuration.
* `Ctrk.TbdNode.dump_wellFormed` — the dump file of an activation is a well-formed result file.
-/

namespace Ctrk

open Trace

variable {R : Type} [Scalar R]

/-! ## Histories -/

/-- The parameters of the last configuration that read any. -/
def tbdParams (evs : List (TbdEvent R)) : TbdNodeParams R :=
  evs.foldl (fun params e => match e.1 with
    | .configure (.built params') => params'
    | .configure (.badTracker params') => params'
    | _ => params) {}

/-- The frames accepted since the tracker was built. -/
def trackedFrames (evs : List (TbdEvent R)) : List (Frame R) :=
  evs.foldl (fun frames e => match e.1 with
    | .configure (.built _) => []
    | .image msg => frames ++ (toFrameView msg).toList
    | _ => frames) []

/-- The reports of the tracker since the last activation. -/
def activationReports (evs : List (TbdEvent R)) : List (List (Track R)) :=
  evs.foldl (fun reports e => match e.1 with
    | .activate _ => []
    | .image _ => reports ++ e.2.tracks.toList
    | _ => reports) []

section Append

variable (evs : List (TbdEvent R)) (e : TbdEvent R)

theorem tbdParams_append_singleton : tbdParams (evs ++ [e]) = match e.1 with
    | .configure (.built params) => params
    | .configure (.badTracker params) => params
    | _ => tbdParams evs := by
  rw [tbdParams, List.foldl_append]
  rfl

theorem trackedFrames_append_singleton : trackedFrames (evs ++ [e]) = match e.1 with
    | .configure (.built _) => []
    | .image msg => trackedFrames evs ++ (toFrameView msg).toList
    | _ => trackedFrames evs := by
  rw [trackedFrames, List.foldl_append]
  rfl

theorem activationReports_append_singleton : activationReports (evs ++ [e]) = match e.1 with
    | .activate _ => []
    | .image _ => activationReports evs ++ e.2.tracks.toList
    | _ => activationReports evs := by
  rw [activationReports, List.foldl_append]
  rfl

end Append

/-- The dump of a sequence of reports, with frame numbers from one. -/
def dumpOf (reports : List (List (Track R))) : List (DumpRow R) :=
  (reports.mapIdx fun i tracks => dumpRows ((i : ℤ) + 1) tracks).flatten

omit [Scalar R] in
theorem dumpOf_append_singleton (reports : List (List (Track R))) (tracks : List (Track R)) :
    dumpOf (reports ++ [tracks]) = dumpOf reports ++ dumpRows ((reports.length : ℤ) + 1) tracks := by
  simp [dumpOf, List.mapIdx_append]

namespace TbdNode

variable (ops : TbdOps R)

theorem deliver_eq_some {n n' : TbdNode R} {c : TbdCall R} {e : TbdEvent R} :
    n.deliver ops c = some (e, n') ↔
      n.enabled c = true ∧ ∃ rep, n.dispatch ops c = some (rep, n') ∧ e = (c, rep) := by
  unfold deliver
  constructor
  · intro h
    split_ifs at h with henabled
    obtain ⟨⟨rep, n₁⟩, hdispatch, heq⟩ := Option.map_eq_some_iff.mp h
    obtain ⟨rfl, rfl⟩ := Prod.mk.inj heq
    exact ⟨henabled, rep, hdispatch, rfl⟩
  · intro h
    obtain ⟨henabled, rep, hdispatch, rfl⟩ := h
    rw [if_pos henabled, hdispatch]
    rfl

/-! ## The invariant -/

/-- How the members of the node encode its history. -/
structure TbdInv (evs : List (TbdEvent R)) (n : TbdNode R) : Prop where
  params : n.params = tbdParams evs
  subscribed : n.imageSub = true ↔ n.lifecycle = .active
  tracker : n.lifecycle = .inactive ∨ n.lifecycle = .active →
    n.tracker = some ((MultiTracker.new n.params.cfg).run ops (trackedFrames evs))
  publisher : n.lifecycle = .inactive ∨ n.lifecycle = .active → n.tracksPub.isSome = true
  publishing : n.lifecycle = .active → n.tracksPub = some true
  dumping : n.lifecycle = .active → n.dumpOpen = n.params.dumps
  closed : n.lifecycle = .unconfigured ∨ n.lifecycle = .inactive → n.dumpOpen = false
  frameNo : n.frameNo = (activationReports evs).length
  dump : n.dumpOpen = true → n.dumpFile = dumpOf (activationReports evs)
  reports : n.lifecycle = .active ∨ n.dumpOpen = true →
    activationReports evs <:+ (MultiTracker.new n.params.cfg).outputs ops (trackedFrames evs)
  collecting : n.lifecycle = .active → n.collector = n.params.bench
  collected : n.lifecycle = .unconfigured ∨ n.lifecycle = .inactive → n.collector = false

/-- The invariant of a node that is not active: nothing is subscribed, open or collected. -/
theorem tbdInv_of_idle {evs : List (TbdEvent R)} {n : TbdNode R}
    (hlife : n.lifecycle = .unconfigured ∨ n.lifecycle = .inactive)
    (hparams : n.params = tbdParams evs) (hsub : n.imageSub = false)
    (hready : n.lifecycle = .inactive →
      n.tracker = some ((MultiTracker.new n.params.cfg).run ops (trackedFrames evs)) ∧
        n.tracksPub.isSome = true)
    (hclosed : n.dumpOpen = false) (hframe : n.frameNo = (activationReports evs).length)
    (hcollected : n.collector = false) : TbdInv ops evs n := by
  have hnot : n.lifecycle ≠ .active := by
    intro h
    rcases hlife with h' | h' <;> rw [h] at h' <;> cases h'
  refine ⟨hparams, ?_, ?_, ?_, ?_, ?_, fun _ => hclosed, hframe, ?_, ?_, ?_, fun _ => hcollected⟩
  · simp [hsub, hnot]
  · exact fun h => (hready (h.resolve_right hnot)).1
  · exact fun h => (hready (h.resolve_right hnot)).2
  · exact fun h => absurd h hnot
  · exact fun h => absurd h hnot
  · exact fun h => absurd (hclosed.symm.trans h) Bool.false_ne_true
  · exact fun h => absurd (h.resolve_left hnot) (by rw [hclosed]; exact Bool.false_ne_true)
  · exact fun h => absurd h hnot

theorem tbdInv_nil : TbdInv ops [] ({} : TbdNode R) :=
  tbdInv_of_idle ops (Or.inl rfl) rfl rfl (fun h => by cases h) rfl rfl rfl

section Step

variable {ops} {evs : List (TbdEvent R)} {n : TbdNode R}

/-- A node that is not active has no image subscription. -/
theorem TbdInv.unsubscribed (hinv : TbdInv ops evs n) (hlife : n.lifecycle ≠ .active) :
    n.imageSub = false := by
  rw [Bool.eq_false_iff]
  exact fun h => hlife (hinv.subscribed.mp h)

/-- A configuration keeps the invariant, whether it succeeds or not.

**Proof sketch.** A configuration leaves the node inactive with a new tracker, or unconfigured;
in both cases nothing is subscribed, open or collected (`tbdInv_of_idle`). -/
theorem TbdInv.configure (hinv : TbdInv ops evs n) (hlife : n.lifecycle = .unconfigured)
    (outcome : TbdConfigure R) (rep : TbdReport R) :
    TbdInv ops (evs ++ [(.configure outcome, rep)]) { (n.onConfigure outcome).2 with
      lifecycle := if (n.onConfigure outcome).1 then .inactive else .unconfigured } := by
  have hclosed := hinv.closed (Or.inl hlife)
  have hcollected := hinv.collected (Or.inl hlife)
  have hsub := hinv.unsubscribed (by rw [hlife]; exact fun h => by cases h)
  have hframe : n.frameNo = (activationReports (evs ++ [(.configure outcome, rep)])).length := by
    rw [activationReports_append_singleton]
    exact hinv.frameNo
  cases outcome with
  | built params =>
    refine tbdInv_of_idle ops (Or.inr rfl) ?_ hsub (fun _ => ⟨?_, rfl⟩) hclosed hframe hcollected
    · rw [tbdParams_append_singleton]
      rfl
    · rw [trackedFrames_append_singleton]
      rfl
  | badParams =>
    refine tbdInv_of_idle ops (Or.inl rfl) ?_ hsub (fun h => by cases h) hclosed hframe hcollected
    rw [tbdParams_append_singleton]
    exact hinv.params
  | badTracker params =>
    refine tbdInv_of_idle ops (Or.inl rfl) ?_ hsub (fun h => by cases h) hclosed hframe hcollected
    rw [tbdParams_append_singleton]
    rfl

/-- A failed activation leaves the node inactive; a successful one starts a new dump.

**Proof sketch.** If the dump cannot be opened the node stays as it was.  Otherwise the list of
reports starts again, empty, and so do the dump and the frame number. -/
theorem TbdInv.activate (hinv : TbdInv ops evs n) (hlife : n.lifecycle = .inactive)
    (dumpOpens : Bool) (rep : TbdReport R) :
    TbdInv ops (evs ++ [(.activate dumpOpens, rep)]) { (n.onActivate dumpOpens).2 with
      lifecycle := if (n.onActivate dumpOpens).1 then .active else .inactive } := by
  have hclosed := hinv.closed (Or.inr hlife)
  have hcollected := hinv.collected (Or.inr hlife)
  have hsub := hinv.unsubscribed (by rw [hlife]; exact fun h => by cases h)
  have htracker := hinv.tracker (Or.inl hlife)
  have hpub := hinv.publisher (Or.inl hlife)
  have hparams : n.params = tbdParams (evs ++ [(.activate dumpOpens, rep)]) := by
    rw [tbdParams_append_singleton]
    exact hinv.params
  have hframes : trackedFrames (evs ++ [(.activate dumpOpens, rep)]) = trackedFrames evs := by
    rw [trackedFrames_append_singleton]
  have hreports : activationReports (evs ++ [(.activate dumpOpens, rep)]) = [] := by
    rw [activationReports_append_singleton]
  cases hopen : n.params.dumps && !dumpOpens with
  | true =>
    simp only [onActivate, hopen, if_true, Bool.false_eq_true, if_false]
    refine tbdInv_of_idle ops (Or.inr rfl) hparams hsub (fun _ => ⟨?_, ?_⟩) rfl ?_ hcollected
    · rw [hframes]
      exact htracker
    · simpa using hpub
    · rw [hreports]
      rfl
  | false =>
    obtain ⟨active, hactive⟩ := Option.isSome_iff_exists.mp hpub
    simp only [onActivate, hopen, Bool.false_eq_true, if_false, if_true]
    refine ⟨hparams, by simp, fun _ => ?_, fun _ => ?_, fun _ => ?_, fun _ => rfl, ?_, ?_, ?_,
      fun _ => ?_, fun _ => ?_, ?_⟩
    · rw [hframes]
      exact htracker
    · simpa using hpub
    · simp [hactive]
    · rintro (h | h) <;> cases h
    · rw [hreports]
      rfl
    · intro hdump
      rw [hreports, if_pos hdump]
      rfl
    · rw [hreports]
      exact List.nil_suffix
    · cases n.params.bench <;> simp [hcollected]
    · rintro (h | h) <;> cases h

theorem TbdInv.deactivate (hinv : TbdInv ops evs n) (hlife : n.lifecycle = .active)
    (rep : TbdReport R) : TbdInv ops (evs ++ [(.deactivate, rep)])
      { n.onDeactivate with lifecycle := .inactive } := by
  refine tbdInv_of_idle ops (Or.inr rfl) ?_ rfl (fun _ => ⟨?_, ?_⟩) rfl ?_ rfl
  · rw [tbdParams_append_singleton]
    exact hinv.params
  · rw [trackedFrames_append_singleton]
    exact hinv.tracker (Or.inr hlife)
  · simpa [onDeactivate] using hinv.publisher (Or.inr hlife)
  · rw [activationReports_append_singleton]
    exact hinv.frameNo

theorem TbdInv.cleanup (hinv : TbdInv ops evs n) (hlife : n.lifecycle = .inactive)
    (rep : TbdReport R) : TbdInv ops (evs ++ [(.cleanup, rep)])
      { n.onCleanup with lifecycle := .unconfigured } := by
  have hsub := hinv.unsubscribed (by rw [hlife]; exact fun h => by cases h)
  refine tbdInv_of_idle ops (Or.inl rfl) ?_ hsub (fun h => by cases h) (hinv.closed (Or.inr hlife))
    ?_ (hinv.collected (Or.inr hlife))
  · rw [tbdParams_append_singleton]
    exact hinv.params
  · rw [activationReports_append_singleton]
    exact hinv.frameNo

/-- A shutdown drops tracker, publisher and subscription; an open dump keeps what it holds. -/
theorem TbdInv.shutdown (hinv : TbdInv ops evs n) (rep : TbdReport R) :
    TbdInv ops (evs ++ [(.shutdown, rep)]) { n.onShutdown with lifecycle := .finalized } := by
  have hframes : trackedFrames (evs ++ [(.shutdown, rep)]) = trackedFrames evs := by
    rw [trackedFrames_append_singleton]
  have hreports : activationReports (evs ++ [(.shutdown, rep)]) = activationReports evs := by
    rw [activationReports_append_singleton]
  refine ⟨?_, by simp [onShutdown], ?_, ?_, ?_, ?_, ?_, ?_, ?_, ?_, ?_, ?_⟩
  · rw [tbdParams_append_singleton]
    exact hinv.params
  · rintro (h | h) <;> cases h
  · rintro (h | h) <;> cases h
  · exact fun h => by cases h
  · exact fun h => by cases h
  · rintro (h | h) <;> cases h
  · rw [hreports]
    exact hinv.frameNo
  · rw [hreports]
    exact hinv.dump
  · rintro (h | h)
    · cases h
    · rw [hframes, hreports]
      exact hinv.reports (Or.inr h)
  · exact fun h => by cases h
  · rintro (h | h) <;> cases h

/-- What the image callback does while the node is active: it drops the image, or hands its frame
to the tracker, publishes the result and dumps it. -/
theorem TbdInv.onImage_eq (hinv : TbdInv ops evs n) (hlife : n.lifecycle = .active)
    (msg : ImageMsg R) : n.onImage ops msg = match toFrameView msg with
      | none => some ({}, n)
      | some view =>
        let tracker := (MultiTracker.new n.params.cfg).run ops (trackedFrames evs)
        let tracks := (tracker.update ops view).1
        some ({ tracks := some tracks
                published := some (toDetections tracks msg.header n.params.publishLost) },
          { n with
            frameNo := n.frameNo + 1
            tracker := some (tracker.update ops view).2
            dumpFile := if n.dumpOpen then n.dumpFile ++ dumpRows (n.frameNo + 1) tracks
              else n.dumpFile }) := by
  unfold onImage
  cases toFrameView msg with
  | none => rfl
  | some view =>
    simp only [hinv.tracker (Or.inr hlife), hinv.publishing hlife, Option.bind_some,
      Option.map_some, if_true]

/-- An image that goes through keeps the invariant.

**Proof sketch.** A frame in another encoding is dropped and nothing changes.  Any other is
tracked: it is added to the tracked frames, and its report to the reports of the activation, the
dump and the count. -/
theorem TbdInv.image (hinv : TbdInv ops evs n) (hlife : n.lifecycle = .active)
    {msg : ImageMsg R} {rep : TbdReport R} {n' : TbdNode R}
    (h : n.onImage ops msg = some (rep, n')) : TbdInv ops (evs ++ [(.image msg, rep)]) n' := by
  rw [hinv.onImage_eq hlife] at h
  have hparams : n.params = tbdParams (evs ++ [(.image msg, rep)]) := by
    rw [tbdParams_append_singleton]
    exact hinv.params
  cases hview : toFrameView msg with
  | none =>
    rw [hview] at h
    obtain ⟨rfl, rfl⟩ := Prod.mk.inj (Option.some.inj h)
    have hframes :
        trackedFrames (evs ++ [(.image msg, ({} : TbdReport R))]) = trackedFrames evs := by
      rw [trackedFrames_append_singleton]
      simp [hview]
    have hreports :
        activationReports (evs ++ [(.image msg, ({} : TbdReport R))]) = activationReports evs := by
      rw [activationReports_append_singleton]
      simp
    refine ⟨hparams, hinv.subscribed, ?_, hinv.publisher, hinv.publishing, hinv.dumping,
      hinv.closed, ?_, ?_, ?_, hinv.collecting, hinv.collected⟩
    · rw [hframes]
      exact hinv.tracker
    · rw [hreports]
      exact hinv.frameNo
    · rw [hreports]
      exact hinv.dump
    · rw [hframes, hreports]
      exact hinv.reports
  | some view =>
    rw [hview] at h
    obtain ⟨rfl, rfl⟩ := Prod.mk.inj (Option.some.inj h)
    have hframes : ∀ rep : TbdReport R,
        trackedFrames (evs ++ [(.image msg, rep)]) = trackedFrames evs ++ [view] := by
      intro rep
      rw [trackedFrames_append_singleton]
      simp [hview]
    have hidle : ¬(n.lifecycle = .unconfigured ∨ n.lifecycle = .inactive) := by
      rw [hlife]
      rintro (h | h) <;> cases h
    refine ⟨hparams, hinv.subscribed, fun _ => ?_, hinv.publisher, hinv.publishing, hinv.dumping,
      hinv.closed, ?_, ?_, fun _ => ?_, hinv.collecting, hinv.collected⟩
    · rw [hframes, MultiTracker.run_concat]
    · rw [activationReports_append_singleton]
      simp only [Option.toList_some, List.length_append, List.length_singleton]
      rw [hinv.frameNo]
      push_cast
      rfl
    · intro hdump
      change n.dumpOpen = true at hdump
      rw [activationReports_append_singleton]
      simp only [Option.toList_some, dumpOf_append_singleton, hdump, if_true]
      rw [hinv.dump hdump, hinv.frameNo]
    · rw [hframes, activationReports_append_singleton, MultiTracker.outputs_concat]
      obtain ⟨before, hbefore⟩ := hinv.reports (Or.inl hlife)
      exact ⟨before, by rw [← hbefore, List.append_assoc]; rfl⟩

/-- A call keeps the invariant.

**Proof sketch.** By cases on the call, whose lifecycle condition is that it was enabled. -/
theorem TbdInv.deliver (hinv : TbdInv ops evs n) {c : TbdCall R} {e : TbdEvent R} {n' : TbdNode R}
    (h : n.deliver ops c = some (e, n')) : TbdInv ops (evs ++ [e]) n' := by
  obtain ⟨henabled, rep, hdispatch, rfl⟩ := (deliver_eq_some ops).mp h
  cases c with
  | configure outcome =>
    obtain ⟨rfl, rfl⟩ := Prod.mk.inj (Option.some.inj hdispatch)
    exact hinv.configure (of_decide_eq_true henabled) outcome _
  | activate dumpOpens =>
    obtain ⟨rfl, rfl⟩ := Prod.mk.inj (Option.some.inj hdispatch)
    exact hinv.activate (of_decide_eq_true henabled) dumpOpens _
  | deactivate =>
    obtain ⟨rfl, rfl⟩ := Prod.mk.inj (Option.some.inj hdispatch)
    exact hinv.deactivate (of_decide_eq_true henabled) _
  | cleanup =>
    obtain ⟨rfl, rfl⟩ := Prod.mk.inj (Option.some.inj hdispatch)
    exact hinv.cleanup (of_decide_eq_true henabled) _
  | shutdown =>
    obtain ⟨rfl, rfl⟩ := Prod.mk.inj (Option.some.inj hdispatch)
    exact hinv.shutdown _
  | image msg => exact hinv.image (hinv.subscribed.mp henabled) hdispatch

end Step

/-- **The invariant holds after every run.** -/
theorem tbdInv_life {cs : List (TbdCall R)} {evs : List (TbdEvent R)} {n : TbdNode R}
    (h : ({} : TbdNode R).life ops cs = some (evs, n)) : TbdInv ops evs n := by
  refine Trace.run_induction (P := TbdInv ops) (tbdInv_nil ops) ?_ h
  intro evs n₁ c e n₂ hinv hstep
  exact hinv.deliver hstep

/-! ## The protocol -/

/-- **The callback protocol.** In every run from construction, through transitions that succeed or
fail and images in any order: a call that can be delivered never dereferences a missing tracker or
publisher; images are delivered exactly while the node is active; and every image is either
dropped, for its encoding, or its frame is handed to the tracker built at the last configuration,
after the frames accepted since then, and the tracks it returns are published at once.

**Proof sketch.** The subscription exists in the active state alone, where the invariant gives the
tracker and an activated publisher. -/
theorem image_protocol (cs : List (TbdCall R)) (evs : List (TbdEvent R)) (n : TbdNode R)
    (h : ({} : TbdNode R).life ops cs = some (evs, n)) :
    (∀ c, (n.deliver ops c).isSome = n.enabled c) ∧
    (n.imageSub = true ↔ n.lifecycle = .active) ∧
    ∀ before msg rep after, evs = before ++ (.image msg, rep) :: after →
      match toFrameView msg with
      | none => rep.tracks = none ∧ rep.published = none
      | some view =>
        let params := tbdParams before
        let tracker := (MultiTracker.new params.cfg).run ops (trackedFrames before)
        let tracks := (tracker.update ops view).1
        rep.tracks = some tracks ∧
          rep.published = some (toDetections tracks msg.header params.publishLost) := by
  have hinv := tbdInv_life ops h
  refine ⟨?_, hinv.subscribed, ?_⟩
  · intro c
    rw [deliver]
    cases henabled : n.enabled c with
    | false => rfl
    | true =>
      rw [if_pos rfl, Option.isSome_map]
      cases c with
      | image msg =>
        change (n.onImage ops msg).isSome = true
        rw [hinv.onImage_eq (hinv.subscribed.mp henabled)]
        cases toFrameView msg <;> rfl
      | _ => rfl
  · intro before msg rep after hsplit
    rw [hsplit] at h
    obtain ⟨cs₁, c, n₁, n₂, hbefore, hstep⟩ := Trace.run_split h
    have hinv₁ := tbdInv_life ops hbefore
    obtain ⟨henabled, rep', hdispatch, heq⟩ := (deliver_eq_some ops).mp hstep
    obtain ⟨rfl, rfl⟩ := Prod.mk.inj heq
    change n₁.onImage ops msg = some (rep, n₂) at hdispatch
    rw [hinv₁.onImage_eq (hinv₁.subscribed.mp henabled)] at hdispatch
    rw [← hinv₁.params]
    cases hview : toFrameView msg with
    | none =>
      rw [hview] at hdispatch
      obtain ⟨rfl, -⟩ := Prod.mk.inj (Option.some.inj hdispatch)
      exact ⟨rfl, rfl⟩
    | some view =>
      rw [hview] at hdispatch
      obtain ⟨rfl, -⟩ := Prod.mk.inj (Option.some.inj hdispatch)
      exact ⟨rfl, rfl⟩

/-- A message of a black image with one detection. -/
def oneDetection : ImageMsg ℚ :=
  ⟨⟨0, "camera"⟩, "bgr8", ⟨8, 8, fun _ _ => ⟨0, 0, 0⟩⟩, [⟨⟨1, 1, 4, 4⟩, 1, 0, []⟩]⟩

/-- Parameters that confirm a track at once and dump it. -/
def confirmAtOnce : TbdNodeParams ℚ := { cfg := { assoc := { nInit := 1 } }, dumps := true }

/-- An activation that fails, one that succeeds, an image, a second activation and an image. -/
def twoActivations : List (TbdCall ℚ) :=
  [.configure .badParams, .configure (.built confirmAtOnce), .activate false, .activate true,
    .image oneDetection, .deactivate, .activate true, .image oneDetection, .shutdown]

theorem image_protocol_twice : ∃ evs n,
    ({} : TbdNode ℚ).life MultiTracker.blackOps twoActivations = some (evs, n) ∧
      ∀ c, (n.deliver MultiTracker.blackOps c).isSome = n.enabled c := by
  obtain ⟨⟨evs, n⟩, h⟩ := Option.isSome_iff_exists.mp
    (show (({} : TbdNode ℚ).life MultiTracker.blackOps twoActivations).isSome = true by
      decide +kernel)
  exact ⟨evs, n, h, (image_protocol MultiTracker.blackOps twoActivations evs n h).1⟩

/-! ## The dump file -/

/-- The rows of a well-formed report have increasing ids. -/
theorem dumpRows_sorted {tracks : List (Track R)} (htracks : WellFormed tracks) (frameNo : ℤ) :
    (dumpRows frameNo tracks).Pairwise fun a b => a.frame = b.frame ∧ a.id < b.id := by
  rw [dumpRows, List.pairwise_map]
  have hids := List.pairwise_map.mp htracks.ids_lt
  exact (hids.filter _).imp fun hlt => ⟨rfl, hlt⟩

omit [Scalar R] in
theorem frame_of_mem_dumpRows {frameNo : ℤ} {tracks : List (Track R)} {row : DumpRow R}
    (h : row ∈ dumpRows frameNo tracks) :
    ∃ t ∈ tracks, row = ⟨frameNo, t.id, t.box, t.score⟩ := by
  obtain ⟨t, ht, rfl⟩ := List.mem_map.mp h
  exact ⟨t, (List.mem_filter.mp ht).1, rfl⟩

omit [Scalar R] in
/-- The rows of a dump carry the number of their frame. -/
theorem frame_of_mem_dumpOf {reports : List (List (Track R))} {row : DumpRow R}
    (h : row ∈ dumpOf reports) : ∃ (i : ℕ) (tracks : List (Track R)), i < reports.length ∧
      tracks ∈ reports ∧ ∃ t ∈ tracks, row = ⟨(i : ℤ) + 1, t.id, t.box, t.score⟩ := by
  obtain ⟨rows, hrows, hmem⟩ := List.mem_flatten.mp h
  obtain ⟨i, hi, rfl⟩ := List.mem_mapIdx.mp hrows
  obtain ⟨t, ht, rfl⟩ := frame_of_mem_dumpRows hmem
  exact ⟨i, reports[i], hi, List.getElem_mem hi, t, ht, rfl⟩

/-- The dump of well-formed reports is sorted by frame, and by id within a frame. -/
theorem dumpOf_sorted {reports : List (List (Track R))}
    (hreports : ∀ tracks ∈ reports, WellFormed tracks) :
    (dumpOf reports).Pairwise fun a b => a.frame < b.frame ∨ a.frame = b.frame ∧ a.id < b.id := by
  induction reports using List.reverseRecOn with
  | nil => exact List.Pairwise.nil
  | append_singleton reports tracks ih =>
    rw [dumpOf_append_singleton, List.pairwise_append]
    refine ⟨ih fun r hr => hreports r (List.mem_append_left _ hr), ?_, ?_⟩
    · have hlast := hreports tracks (List.mem_append_right _ (List.mem_singleton_self _))
      exact (dumpRows_sorted hlast _).imp Or.inr
    · intro a ha b hb
      obtain ⟨i, -, hi, -, -, -, rfl⟩ := frame_of_mem_dumpOf ha
      obtain ⟨t, -, rfl⟩ := frame_of_mem_dumpRows hb
      left
      change (i : ℤ) + 1 < (reports.length : ℤ) + 1
      omega

end TbdNode

end Ctrk
