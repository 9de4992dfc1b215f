import CustosTracker.Sot.MosseTracker
import CustosTracker.Sot.NanoTracker
import CustosTracker.Sot.Step

set_option relaxedAutoImplicit false
set_option autoImplicit false

/-!
# `init` is a full reset

Two facades with the same configuration that execute the same `init` give the same answers from
then on, whatever they did before.

## Main definitions

* `Ctrk.coreBackend` — the backends of the core, chosen by the configuration.
* `Ctrk.BackendCore` — which part of a backend's state its answers depend on.
* `Ctrk.SotTracker.Alike` — facades that only differ in what no answer depends on.

## Main results

* `Ctrk.coreBackendCore` — the backends of the core reset on `init`.
* `Ctrk.SotTracker.Alike.update` — facades that are alike give the same answer and stay alike.
* `Ctrk.SotTracker.init_reset` — the reset, over all pairs of histories.
-/

namespace Ctrk

variable {R : Type} [Scalar R]

/-! ## The backends of the core -/

/-- `std::optional<NanoTracker> nano` and `std::optional<MosseTracker> mosse`, exactly one of which
is set. -/
def coreBackend (nops : NanoOps R) (mops : MosseOps R) : Backend R where
  State := NanoTracker R ⊕ MosseTracker R
  init
    | .inl t, img, box => .inl (t.init nops img box)
    | .inr t, img, box => .inr (t.init mops img box)
  update
    | .inl t, img => ((t.update nops img).1, .inl (t.update nops img).2)
    | .inr t, img => ((t.update mops img).1, .inr (t.update mops img).2)
  isNano := Sum.isLeft
  embed
    | .inl t, img, box => t.embed nops img box
    | .inr _, _, _ => []
  zf
    | .inl t => t.zf
    | .inr _ => []

/-- The backend the constructor of the facade sets. -/
def newBackend (nops : NanoOps R) (cfg : SotConfig R) : NanoTracker R ⊕ MosseTracker R :=
  match cfg.backend with
  | .nanoTrack => .inl (NanoTracker.new nops cfg)
  | .mosse => .inr (MosseTracker.new cfg)

/-- The constructor of the facade, and `enable_reacquire` if there is a detector. -/
def SotTracker.create (nops : NanoOps R) (mops : MosseOps R) (cfg : SotConfig R)
    (rc : Option (ReacquireConfig R)) : SotTracker (coreBackend nops mops) :=
  { SotTracker.new (K := coreBackend nops mops) cfg (newBackend nops cfg.resolve) with
    reacquire := rc }

/-- Which part of a backend's state its answers depend on (`core`), and which part only the
constructor sets (`consts`). -/
structure BackendCore (K : Backend R) (C : Type) where
  core : K.State → K.State
  consts : K.State → C
  consts_init : ∀ (a : K.State) (img : Image Bgr) (box : BBox R),
    consts (K.init a img box) = consts a
  consts_update : ∀ (a : K.State) (img : Image Bgr), consts (K.update a img).2 = consts a
  consts_of_core : ∀ {a b : K.State}, core a = core b → consts a = consts b
  init : ∀ {a b : K.State} (img : Image Bgr) (box : BBox R), consts a = consts b →
    core (K.init a img box) = core (K.init b img box)
  update : ∀ {a b : K.State} (img : Image Bgr), core a = core b →
    (K.update a img).1 = (K.update b img).1 ∧ core (K.update a img).2 = core (K.update b img).2
  embed : ∀ {a b : K.State} (img : Image Bgr) (box : BBox R), core a = core b →
    K.embed a img box = K.embed b img box
  isNano : ∀ {a b : K.State}, consts a = consts b → K.isNano a = K.isNano b
  zf : ∀ {a b : K.State}, core a = core b → K.zf a = K.zf b

/-- The backends of the core: the reused buffers of the siamese tracker are inessential. -/
def coreBackendCore (nops : NanoOps R) (mops : MosseOps R) : BackendCore (coreBackend nops mops)
    ((SotConfig R × List R × List R × List R) ⊕ SotConfig R) where
  core := Sum.map NanoTracker.core id
  consts := Sum.map NanoTracker.consts MosseTracker.cfg
  consts_init a img box := by
    cases a with
    | inl t => exact congrArg Sum.inl (t.consts_init nops img box)
    | inr t => exact congrArg Sum.inr (t.cfg_init mops img box)
  consts_update a img := by
    cases a with
    | inl t => exact congrArg Sum.inl (t.consts_update nops img)
    | inr t => exact congrArg Sum.inr (t.cfg_update mops img)
  consts_of_core {a b} h := by
    cases a with
    | inl s =>
      cases b with
      | inl t => exact congrArg Sum.inl (NanoTracker.consts_of_core (Sum.inl.inj h))
      | inr t => exact absurd h (by simp)
    | inr s =>
      cases b with
      | inl t => exact absurd h (by simp)
      | inr t => exact congrArg (Sum.inr ∘ MosseTracker.cfg) (Sum.inr.inj h)
  init {a b} img box h := by
    cases a with
    | inl s =>
      cases b with
      | inl t => exact congrArg Sum.inl (NanoTracker.init_core nops (Sum.inl.inj h) img box)
      | inr t => exact absurd h (by simp)
    | inr s =>
      cases b with
      | inl t => exact absurd h (by simp)
      | inr t =>
        have hinit : s.init mops img box = t.init mops img box :=
          MosseTracker.init_eq mops (Sum.inr.inj h) img box
        exact congrArg (Sum.map NanoTracker.core id ∘ Sum.inr) hinit
  update {a b} img h := by
    cases a with
    | inl s =>
      cases b with
      | inl t =>
        obtain ⟨hres, hcore⟩ := NanoTracker.update_core nops (Sum.inl.inj h) img
        exact ⟨hres, congrArg Sum.inl hcore⟩
      | inr t => exact absurd h (by simp)
    | inr s =>
      cases b with
      | inl t => exact absurd h (by simp)
      | inr t =>
        obtain rfl : s = t := Sum.inr.inj h
        exact ⟨rfl, rfl⟩
  embed {a b} img box h := by
    cases a with
    | inl s =>
      cases b with
      | inl t => exact NanoTracker.embed_core nops (Sum.inl.inj h) img box
      | inr t => exact absurd h (by simp)
    | inr s =>
      cases b with
      | inl t => exact absurd h (by simp)
      | inr t => rfl
  isNano {a b} h := by
    cases a <;> cases b <;> first | rfl | exact absurd h (by simp)
  zf {a b} h := by
    cases a with
    | inl s =>
      cases b with
      | inl t =>
        have hzf : s.core.zf = t.core.zf := by rw [Sum.inl.inj h]
        exact hzf
      | inr t => exact absurd h (by simp)
    | inr s =>
      cases b with
      | inl t => exact absurd h (by simp)
      | inr t => rfl

/-! ## Facades that are alike -/

namespace SotTracker

variable {K : Backend R} {C : Type} (E : BackendCore K C) (ops : HistOps R)

/-- Facades that only differ in what no answer depends on: the inessential part of the backend,
and the references of embedders that are not in use. -/
structure Alike (s t : SotTracker K) : Prop where
  cfg : s.cfg = t.cfg
  backend : E.core s.backend = E.core t.backend
  reacquire : s.reacquire = t.reacquire
  lowStreak : s.lowStreak = t.lowStreak
  lastGood : s.lastGood = t.lastGood
  framesLost : s.framesLost = t.framesLost
  refHist : s.cfg.reid.embedder = .hsvHist → s.refHist = t.refHist
  refEmbed : s.cfg.reid.embedder = .nanoZ → K.isNano s.backend = true → s.refEmbed = t.refEmbed
  sinceDriftCheck : s.sinceDriftCheck = t.sinceDriftCheck
  driftLatched : s.driftLatched = t.driftLatched

/-- Facades that are alike judge appearance alike. -/
theorem Alike.similarity {s t : SotTracker K} (h : Alike E s t) (img : Image Bgr) (box : BBox R) :
    s.similarity ops img box = t.similarity ops img box := by
  unfold SotTracker.similarity
  rw [← h.cfg]
  cases hemb : s.cfg.reid.embedder with
  | none => rfl
  | hsvHist =>
    simp only
    rw [h.refHist hemb]
  | nanoZ =>
    simp only
    rw [← E.isNano (E.consts_of_core h.backend), ← E.embed img box h.backend]
    cases hnano : K.isNano s.backend with
    | false => rfl
    | true => rw [h.refEmbed hemb hnano]

/-- Facades that are alike pick the same candidate. -/
theorem Alike.pickCandidate {s t : SotTracker K} (h : Alike E s t) (rc : ReacquireConfig R)
    (img : Image Bgr) (dets : List (Detection R)) :
    s.pickCandidate ops rc img dets = t.pickCandidate ops rc img dets := by
  have hradius : s.searchRadius rc = t.searchRadius rc := by
    rw [searchRadius, searchRadius, h.lastGood, h.framesLost]
  have hdist : ∀ d, s.distance d = t.distance d := by
    intro d
    rw [distance, distance, h.lastGood]
  have hgates : ∀ d, s.passesGates rc d = t.passesGates rc d := by
    intro d
    rw [passesGates, passesGates, hradius, hdist, h.lastGood]
  have hstep : s.considerCandidate ops rc img = t.considerCandidate ops rc img := by
    funext best d
    rw [considerCandidate, considerCandidate, hgates, hdist, h.cfg, h.similarity E ops]
  rw [SotTracker.pickCandidate, SotTracker.pickCandidate, hstep, hradius]

/-- `init` makes facades with the same configuration alike.

**Proof sketch.** `init` overwrites every member that is compared, from the configuration, the
constants of the backend, the frame and the target; the references of the embedders depend on the
core of the backend only. -/
theorem init_alike {s t : SotTracker K} (hcfg : s.cfg = t.cfg) (hrc : s.reacquire = t.reacquire)
    (hconsts : E.consts s.backend = E.consts t.backend) (frame : Frame R) (target : BBox R) :
    Alike E (s.init ops frame target) (t.init ops frame target) where
  cfg := hcfg
  backend := E.init frame.image target hconsts
  reacquire := hrc
  lowStreak := rfl
  lastGood := rfl
  framesLost := rfl
  refHist hemb := by
    have hemb' : t.cfg.reid.embedder = .hsvHist := by rw [← hcfg]; exact hemb
    show (if s.cfg.reid.embedder = .hsvHist then _ else _) =
      if t.cfg.reid.embedder = .hsvHist then _ else _
    rw [if_pos (show s.cfg.reid.embedder = .hsvHist from hemb), if_pos hemb']
  refEmbed hemb hnano := by
    have hback := E.init frame.image target hconsts
    have hemb' : t.cfg.reid.embedder = .nanoZ := by rw [← hcfg]; exact hemb
    have hnano' : K.isNano (K.init t.backend frame.image target) = true := by
      rw [← E.isNano (E.consts_of_core hback)]
      exact hnano
    show (if s.cfg.reid.embedder = .nanoZ ∧ K.isNano (K.init s.backend frame.image target) = true
        then _ else _) =
      if t.cfg.reid.embedder = .nanoZ ∧ K.isNano (K.init t.backend frame.image target) = true
        then _ else _
    rw [if_pos ⟨show s.cfg.reid.embedder = .nanoZ from hemb, hnano⟩, if_pos ⟨hemb', hnano'⟩,
      E.zf hback]
  sinceDriftCheck := rfl
  driftLatched := rfl

/-- Facades that are alike search with the same radius. -/
theorem Alike.searchRadius {s t : SotTracker K} (h : Alike E s t) (rc : ReacquireConfig R) :
    s.searchRadius rc = t.searchRadius rc := by
  rw [SotTracker.searchRadius, SotTracker.searchRadius, h.lastGood, h.framesLost]

/-- Alike facades stay alike after the same change of the flags and counters and of the essential
part of the backend. -/
theorem Alike.setBackend {s t : SotTracker K} (h : Alike E s t) {a b : K.State} {n : ℤ}
    (hab : E.core a = E.core b) (ha : E.consts a = E.consts s.backend) :
    Alike E { s with backend := a, lowStreak := n } { t with backend := b, lowStreak := n } :=
  { h with
    backend := hab
    lowStreak := rfl
    refEmbed := fun hemb hnano => h.refEmbed hemb (by rw [← E.isNano ha]; exact hnano) }

theorem reacquireStep_of_some {s : SotTracker K} {rc : ReacquireConfig R}
    (hrc : s.reacquire = some rc) (frame : Frame R) (rep : SotReport R) :
    s.reacquireStep ops frame rep =
      let s₁ := { s with framesLost := s.framesLost + 1 }
      if rc.detectEvery = 0 then none
      else if s₁.framesLost.tmod rc.detectEvery ≠ 0 then some (rep, s₁)
      else
        let rep := { rep with search := some (s₁.searchRadius rc) }
        match s₁.pickCandidate ops rc frame.image frame.detections with
        | none => some (rep, s₁)
        | some d =>
          some ({ rep with relock := some d, result := ⟨d.box, d.score, .unstable⟩ },
            { s₁ with
              backend := K.init s₁.backend frame.image d.box
              lowStreak := s₁.cfg.lostPatience - 1 }) := by
  obtain ⟨cfg, backend, reacquire, streak, lastGood, lost, refHist, refEmbed, since, latched⟩ := s
  obtain rfl : reacquire = some rc := hrc
  rfl

/-- The re-acquisition tail keeps facades alike.

**Proof sketch.** Both sides count the lost frame, divide by the same cadence and run the
candidate loop on equal data, so they re-seed with the same detection or not at all; `init` makes
the backends alike again. -/
theorem Alike.reacquireStep {s t : SotTracker K} (h : Alike E s t) (frame : Frame R)
    (rep : SotReport R) :
    Trace.Agree (Alike E) (s.reacquireStep ops frame rep) (t.reacquireStep ops frame rep) := by
  cases hrc : s.reacquire with
  | none =>
    rw [SotTracker.reacquireStep, SotTracker.reacquireStep, ← h.reacquire, hrc]
    exact .some ⟨rfl, h⟩
  | some rc =>
    have h₁ : Alike E { s with framesLost := s.framesLost + 1 }
        { t with framesLost := t.framesLost + 1 } :=
      { h with framesLost := congrArg (· + 1) h.framesLost }
    rw [reacquireStep_of_some ops hrc, reacquireStep_of_some ops (h.reacquire.symm.trans hrc)]
    generalize { s with framesLost := s.framesLost + 1 } = s₁ at h₁ ⊢
    generalize { t with framesLost := t.framesLost + 1 } = t₁ at h₁ ⊢
    have hpick := h₁.pickCandidate E ops rc frame.image frame.detections
    have hradius := h₁.searchRadius E rc
    have hcount := h₁.framesLost
    have hpat := h₁.cfg
    simp only
    split_ifs with hzero hcadence hcadence' hcadence'
    · exact .none
    · exact .some ⟨rfl, h₁⟩
    · exact absurd (hcount ▸ hcadence) hcadence'
    · exact absurd (hcount.symm ▸ hcadence') hcadence
    · rw [← hpick, ← hradius]
      split
      · exact .some ⟨rfl, h₁⟩
      · refine .some ⟨rfl, ?_⟩
        simp only
        rw [show t₁.cfg.lostPatience = s₁.cfg.lostPatience by rw [hpat]]
        exact h₁.setBackend E (E.init _ _ (E.consts_of_core h₁.backend)) (E.consts_init _ _ _)

/-- Facades that are alike judge an answer alike.

**Proof sketch.** By cases on the verdict.  A healthy frame counts towards the same check, whose
similarity is equal on both sides; the other branches are the tail of `Alike.reacquireStep`. -/
theorem Alike.judge {s t : SotTracker K} (h : Alike E s t) (frame : Frame R) (r : SotResult R)
    (verdict : SotState) :
    Trace.Agree (Alike E) (s.judge ops frame r verdict) (t.judge ops frame r verdict) := by
  cases verdict with
  | unstable => exact .some ⟨rfl, h⟩
  | lost => exact h.reacquireStep E ops frame _
  | tracking =>
    have hcount : s.countCheck = t.countCheck := by
      rw [countCheck, countCheck, h.cfg, h.driftLatched, h.sinceDriftCheck]
    have hdue : s.checkDue = t.checkDue := by
      rw [checkDue, checkDue, hcount, h.cfg, h.driftLatched]
    have hchecked : Alike E { s with sinceDriftCheck := 0 } { t with sinceDriftCheck := 0 } :=
      { h with sinceDriftCheck := rfl }
    have hsim := hchecked.similarity E ops frame.image r.box
    have hthr : s.cfg.reid.driftThr = t.cfg.reid.driftThr := by rw [h.cfg]
    simp only [SotTracker.judge]
    rw [← hdue, ← hsim, ← hthr]
    split_ifs with hskip hpass
    · exact .some ⟨rfl, { h with sinceDriftCheck := hcount, lastGood := rfl, framesLost := rfl }⟩
    · exact .some ⟨rfl, { h with
        sinceDriftCheck := rfl
        driftLatched := rfl
        lastGood := rfl
        framesLost := rfl }⟩
    · apply Alike.reacquireStep E ops
      exact { h with
        sinceDriftCheck := rfl
        driftLatched := rfl
        lowStreak := congrArg SotConfig.lostPatience h.cfg }

/-- Facades that are alike give the same answer to a frame, and stay alike. -/
theorem Alike.update {s t : SotTracker K} (h : Alike E s t) (frame : Frame R) :
    Trace.Agree (Alike E) (s.update ops frame) (t.update ops frame) := by
  obtain ⟨hres, hcore⟩ := E.update frame.image h.backend
  have hstreak : ∀ score, s.nextStreak score = t.nextStreak score := by
    intro score
    rw [nextStreak, nextStreak, h.cfg, h.lowStreak]
  have hclass : ∀ score, s.classify score = t.classify score := by
    intro score
    rw [classify, classify, hstreak, h.cfg]
  rw [update_eq_judge, update_eq_judge, ← hres, ← hclass, ← hstreak]
  apply Alike.judge E ops
  exact h.setBackend E hcore (E.consts_update _ _)

/-! ## Runs -/

/-- Facades that are alike stay alike along a call, and produce the same event. -/
theorem Alike.step {s t : SotTracker K} (h : Alike E s t) (op : SotOp R) :
    Trace.Agree (Alike E) (s.step ops op) (t.step ops op) := by
  cases op with
  | init frame target =>
    exact .some ⟨rfl, init_alike E ops h.cfg h.reacquire (E.consts_of_core h.backend) frame target⟩
  | update frame =>
    have hup := h.update E ops frame
    rw [SotTracker.step, SotTracker.step]
    generalize s.update ops frame = x at hup
    generalize t.update ops frame = y at hup
    cases hup with
    | none => exact .none
    | some hup => exact .some ⟨congrArg SotEvent.reported hup.1, hup.2⟩

/-- Configuration, detector settings and what only the backend's constructor sets. -/
def Keeps (s s' : SotTracker K) : Prop :=
  s'.cfg = s.cfg ∧ s'.reacquire = s.reacquire ∧ E.consts s'.backend = E.consts s.backend

/-- No call changes the configuration, the detector settings or what only constructors set. -/
theorem keeps_step {s s' : SotTracker K} {op : SotOp R} {e : SotEvent R}
    (h : s.step ops op = some (e, s')) : Keeps E s s' := by
  cases op with
  | init frame target =>
    obtain ⟨-, rfl⟩ := Prod.mk.inj (Option.some.inj h)
    exact ⟨rfl, rfl, E.consts_init _ _ _⟩
  | update frame =>
    obtain ⟨⟨rep, s₁⟩, hup, heq⟩ := Option.map_eq_some_iff.mp h
    obtain ⟨-, rfl⟩ := Prod.mk.inj heq
    obtain ⟨hcfg, hrc, -, hbackend⟩ := update_keeps ops hup
    refine ⟨hcfg, hrc, ?_⟩
    rcases hbackend with hseen | ⟨box, hseeded⟩
    · rw [hseen]
      exact E.consts_update _ _
    · rw [hseeded, E.consts_init]
      exact E.consts_update _ _

theorem keeps_run {s s' : SotTracker K} {calls : List (SotOp R)} {evs : List (SotEvent R)}
    (h : s.run ops calls = some (evs, s')) : Keeps E s s' := by
  apply Trace.run_induction (P := fun _ s₁ => Keeps E s s₁) ⟨rfl, rfl, rfl⟩ _ h
  intro _ s₁ op e s₂ hold hstep
  obtain ⟨hcfg, hrc, hconsts⟩ := keeps_step E ops hstep
  exact ⟨hcfg.trans hold.1, hrc.trans hold.2.1, hconsts.trans hold.2.2⟩

/-- The results a caller sees. -/
def results (evs : List (SotEvent R)) : List (SotResult R) :=
  evs.filterMap fun
    | .started _ => none
    | .reported rep => some rep.result

/-- Two histories of one facade, then the same `init` and the same calls: the same events. -/
theorem run_init_eq {s s₁ s₂ : SotTracker K} (h₁ : Keeps E s s₁) (h₂ : Keeps E s s₂)
    (frame : Frame R) (target : BBox R) (calls : List (SotOp R)) :
    (s₁.run ops (.init frame target :: calls)).map Prod.fst =
      (s₂.run ops (.init frame target :: calls)).map Prod.fst := by
  have halike := init_alike E ops (h₁.1.trans h₂.1.symm) (h₁.2.1.trans h₂.2.1.symm)
    (h₁.2.2.trans h₂.2.2.symm) frame target
  have hrun := Trace.run_agree (fun _ _ op h => h.step E ops op) halike calls
  exact (hrun.cons (.started target)).map_fst

/-- **`init` is a full reset.** Take two facades made with the same configuration and detector
settings, over either backend, and let them execute any two histories of calls.  When both then
execute the same `init`, every common sequence of `update` calls returns the same results on
both.

**Proof sketch.** No call changes the configuration or the constants of the backend, so before
the common `init` the facades agree on these.  `init` makes them alike (`init_alike`), and calls
keep alike facades alike and return the same results, by induction on the calls. -/
theorem init_reset (nops : NanoOps R) (mops : MosseOps R) (cfg : SotConfig R)
    (rc : Option (ReacquireConfig R)) (hist₁ hist₂ : List (SotOp R))
    (evs₁ evs₂ : List (SotEvent R)) (s₁ s₂ : SotTracker (coreBackend nops mops))
    (h₁ : (create nops mops cfg rc).run ops hist₁ = some (evs₁, s₁))
    (h₂ : (create nops mops cfg rc).run ops hist₂ = some (evs₂, s₂))
    (frame : Frame R) (target : BBox R) (frames : List (Frame R)) :
    (s₁.run ops (.init frame target :: frames.map .update)).map (fun p => results p.1) =
      (s₂.run ops (.init frame target :: frames.map .update)).map (fun p => results p.1) := by
  have hevents := run_init_eq (coreBackendCore nops mops) ops
    (keeps_run (coreBackendCore nops mops) ops h₁) (keeps_run (coreBackendCore nops mops) ops h₂)
    frame target (frames.map .update)
  have hresults := congrArg (Option.map results) hevents
  rw [Option.map_map, Option.map_map] at hresults
  exact hresults

/-- Image routines on black frames, where all patches are black. -/
noncomputable def blackCv : CvOps ℝ where
  mean _ := ⟨0, 0, 0⟩
  resize _ n := ⟨n, n, fun _ _ => ⟨0, 0, 0⟩⟩
  exp := Real.exp

/-- Transforms for the correlation filter on black frames. -/
noncomputable def blackMosse : MosseOps ℝ where
  cv := blackCv
  cvtColor m := ⟨m.cols, m.rows, fun _ _ => 0⟩
  log := Real.log
  meanStdDev _ _ := (0, 0)
  createHanningWindow n := ⟨n, n, fun x y =>
    (1 - Real.cos (2 * Real.pi * x / (n - 1))) / 2 * ((1 - Real.cos (2 * Real.pi * y / (n - 1))) / 2)⟩
  dft m := ⟨m.cols, m.rows, fun u v =>
    (∑ x ∈ Finset.range m.cols, ∑ y ∈ Finset.range m.rows,
        m.px x y * Real.cos (2 * Real.pi * (u * x / m.cols + v * y / m.rows)),
      -∑ x ∈ Finset.range m.cols, ∑ y ∈ Finset.range m.rows,
        m.px x y * Real.sin (2 * Real.pi * (u * x / m.cols + v * y / m.rows)))⟩
  idft m := ⟨m.cols, m.rows, fun _ _ => 0⟩
  mulSpectrums a b conj := { a with px := fun x y =>
    let c := if conj then -(b.px x y).2 else (b.px x y).2
    ((a.px x y).1 * (b.px x y).1 - (a.px x y).2 * c, (a.px x y).1 * c + (a.px x y).2 * (b.px x y).1) }
  divSpectrums a b := { a with px := fun x y =>
    let n := (b.px x y).1 * (b.px x y).1 + (b.px x y).2 * (b.px x y).2
    (((a.px x y).1 * (b.px x y).1 + (a.px x y).2 * (b.px x y).2) / n,
      ((a.px x y).2 * (b.px x y).1 - (a.px x y).1 * (b.px x y).2) / n) }
  minMaxLoc _ := (0, 0, 0)
  rotate m _ := m

/-- No graph is loaded for the correlation filter. -/
noncomputable def noNano : NanoOps ℝ where
  cv := blackCv
  backboneZ _ := []
  backboneX _ := []
  head _ _ := ([], [])
  scoreSize := 0
  createHanningWindow _ := []

theorem init_reset_blackFrames :
    ∃ evs₁ s₁, (create noNano blackMosse { backend := .mosse } (some {})).run pixelOps
        [.init (blueFrame 0) ⟨1, 1, 4, 4⟩, .update (blueFrame 0)] = some (evs₁, s₁) ∧
      (s₁.run pixelOps (.init (blueFrame 0) ⟨2, 2, 4, 4⟩ ::
          [blueFrame 0, blueFrame 0].map .update)).map (fun p => results p.1) =
        ((create noNano blackMosse { backend := .mosse } (some {})).run pixelOps
          (.init (blueFrame 0) ⟨2, 2, 4, 4⟩ ::
            [blueFrame 0, blueFrame 0].map .update)).map (fun p => results p.1) := by
  obtain ⟨⟨evs₁, s₁⟩, h₁⟩ := Option.isSome_iff_exists.mp (run_isSome pixelOps
    (s := create noNano blackMosse { backend := .mosse } (some {}))
    (fun rc hrc => by
      rw [← Option.some.inj (show some {} = some rc from hrc)]
      exact (show (3 : ℤ) ≠ 0 by omega))
    [.init (blueFrame 0) ⟨1, 1, 4, 4⟩, .update (blueFrame 0)])
  have hreset := init_reset pixelOps noNano blackMosse { backend := .mosse } (some {})
    [.init (blueFrame 0) ⟨1, 1, 4, 4⟩, .update (blueFrame 0)] [] evs₁ [] s₁
    (create noNano blackMosse { backend := .mosse } (some {})) h₁ rfl (blueFrame 0) ⟨2, 2, 4, 4⟩
    [blueFrame 0, blueFrame 0]
  exact ⟨evs₁, s₁, h₁, hreset⟩

end SotTracker

end Ctrk
