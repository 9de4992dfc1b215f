import CustosTracker.Sot.SotTracker

set_option relaxedAutoImplicit false
set_option autoImplicit false

/-!
# What one update of the facade does

The five outcomes of `SotTracker::update`, each with everything it changes.  All results about the
facade are derived from `update_outcome`.

## Main definitions

* `Ctrk.SotTracker.Judged` — what the re-acquisition tail does to a frame judged lost.
* `Ctrk.SotTracker.Outcome` — the five outcomes.

## Main results

* `Ctrk.SotTracker.reacquireStep_judged`, `Ctrk.SotTracker.update_outcome`.
-/

namespace Ctrk

variable {R : Type} [Scalar R] {K : Backend R}

namespace SotTracker

variable (ops : HistOps R)

/-- The effect of the re-acquisition tail on a state `b` and report `rep₀` judged lost: it counts
the frame when there is a detector, calls the detector when the count is a multiple of its
cadence, and may re-seed the template, which leaves one low score short of lost. -/
structure Judged (b : SotTracker K) (rep₀ rep : SotReport R) (s' : SotTracker K) : Prop where
  cfg : s'.cfg = b.cfg
  reacquire : s'.reacquire = b.reacquire
  lastGood : s'.lastGood = b.lastGood
  sinceDriftCheck : s'.sinceDriftCheck = b.sinceDriftCheck
  driftLatched : s'.driftLatched = b.driftLatched
  raw : rep.raw = rep₀.raw
  check : rep.check = rep₀.check
  verdict : rep.verdict = rep₀.verdict
  framesLost : s'.framesLost = b.framesLost + (if b.reacquire.isSome then 1 else 0)
  search : ∀ rc, b.reacquire = some rc → rc.detectEvery ≠ 0 ∧ rep.search =
    if (b.framesLost + 1).tmod rc.detectEvery = 0 then
      some (searchRadius { b with framesLost := b.framesLost + 1 } rc) else none
  no_search : b.reacquire = none → rep.search = none
  fate : (rep.relock = none ∧ rep.result = rep₀.result ∧ s'.lowStreak = b.lowStreak) ∨
    ∃ d, rep.relock = some d ∧ rep.search.isSome = true ∧ rep.result = ⟨d.box, d.score, .unstable⟩ ∧
      s'.lowStreak = b.cfg.lostPatience - 1

/-- The re-acquisition tail does what `Judged` says.

**Proof sketch.** By the branches of the tail: no detector, not at its cadence, no candidate, or
a re-lock.  Each writes the report and the state down as `Judged` describes them. -/
theorem reacquireStep_judged {b s' : SotTracker K} {frame : Frame R} {rep₀ rep : SotReport R}
    (hsearch : rep₀.search = none) (hrelock : rep₀.relock = none)
    (h : b.reacquireStep ops frame rep₀ = some (rep, s')) : Judged b rep₀ rep s' := by
  obtain ⟨cfg, backend, reacquire, streak, lastGood, lost, refHist, refEmbed, since, latched⟩ := b
  cases reacquire with
  | none =>
    obtain ⟨rfl, rfl⟩ := Prod.mk.inj (Option.some.inj h)
    exact ⟨rfl, rfl, rfl, rfl, rfl, rfl, rfl, rfl, (add_zero lost).symm,
      fun rc hrc => absurd hrc (by simp), fun _ => hsearch, Or.inl ⟨hrelock, rfl, rfl⟩⟩
  | some rc =>
    have hone : ∀ rc', some rc = some rc' → rc' = rc := fun rc' hrc => (Option.some.inj hrc).symm
    simp only [reacquireStep] at h
    split_ifs at h with hzero hcadence
    · -- not at the detector's cadence
      obtain ⟨rfl, rfl⟩ := Prod.mk.inj (Option.some.inj h)
      refine ⟨rfl, rfl, rfl, rfl, rfl, rfl, rfl, rfl, rfl, fun rc' hrc => ?_,
        fun hnone => absurd hnone (by simp), Or.inl ⟨hrelock, rfl, rfl⟩⟩
      obtain rfl := hone rc' hrc
      exact ⟨hzero, by rw [if_neg hcadence]; exact hsearch⟩
    · rw [not_not] at hcadence
      split at h
      · -- no candidate
        obtain ⟨rfl, rfl⟩ := Prod.mk.inj (Option.some.inj h)
        refine ⟨rfl, rfl, rfl, rfl, rfl, rfl, rfl, rfl, rfl, fun rc' hrc => ?_,
          fun hnone => absurd hnone (by simp), Or.inl ⟨hrelock, rfl, rfl⟩⟩
        obtain rfl := hone rc' hrc
        exact ⟨hzero, by rw [if_pos hcadence]⟩
      · -- a re-lock
        obtain ⟨rfl, rfl⟩ := Prod.mk.inj (Option.some.inj h)
        refine ⟨rfl, rfl, rfl, rfl, rfl, rfl, rfl, rfl, rfl, fun rc' hrc => ?_,
          fun hnone => absurd hnone (by simp), Or.inr ⟨_, rfl, rfl, rfl, rfl⟩⟩
        obtain rfl := hone rc' hrc
        exact ⟨hzero, by rw [if_pos hcadence]⟩

/-- What a frame judged lost reports. -/
theorem Judged.state {b s' : SotTracker K} {rep₀ rep : SotReport R} (h : Judged b rep₀ rep s')
    (h₀ : rep₀.result.state = .lost) :
    rep.result.state = if rep.relock.isSome then .unstable else .lost := by
  rcases h.fate with ⟨hnone, hres, -⟩ | ⟨d, hsome, -, hres, -⟩
  · rw [hnone, hres, h₀]
    simp
  · rw [hsome, hres]
    simp

theorem Judged.state_ne_tracking {b s' : SotTracker K} {rep₀ rep : SotReport R}
    (h : Judged b rep₀ rep s') (h₀ : rep₀.result.state = .lost) : rep.result.state ≠ .tracking := by
  rw [h.state h₀]
  split_ifs <;> simp

/-- After a frame judged lost the streak is at least one short of the patience. -/
theorem Judged.streak {b s' : SotTracker K} {rep₀ rep : SotReport R} (h : Judged b rep₀ rep s')
    (hb : b.cfg.lostPatience - 1 ≤ b.lowStreak) : b.cfg.lostPatience - 1 ≤ s'.lowStreak := by
  rcases h.fate with ⟨-, -, hstreak⟩ | ⟨d, -, -, -, hstreak⟩
  · rwa [hstreak]
  · rw [hstreak]

/-- The outcomes of an update. -/
inductive Outcome (s : SotTracker K) (rep : SotReport R) (s' : SotTracker K) : Prop
  /-- A healthy score, and no drift check due. -/
  | healthy (hscore : s.cfg.lostScoreThr ≤ rep.raw.score) (hdue : s.checkDue = false)
      (hrep : rep = ⟨rep.raw, none, .tracking, none, none, { rep.raw with state := .tracking }⟩)
      (hs' : s' = { s with
        backend := s'.backend
        lowStreak := 0
        sinceDriftCheck := s.countCheck
        lastGood := rep.raw.box
        framesLost := 0 })
  /-- A healthy score, and the drift check passed. -/
  | verified (sim : R) (hscore : s.cfg.lostScoreThr ≤ rep.raw.score) (hdue : s.checkDue = true)
      (hsim : s.cfg.reid.driftThr ≤ sim)
      (hrep : rep = ⟨rep.raw, some sim, .tracking, none, none,
        { rep.raw with state := .tracking }⟩)
      (hs' : s' = { s with
        backend := s'.backend
        lowStreak := 0
        sinceDriftCheck := 0
        driftLatched := false
        lastGood := rep.raw.box
        framesLost := 0 })
  /-- A healthy score, but the drift check failed. -/
  | drifted (sim : R) (b : K.State) (hscore : s.cfg.lostScoreThr ≤ rep.raw.score)
      (hdue : s.checkDue = true) (hsim : sim < s.cfg.reid.driftThr)
      (hjudged : Judged { s with
          backend := b
          lowStreak := s.cfg.lostPatience
          sinceDriftCheck := 0
          driftLatched := true }
        ⟨rep.raw, some sim, .lost, none, none, { rep.raw with state := .lost }⟩ rep s')
  /-- A low score, with patience left. -/
  | shaky (hscore : rep.raw.score < s.cfg.lostScoreThr)
      (hstreak : s.lowStreak + 1 < s.cfg.lostPatience)
      (hrep : rep = ⟨rep.raw, none, .unstable, none, none, { rep.raw with state := .unstable }⟩)
      (hs' : s' = { s with backend := s'.backend, lowStreak := s.lowStreak + 1 })
  /-- A low score that exhausts the patience. -/
  | missing (b : K.State) (hscore : rep.raw.score < s.cfg.lostScoreThr)
      (hstreak : s.cfg.lostPatience ≤ s.lowStreak + 1)
      (hjudged : Judged { s with backend := b, lowStreak := s.lowStreak + 1 }
        ⟨rep.raw, none, .lost, none, none, { rep.raw with state := .lost }⟩ rep s')

/-- **Every update has one of the five outcomes.**

**Proof sketch.** By cases on the score.  A low score lengthens the streak and is judged by the
patience; any other clears it, and the check is not due, passes or fails. -/
theorem update_outcome {s s' : SotTracker K} {frame : Frame R} {rep : SotReport R}
    (h0 : 0 ≤ s.lowStreak) (h : s.update ops frame = some (rep, s')) : Outcome s rep s' := by
  unfold update judge at h
  generalize hr : K.update s.backend frame.image = p at h
  obtain ⟨r, b⟩ := p
  simp only at h
  by_cases hlow : r.score < s.cfg.lostScoreThr
  · have hnext : s.nextStreak r.score = s.lowStreak + 1 := if_pos hlow
    have hne : ¬s.lowStreak + 1 = 0 := by omega
    by_cases hpat : s.cfg.lostPatience ≤ s.lowStreak + 1
    · have hclass : s.classify r.score = .lost := by
        rw [classify, hnext, if_neg hne, if_pos hpat]
      rw [hclass, hnext] at h
      have hj := reacquireStep_judged ops rfl rfl h
      obtain rfl : r = rep.raw := hj.raw.symm
      exact .missing b hlow hpat hj
    · have hclass : s.classify r.score = .unstable := by
        rw [classify, hnext, if_neg hne, if_neg hpat]
      rw [hclass, hnext] at h
      obtain ⟨rfl, rfl⟩ := Prod.mk.inj (Option.some.inj h)
      exact .shaky hlow (not_le.mp hpat) rfl rfl
  · have hnext : s.nextStreak r.score = 0 := if_neg hlow
    have hclass : s.classify r.score = .tracking := by rw [classify, hnext, if_pos rfl]
    rw [hclass, hnext] at h
    have hdue : checkDue { s with backend := b, lowStreak := 0 } = s.checkDue := rfl
    have hcount : countCheck { s with backend := b, lowStreak := 0 } = s.countCheck := rfl
    simp only [hdue, hcount] at h
    cases hd : s.checkDue with
    | false =>
      simp only [hd, Bool.not_false, if_true] at h
      obtain ⟨rfl, rfl⟩ := Prod.mk.inj (Option.some.inj h)
      exact .healthy (not_lt.mp hlow) hd rfl rfl
    | true =>
      simp only [hd, Bool.not_true, Bool.false_eq_true, if_false] at h
      split_ifs at h with hsim
      · obtain ⟨rfl, rfl⟩ := Prod.mk.inj (Option.some.inj h)
        exact .verified _ (not_lt.mp hlow) hd hsim rfl rfl
      · have hj := reacquireStep_judged ops rfl rfl h
        obtain rfl : r = rep.raw := hj.raw.symm
        exact .drifted _ b (not_lt.mp hlow) hd (not_le.mp hsim) hj

/-! ## Runs after a start -/

/-- The history begins with `init`. -/
def Started (evs : List (SotEvent R)) : Prop := ∃ target es, evs = .started target :: es

omit [Scalar R] in
/-- A history that begins with `init` contains it. -/
theorem exists_started {evs : List (SotEvent R)} (hst : Started evs) :
    ∃ target, SotEvent.started target ∈ evs := by
  obtain ⟨target, es, rfl⟩ := hst
  exact ⟨target, List.mem_cons_self⟩

omit [Scalar R] in
theorem started_of_append {evs es : List (SotEvent R)} (hne : evs ≠ [])
    (h : Started (evs ++ es)) : Started evs := by
  obtain ⟨target, rest, heq⟩ := h
  cases evs with
  | nil => exact absurd rfl hne
  | cons e evs => exact ⟨target, evs, by rw [(List.cons.inj heq).1]⟩

omit [Scalar R] in
/-- What precedes a frame in a history that begins with `init` begins with it. -/
theorem started_before {pre post : List (SotEvent R)} {rep : SotReport R}
    (h : Started (pre ++ .reported rep :: post)) : Started pre := by
  apply started_of_append _ h
  intro hnil
  obtain ⟨target, es, heq⟩ := h
  rw [hnil] at heq
  exact absurd (List.cons.inj heq).1 (by simp)

/-- A run of calls that begins with `init` has a history that begins with it. -/
theorem started_of_run {s s' : SotTracker K} {frame : Frame R} {target : BBox R}
    {calls : List (SotOp R)} {evs : List (SotEvent R)}
    (h : s.run ops (.init frame target :: calls) = some (evs, s')) : Started evs := by
  obtain ⟨e, s₁, es, hstep, -, rfl⟩ := Trace.run_cons_eq_some.mp h
  obtain ⟨rfl, -⟩ := Prod.mk.inj (Option.some.inj hstep)
  exact ⟨target, es, rfl⟩

/-- An update keeps the configuration, the detector and a nonnegative streak. -/
theorem Outcome.keeps {s s' : SotTracker K} {rep : SotReport R} (hP : 1 ≤ s.cfg.lostPatience)
    (h0 : 0 ≤ s.lowStreak) (h : Outcome s rep s') :
    s'.cfg = s.cfg ∧ s'.reacquire = s.reacquire ∧ 0 ≤ s'.lowStreak := by
  cases h with
  | healthy _ _ _ hs' => exact hs' ▸ ⟨rfl, rfl, le_rfl⟩
  | verified _ _ _ _ _ hs' => exact hs' ▸ ⟨rfl, rfl, le_rfl⟩
  | drifted _ _ _ _ _ hj =>
    refine ⟨hj.cfg, hj.reacquire, ?_⟩
    rcases hj.fate with ⟨-, -, hstreak⟩ | ⟨d, -, -, -, hstreak⟩ <;> rw [hstreak] <;> simp only <;>
      omega
  | shaky _ _ _ hs' =>
    refine hs' ▸ ⟨rfl, rfl, ?_⟩
    simp only
    omega
  | missing _ _ _ hj =>
    refine ⟨hj.cfg, hj.reacquire, ?_⟩
    rcases hj.fate with ⟨-, -, hstreak⟩ | ⟨d, -, -, -, hstreak⟩ <;> rw [hstreak] <;> simp only <;>
      omega

/-- The re-acquisition tail fails only by a division by a zero cadence. -/
theorem reacquireStep_isSome {s : SotTracker K}
    (hrq : ∀ rc, s.reacquire = some rc → rc.detectEvery ≠ 0) (frame : Frame R)
    (rep : SotReport R) : (s.reacquireStep ops frame rep).isSome = true := by
  obtain ⟨cfg, backend, reacquire, streak, lastGood, lost, refHist, refEmbed, since, latched⟩ := s
  cases reacquire with
  | none => rfl
  | some rc =>
    have hne : ¬rc.detectEvery = 0 := hrq rc rfl
    simp only [reacquireStep, if_neg hne]
    split_ifs
    · rfl
    · split <;> rfl

/-- So does an update. -/
theorem update_isSome {s : SotTracker K} (hrq : ∀ rc, s.reacquire = some rc → rc.detectEvery ≠ 0)
    (frame : Frame R) : (s.update ops frame).isSome = true := by
  have htail : ∀ s₁ : SotTracker K, s₁.reacquire = s.reacquire → ∀ rep,
      (s₁.reacquireStep ops frame rep).isSome = true := by
    intro s₁ hs₁ rep
    exact reacquireStep_isSome ops (by rw [hs₁]; exact hrq) frame rep
  unfold update judge
  generalize K.update s.backend frame.image = p
  obtain ⟨r, b⟩ := p
  simp only
  cases s.classify r.score with
  | tracking =>
    simp only
    split_ifs
    · rfl
    · rfl
    · apply htail
      rfl
  | unstable => rfl
  | lost =>
    apply htail
    rfl

/-- The re-acquisition tail keeps the configuration, the detector and the reference, and re-seeds
the backend at most. -/
theorem reacquireStep_keeps {s s' : SotTracker K} {frame : Frame R} {rep rep' : SotReport R}
    (h : s.reacquireStep ops frame rep = some (rep', s')) :
    s'.cfg = s.cfg ∧ s'.reacquire = s.reacquire ∧ s'.refHist = s.refHist ∧
      (s'.backend = s.backend ∨ ∃ box, s'.backend = K.init s.backend frame.image box) := by
  obtain ⟨cfg, backend, reacquire, streak, lastGood, lost, refHist, refEmbed, since, latched⟩ := s
  cases reacquire with
  | none =>
    obtain ⟨rfl, rfl⟩ := Prod.mk.inj (Option.some.inj h)
    exact ⟨rfl, rfl, rfl, Or.inl rfl⟩
  | some rc =>
    simp only [reacquireStep] at h
    split_ifs at h
    · obtain ⟨rfl, rfl⟩ := Prod.mk.inj (Option.some.inj h)
      exact ⟨rfl, rfl, rfl, Or.inl rfl⟩
    · split at h
      · obtain ⟨rfl, rfl⟩ := Prod.mk.inj (Option.some.inj h)
        exact ⟨rfl, rfl, rfl, Or.inl rfl⟩
      · obtain ⟨rfl, rfl⟩ := Prod.mk.inj (Option.some.inj h)
        exact ⟨rfl, rfl, rfl, Or.inr ⟨_, rfl⟩⟩

/-- An update keeps the configuration, the detector and the reference; the backend sees the frame
and is re-seeded at most.

**Proof sketch.** Only `init` changes the reference, and the re-acquisition tail is the one
branch that calls the backend again, to re-seed it. -/
theorem update_keeps {s s' : SotTracker K} {frame : Frame R} {rep : SotReport R}
    (h : s.update ops frame = some (rep, s')) :
    s'.cfg = s.cfg ∧ s'.reacquire = s.reacquire ∧ s'.refHist = s.refHist ∧
      (s'.backend = (K.update s.backend frame.image).2 ∨
        ∃ box, s'.backend = K.init (K.update s.backend frame.image).2 frame.image box) := by
  unfold update judge at h
  generalize K.update s.backend frame.image = p at h ⊢
  obtain ⟨r, b⟩ := p
  simp only at h
  cases hverdict : s.classify r.score with
  | tracking =>
    simp only [hverdict] at h
    split_ifs at h
    · obtain ⟨rfl, rfl⟩ := Prod.mk.inj (Option.some.inj h)
      exact ⟨rfl, rfl, rfl, Or.inl rfl⟩
    · obtain ⟨rfl, rfl⟩ := Prod.mk.inj (Option.some.inj h)
      exact ⟨rfl, rfl, rfl, Or.inl rfl⟩
    · have hkeeps := reacquireStep_keeps ops h
      exact hkeeps
  | unstable =>
    simp only [hverdict] at h
    obtain ⟨rfl, rfl⟩ := Prod.mk.inj (Option.some.inj h)
    exact ⟨rfl, rfl, rfl, Or.inl rfl⟩
  | lost =>
    simp only [hverdict] at h
    have hkeeps := reacquireStep_keeps ops h
    exact hkeeps

/-- With a nonzero cadence every run goes through. -/
theorem run_isSome {s : SotTracker K} (hrq : ∀ rc, s.reacquire = some rc → rc.detectEvery ≠ 0)
    (calls : List (SotOp R)) : (s.run ops calls).isSome = true := by
  induction calls generalizing s with
  | nil => rfl
  | cons op calls ih =>
    cases op with
    | init frame target =>
      obtain ⟨p, hp⟩ := Option.isSome_iff_exists.mp (ih (s := s.init ops frame target) hrq)
      exact Option.isSome_iff_exists.mpr
        ⟨_, Trace.run_cons_eq_some.mpr ⟨_, _, p.1, rfl, hp, rfl⟩⟩
    | update frame =>
      obtain ⟨⟨rep, s'⟩, hup⟩ := Option.isSome_iff_exists.mp (update_isSome ops hrq frame)
      have hrq' := (update_keeps ops hup).2.1
      obtain ⟨p, hp⟩ := Option.isSome_iff_exists.mp (ih (by rw [hrq']; exact hrq))
      have hstep : step ops s (.update frame) = some (.reported rep, s') := by rw [step, hup]; rfl
      exact Option.isSome_iff_exists.mpr
        ⟨_, Trace.run_cons_eq_some.mpr ⟨_, _, p.1, hstep, hp, rfl⟩⟩

/-- What `init` establishes and every update preserves, for history and state, holds after every
run that begins with `init`.

**Proof sketch.** By induction on the calls.  Before the first event the state is the given one,
so an `init` there has its configuration; afterwards every call keeps it, and the outcome of an
update is one of the five since the streak is not negative. -/
theorem run_invariant {s₀ s' : SotTracker K} (hP : 1 ≤ s₀.cfg.lostPatience)
    {P : List (SotEvent R) → SotTracker K → Prop}
    (hinit : ∀ (evs : List (SotEvent R)) (s : SotTracker K) (frame : Frame R) (target : BBox R),
      s.cfg = s₀.cfg → P (evs ++ [.started target]) (s.init ops frame target))
    (hupdate : ∀ (evs : List (SotEvent R)) (s : SotTracker K) (rep : SotReport R)
      (s' : SotTracker K), s.cfg = s₀.cfg → s.reacquire = s₀.reacquire → P evs s →
      Outcome s rep s' → P (evs ++ [.reported rep]) s')
    {calls : List (SotOp R)} {evs : List (SotEvent R)}
    (h : s₀.run ops calls = some (evs, s')) (hst : Started evs) :
    s'.cfg = s₀.cfg ∧ s'.reacquire = s₀.reacquire ∧ 0 ≤ s'.lowStreak ∧ P evs s' := by
  have hall := Trace.run_induction (P := fun evs s => (evs = [] → s = s₀) ∧ (Started evs →
    s.cfg = s₀.cfg ∧ s.reacquire = s₀.reacquire ∧ 0 ≤ s.lowStreak ∧ P evs s))
    ⟨fun _ => rfl, fun hst => ?_⟩ ?_ h
  · exact hall.2 hst
  · obtain ⟨target, es, heq⟩ := hst
    exact absurd heq (by simp)
  · intro evs s op e s₂ hinv hstep
    refine ⟨fun hnil => absurd hnil (by simp), fun hst => ?_⟩
    cases op with
    | init frame target =>
      obtain ⟨rfl, rfl⟩ := Prod.mk.inj (Option.some.inj hstep)
      have hkeep : s.cfg = s₀.cfg ∧ s.reacquire = s₀.reacquire := by
        by_cases hnil : evs = []
        · rw [hinv.1 hnil]
          exact ⟨rfl, rfl⟩
        · have hold := hinv.2 (started_of_append hnil hst)
          exact ⟨hold.1, hold.2.1⟩
      exact ⟨hkeep.1, hkeep.2, le_rfl, hinit evs s frame target hkeep.1⟩
    | update frame =>
      obtain ⟨⟨rep, s₃⟩, hup, heq⟩ := Option.map_eq_some_iff.mp hstep
      obtain ⟨rfl, rfl⟩ := Prod.mk.inj heq
      have hnil : evs ≠ [] := by
        intro hnil
        obtain ⟨target, es, heq⟩ := hst
        rw [hnil] at heq
        exact absurd (List.cons.inj heq).1 (by simp)
      obtain ⟨hcfg, hrq, h0, hP'⟩ := hinv.2 (started_of_append hnil hst)
      have hout := update_outcome ops h0 hup
      obtain ⟨hcfg', hrq', h0'⟩ := hout.keeps (hcfg ▸ hP) h0
      exact ⟨hcfg'.trans hcfg, hrq'.trans hrq, h0', hupdate evs s rep s₃ hcfg hrq hP' hout⟩

/-- The state before a frame of a run satisfies what all states of the run satisfy, and the frame's
report is the outcome of an update from it.

**Proof sketch.** Split the run at the frame: the invariant holds after the calls before it, and
the call at it is an update, since it reports. -/
theorem run_event {s₀ s' : SotTracker K} (hP : 1 ≤ s₀.cfg.lostPatience)
    {P : List (SotEvent R) → SotTracker K → Prop}
    (hinit : ∀ (evs : List (SotEvent R)) (s : SotTracker K) (frame : Frame R) (target : BBox R),
      s.cfg = s₀.cfg → P (evs ++ [.started target]) (s.init ops frame target))
    (hupdate : ∀ (evs : List (SotEvent R)) (s : SotTracker K) (rep : SotReport R)
      (s' : SotTracker K), s.cfg = s₀.cfg → s.reacquire = s₀.reacquire → P evs s →
      Outcome s rep s' → P (evs ++ [.reported rep]) s')
    {calls : List (SotOp R)} {pre post : List (SotEvent R)} {rep : SotReport R}
    (h : s₀.run ops calls = some (pre ++ .reported rep :: post, s')) (hst : Started pre) :
    ∃ s₁ s₂, s₁.cfg = s₀.cfg ∧ s₁.reacquire = s₀.reacquire ∧ 0 ≤ s₁.lowStreak ∧ P pre s₁ ∧
      Outcome s₁ rep s₂ := by
  obtain ⟨calls₁, op, s₁, s₂, hpre, hstep⟩ := Trace.run_split h
  obtain ⟨hcfg, hrq, h0, hP'⟩ := run_invariant ops hP hinit hupdate hpre hst
  cases op with
  | init frame target =>
    exact absurd (Prod.mk.inj (Option.some.inj hstep)).1 (by simp)
  | update frame =>
    obtain ⟨⟨rep', s₃⟩, hup, heq⟩ := Option.map_eq_some_iff.mp hstep
    obtain rfl : rep' = rep := SotEvent.reported.inj (Prod.mk.inj heq).1
    exact ⟨s₁, s₃, hcfg, hrq, h0, hP', update_outcome ops h0 hup⟩

end SotTracker

end Ctrk
