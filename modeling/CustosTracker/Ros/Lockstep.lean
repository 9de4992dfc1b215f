import CustosTracker.Ros.FramesPlayer

set_option relaxedAutoImplicit false
set_option autoImplicit false

/-!
# Lockstep playback

In lockstep mode a frame is published when an output arrives or a timeout fires.  An output does
not say which frame it belongs to, so the late output of a frame whose timeout has fired counts as
the answer to the frame after it.

## Main definitions

* `Ctrk.Lockstep` — every frame is published after the answer to the frame before it.
* `Ctrk.Playback.NoLateOutput` — no output comes late while a frame is left to publish.

## Main results

* `Ctrk.Playback.step_cases` — what one call does in lockstep mode.
* `Ctrk.Playback.playbackInv_run` — the invariant of a playback.
* `Ctrk.Playback.lockstep_iff` — a run is in lockstep exactly when no output comes late.
* `Ctrk.Playback.lockstep_breaks` — a run that is not.
-/

namespace Ctrk

variable {C : Capture}

/-- After the first frame, every frame is published only after the output for the frame before it
was delivered or the timeout armed for that frame has fired. -/
def Lockstep (evs : List PlaybackEvent) : Prop :=
  ∀ (pre : List PlaybackEvent) (e : PlaybackEvent) (post : List PlaybackEvent) (k : ℕ),
    evs = pre ++ e :: post → 1 ≤ k → e.published = some (k + 1) →
      ∃ e' ∈ pre ++ [e], e'.delivered = some k ∨ e'.timedOut = some k

/-! ## The player -/

namespace FramesPlayer

/-- What the player does when it is asked for the next frame: it publishes one and arms a timeout
for it, or it is done. -/
inductive Advance (n : FramesPlayer C) : Option ℕ × FramesPlayer C → Prop
  | published (n' : FramesPlayer C) (hnext : n.hasNext = true) (hparams : n'.params = n.params)
      (hrate : n'.rateTimer = n.rateTimer) (hpub : n'.published = n.published + 1)
      (htimer : n'.timeoutTimer = some n'.published) : Advance n (some (n.published + 1), n')
  | finished (n' : FramesPlayer C) (hnext : n.hasNext = false) (hparams : n'.params = n.params)
      (hrate : n'.rateTimer = true → n.rateTimer = true) (hpub : n'.published = n.published)
      (htimer : ∀ k, n'.timeoutTimer = some k → k = n.published ∨ n.timeoutTimer = some k)
      (hdone : n'.done = true) : Advance n (none, n')

theorem publishNext_of_hasNext {n : FramesPlayer C} (h : n.hasNext = true) :
    n.publishNext = (some (n.published + 1), { n with
      cap := n.readFrame.2
      timeoutTimer := none
      published := n.published + 1 }) := by
  obtain ⟨params, cap, wait, rate, timer, done, published⟩ := n
  obtain ⟨⟨hdone, hlimit⟩, hread⟩ := by simpa [hasNext] using h
  subst hdone
  simp only [publishNext, Bool.false_eq_true, if_false]
  split_ifs with hlimit' hread'
  · exact absurd (hlimit.symm.trans hlimit') Bool.false_ne_true
  · exact absurd (hread.symm.trans ((Bool.not_eq_true' _).mp hread'))
      (fun heq => Bool.noConfusion heq)
  · rfl

/-- Without a frame left the player is done. -/
theorem publishNext_of_not_hasNext {n : FramesPlayer C} (h : n.hasNext = false) :
    ∃ cap rateTimer, (rateTimer = true → n.rateTimer = true) ∧
      n.publishNext = (none, { n with
        cap := cap
        rateTimer := rateTimer
        timeoutTimer := none
        done := true }) := by
  obtain ⟨params, cap, wait, rate, timer, done, published⟩ := n
  cases done with
  | true => exact ⟨cap, rate, id, rfl⟩
  | false =>
    simp only [publishNext, finish, Bool.false_eq_true, if_false]
    split_ifs with hlimit hread
    · exact ⟨cap, false, fun hrate => Bool.noConfusion hrate, rfl⟩
    · exact ⟨_, false, fun hrate => Bool.noConfusion hrate, rfl⟩
    · simp only [hasNext, limitReached, readFrame] at h hlimit hread
      simp_all

theorem not_done_of_hasNext {n : FramesPlayer C} (h : n.hasNext = true) : n.done = false := by
  cases hdone : n.done with
  | false => rfl
  | true => simp [hasNext, hdone] at h

theorem onAck_advance (n : FramesPlayer C) :
    Advance n n.onAck ∧ n.onAck.2.waitTimer = n.waitTimer := by
  cases hnext : n.hasNext with
  | true =>
    simp only [onAck, not_done_of_hasNext hnext, publishNext_of_hasNext hnext]
    exact ⟨.published _ hnext rfl rfl rfl rfl, rfl⟩
  | false =>
    cases hdone : n.done with
    | true =>
      simp only [onAck, hdone]
      exact ⟨.finished _ hnext rfl id rfl (fun k hk => Or.inr hk) hdone, rfl⟩
    | false =>
      obtain ⟨cap, rate, hrate, heq⟩ := publishNext_of_not_hasNext hnext
      simp only [onAck, hdone, heq]
      exact ⟨.finished _ hnext rfl hrate rfl (fun k hk => by cases hk) rfl, rfl⟩

theorem onWaitTick_advance {n : FramesPlayer C} (hmode : n.params.mode = .lockstep) :
    Advance n (n.onWaitTick true) ∧ (n.onWaitTick true).2.waitTimer = false := by
  have hsame : ({ n with waitTimer := false } : FramesPlayer C).hasNext = n.hasNext := rfl
  cases hnext : n.hasNext with
  | true =>
    rw [hnext] at hsame
    simp only [onWaitTick, publishNext_of_hasNext hsame, hmode]
    exact ⟨.published _ hnext rfl rfl rfl rfl, rfl⟩
  | false =>
    rw [hnext] at hsame
    obtain ⟨cap, rate, hrate, heq⟩ := publishNext_of_not_hasNext hsame
    simp only [onWaitTick, heq, hmode]
    refine ⟨.finished _ hnext rfl hrate rfl ?_ rfl, rfl⟩
    intro k hk
    exact Or.inl (Option.some.inj hk).symm

end FramesPlayer

namespace Playback

/-! ## One call -/

/-- What one call of a playback in lockstep mode does. -/
inductive PlaybackStep (s : Playback C) : PlaybackCall → PlaybackEvent → Playback C → Prop
  /-- The tracker is not there yet. -/
  | waited : PlaybackStep s (.waitTick false) {} s
  /-- The first frame. -/
  | started (r : Option ℕ × FramesPlayer C) (hwait : s.player.waitTimer = true)
      (hadvance : s.player.Advance r) (hwait' : r.2.waitTimer = false) :
      PlaybackStep s (.waitTick true) { published := r.1 } (s.receive r)
  /-- An output. -/
  | output (k : ℕ) (rest : List ℕ) (r : Option ℕ × FramesPlayer C)
      (hflight : s.inFlight = k :: rest) (hadvance : s.player.Advance r)
      (hwait' : r.2.waitTimer = s.player.waitTimer) :
      PlaybackStep s .output { delivered := some k, published := r.1 }
        (receive { s with inFlight := rest } r)
  /-- A timeout. -/
  | timeout (k : ℕ) (r : Option ℕ × FramesPlayer C) (htimer : s.player.timeoutTimer = some k)
      (hadvance : s.player.Advance r) (hwait' : r.2.waitTimer = s.player.waitTimer) :
      PlaybackStep s .timeout { timedOut := some k, published := r.1 } (s.receive r)

/-- Every call in lockstep mode is one of these steps. -/
theorem step_cases {s s' : Playback C} {c : PlaybackCall} {e : PlaybackEvent}
    (hmode : s.player.params.mode = .lockstep) (hrate : s.player.rateTimer = false)
    (h : s.step c = some (e, s')) : PlaybackStep s c e s' := by
  obtain ⟨player, flight⟩ := s
  cases c with
  | waitTick ready =>
    simp only [step] at h
    split_ifs at h with hwait
    obtain ⟨rfl, rfl⟩ := Prod.mk.inj (Option.some.inj h)
    cases ready with
    | false =>
      have hsame : receive ⟨player, flight⟩ (player.onWaitTick false) = ⟨player, flight⟩ := by
        simp [receive, FramesPlayer.onWaitTick]
      rw [hsame]
      exact .waited
    | true =>
      obtain ⟨hadvance, hwait'⟩ := FramesPlayer.onWaitTick_advance hmode
      exact .started _ hwait hadvance hwait'
  | rateTick =>
    simp only [step] at h
    rw [hrate] at h
    cases h
  | output =>
    cases flight with
    | nil => cases h
    | cons k rest =>
      simp only [step] at h
      rw [if_pos hmode] at h
      obtain ⟨rfl, rfl⟩ := Prod.mk.inj (Option.some.inj h)
      obtain ⟨hadvance, hwait'⟩ := player.onAck_advance
      exact .output k rest _ rfl hadvance hwait'
  | timeout =>
    cases htimer : player.timeoutTimer with
    | none =>
      simp only [step, htimer] at h
      cases h
    | some k =>
      simp only [step, htimer] at h
      obtain ⟨rfl, rfl⟩ := Prod.mk.inj (Option.some.inj h)
      obtain ⟨hadvance, hwait'⟩ := player.onAck_advance
      exact .timeout k _ htimer hadvance hwait'

/-! ## The invariant -/

/-- The invariant of a playback in lockstep mode. -/
structure PlaybackInv (evs : List PlaybackEvent) (s : Playback C) : Prop where
  mode : s.player.params.mode = .lockstep
  rate : s.player.rateTimer = false
  waiting : s.player.waitTimer = true → s.player.published = 0 ∧ s.player.timeoutTimer = none
  armed : ∀ k, s.player.timeoutTimer = some k → k = s.player.published
  sorted : s.inFlight.Pairwise (· < ·)
  received : ∀ k ∈ s.inFlight, 1 ≤ k ∧ k ≤ s.player.published
  delivered : ∀ e ∈ evs, ∀ j, e.delivered = some j →
    j ≤ s.player.published ∧ ∀ k ∈ s.inFlight, j < k
  timedOut : ∀ e ∈ evs, ∀ j, e.timedOut = some j →
    j < s.player.published ∨ s.player.done = true

theorem playbackInv_new {params : PlayerParams} (hmode : params.mode = .lockstep) (cap : C.State) :
    PlaybackInv [] (new params cap) where
  mode := hmode
  rate := rfl
  waiting := fun _ => ⟨rfl, rfl⟩
  armed := fun k hk => by cases hk
  sorted := List.Pairwise.nil
  received := fun k hk => absurd hk List.not_mem_nil
  delivered := fun e he => absurd he List.not_mem_nil
  timedOut := fun e he => absurd he List.not_mem_nil

/-- A playback that waits has nothing in flight. -/
theorem PlaybackInv.not_waiting {evs : List PlaybackEvent} {s : Playback C}
    (hinv : PlaybackInv evs s) {k : ℕ} (hk : k ∈ s.inFlight ∨ s.player.timeoutTimer = some k) :
    s.player.waitTimer = false := by
  cases hwait : s.player.waitTimer with
  | false => rfl
  | true =>
    obtain ⟨hzero, hnone⟩ := hinv.waiting hwait
    rcases hk with hflight | htimer
    · have := hinv.received k hflight
      omega
    · rw [hnone] at htimer
      cases htimer

/-- When the player advances, the invariant is kept: an event only has to deliver a frame before
those in flight, or to time out the last frame published.

**Proof sketch.** By cases on what the advance does.  A publication raises the number of the last
frame by one and puts it at the end of those in flight; the end of the sequence leaves both as
they are. -/
theorem PlaybackInv.advance {evs : List PlaybackEvent} {s : Playback C} (hinv : PlaybackInv evs s)
    {r : Option ℕ × FramesPlayer C} (hadvance : s.player.Advance r) (hwait : r.2.waitTimer = false)
    {e : PlaybackEvent}
    (hdelivered : ∀ j, e.delivered = some j → j ≤ s.player.published ∧ ∀ k ∈ s.inFlight, j < k)
    (htimedOut : ∀ j, e.timedOut = some j → j = s.player.published) :
    PlaybackInv (evs ++ [e]) (s.receive r) := by
  have hold : ∀ e' ∈ evs ++ [e], ∀ j, e'.delivered = some j →
      j ≤ s.player.published ∧ ∀ k ∈ s.inFlight, j < k := by
    intro e' he' j hj
    rcases List.mem_append.mp he' with hmem | hnew
    · exact hinv.delivered e' hmem j hj
    · rw [List.mem_singleton.mp hnew] at hj
      exact hdelivered j hj
  have htime : ∀ e' ∈ evs ++ [e], ∀ j, e'.timedOut = some j →
      j ≤ s.player.published ∨ s.player.done = true := by
    intro e' he' j hj
    rcases List.mem_append.mp he' with hmem | hnew
    · exact (hinv.timedOut e' hmem j hj).imp_left le_of_lt
    · rw [List.mem_singleton.mp hnew] at hj
      exact Or.inl (htimedOut j hj).le
  cases hadvance with
  | published n' hnext hparams hrate hpub htimer =>
    refine ⟨?_, ?_, ?_, ?_, ?_, ?_, ?_, ?_⟩
    · exact (congrArg PlayerParams.mode hparams).trans hinv.mode
    · exact hrate.trans hinv.rate
    · intro hwaits
      exact absurd (hwaits.symm.trans hwait) (by simp)
    · intro k hk
      exact (Option.some.inj (htimer.symm.trans hk)).symm
    · refine List.pairwise_append.mpr ⟨hinv.sorted, by simp, ?_⟩
      intro k hk k' hk'
      have hle := (hinv.received k hk).2
      simp only [Option.toList_some, List.mem_singleton] at hk'
      omega
    · intro k hk
      change 1 ≤ k ∧ k ≤ n'.published
      rcases List.mem_append.mp hk with hmem | hnew
      · have := hinv.received k hmem
        omega
      · simp only [Option.toList_some, List.mem_singleton] at hnew
        omega
    · intro e' he' j hj
      obtain ⟨hle, hlt⟩ := hold e' he' j hj
      refine ⟨?_, fun k hk => ?_⟩
      · change j ≤ n'.published
        omega
      · rcases List.mem_append.mp hk with hmem | hnew
        · exact hlt k hmem
        · simp only [Option.toList_some, List.mem_singleton] at hnew
          omega
    · intro e' he' j hj
      have hnotdone := FramesPlayer.not_done_of_hasNext hnext
      have hle := (htime e' he' j hj).resolve_right (by simp [hnotdone])
      refine Or.inl ?_
      change j < n'.published
      omega
  | finished n' hnext hparams hrate hpub htimer hdone =>
    refine ⟨?_, ?_, ?_, ?_, ?_, ?_, ?_, ?_⟩
    · exact (congrArg PlayerParams.mode hparams).trans hinv.mode
    · change n'.rateTimer = false
      cases hset : n'.rateTimer with
      | false => rfl
      | true => exact (hrate hset).symm.trans hinv.rate
    · intro hwaits
      exact absurd (hwaits.symm.trans hwait) (by simp)
    · intro k hk
      change k = n'.published
      rcases htimer k hk with hlast | hkept
      · omega
      · have := hinv.armed k hkept
        omega
    · simpa [receive] using hinv.sorted
    · intro k hk
      change 1 ≤ k ∧ k ≤ n'.published
      have := hinv.received k (by simpa [receive] using hk)
      omega
    · intro e' he' j hj
      obtain ⟨hle, hlt⟩ := hold e' he' j hj
      refine ⟨?_, fun k hk => hlt k (by simpa [receive] using hk)⟩
      change j ≤ n'.published
      omega
    · exact fun e' he' j hj => Or.inr hdone

/-- Without the frame at the head the invariant holds, and that frame comes before the rest. -/
theorem PlaybackInv.pop {evs : List PlaybackEvent} {s : Playback C} (hinv : PlaybackInv evs s)
    {k : ℕ} {rest : List ℕ} (hflight : s.inFlight = k :: rest) :
    PlaybackInv evs { s with inFlight := rest } ∧ ∀ k' ∈ rest, k < k' := by
  obtain ⟨player, flight⟩ := s
  obtain rfl : flight = k :: rest := hflight
  obtain ⟨hmode, hrate, hwaiting, harmed, hsorted, hreceived, hdelivered, htimedOut⟩ := hinv
  obtain ⟨hhead, htail⟩ := List.pairwise_cons.mp hsorted
  refine ⟨⟨hmode, hrate, hwaiting, harmed, htail, ?_, ?_, htimedOut⟩, hhead⟩
  · intro k' hk'
    exact hreceived k' (List.mem_cons_of_mem k hk')
  · intro e he j hj
    obtain ⟨hle, hlt⟩ := hdelivered e he j hj
    exact ⟨hle, fun k' hk' => hlt k' (List.mem_cons_of_mem k hk')⟩

/-- **Every call keeps the invariant.**

**Proof sketch.** A tick that only waits changes nothing.  The other calls advance the player: an
output after it has taken the oldest frame off those in flight, and a timeout after its timer,
which stands for the last frame published. -/
theorem PlaybackInv.step {evs : List PlaybackEvent} {s s' : Playback C} {c : PlaybackCall}
    {e : PlaybackEvent} (hinv : PlaybackInv evs s) (h : PlaybackStep s c e s') :
    PlaybackInv (evs ++ [e]) s' := by
  cases h with
  | waited =>
    obtain ⟨hmode, hrate, hwaiting, harmed, hsorted, hreceived, hdelivered, htimedOut⟩ := hinv
    refine ⟨hmode, hrate, hwaiting, harmed, hsorted, hreceived, ?_, ?_⟩
    · intro e he j hj
      rcases List.mem_append.mp he with hmem | hnew
      · exact hdelivered e hmem j hj
      · rw [List.mem_singleton.mp hnew] at hj
        cases hj
    · intro e he j hj
      rcases List.mem_append.mp he with hmem | hnew
      · exact htimedOut e hmem j hj
      · rw [List.mem_singleton.mp hnew] at hj
        cases hj
  | started r hwait hadvance hwait' =>
    exact hinv.advance hadvance hwait' (fun j hj => by cases hj) (fun j hj => by cases hj)
  | output k rest r hflight hadvance hwait' =>
    have hmem : k ∈ s.inFlight := by rw [hflight]; exact List.mem_cons_self
    obtain ⟨hpop, hhead⟩ := hinv.pop hflight
    refine hpop.advance hadvance (hwait'.trans (hinv.not_waiting (Or.inl hmem))) ?_
      (fun j hj => by cases hj)
    intro j hj
    obtain rfl := Option.some.inj hj
    exact ⟨(hinv.received k hmem).2, hhead⟩
  | timeout k r htimer hadvance hwait' =>
    refine hinv.advance hadvance (hwait'.trans (hinv.not_waiting (Or.inr htimer)))
      (fun j hj => by cases hj) ?_
    intro j hj
    obtain rfl := Option.some.inj hj
    exact hinv.armed k htimer

section Run

variable {params : PlayerParams} (hmode : params.mode = .lockstep) (cap : C.State)

include hmode

/-- **The invariant holds after every run.** -/
theorem playbackInv_run {calls : List PlaybackCall} {evs : List PlaybackEvent} {s : Playback C}
    (h : (new params cap).run calls = some (evs, s)) : PlaybackInv evs s := by
  refine Trace.run_induction (P := PlaybackInv) (playbackInv_new hmode cap) ?_ h
  intro evs s₁ c e s₂ hinv hstep
  exact hinv.step (step_cases hinv.mode hinv.rate hstep)

end Run

/-! ## Late outputs -/

/-- No output of a frame whose timeout has fired is delivered while the player still has a frame
to publish. -/
def NoLateOutput (params : PlayerParams) (cap : C.State) (calls : List PlaybackCall) : Prop :=
  ∀ (calls₁ calls₂ : List PlaybackCall) (evs : List PlaybackEvent) (s : Playback C) (k : ℕ)
      (rest : List ℕ), calls = calls₁ ++ .output :: calls₂ →
    (new params cap).run calls₁ = some (evs, s) → s.inFlight = k :: rest →
    (∃ e ∈ evs, e.timedOut = some k) → s.player.hasNext = false

/-- The calls before some others have no late output if all of them have none. -/
theorem NoLateOutput.of_append {params : PlayerParams} {cap : C.State}
    {calls rest : List PlaybackCall} (h : NoLateOutput params cap (calls ++ rest)) :
    NoLateOutput params cap calls := by
  intro calls₁ calls₂ evs s k flight heq
  exact h calls₁ (calls₂ ++ rest) evs s k flight (by rw [heq]; simp)

/-- The frames in flight before the last one published have timed out. -/
def Overtaken (evs : List PlaybackEvent) (s : Playback C) : Prop :=
  ∀ k ∈ s.inFlight, k < s.player.published → ∃ e ∈ evs, e.timedOut = some k

/-- A frame in flight that has not timed out is the last one published. -/
theorem Overtaken.eq_published {evs : List PlaybackEvent} {s : Playback C}
    (hover : Overtaken evs s) (hinv : PlaybackInv evs s) {k : ℕ} (hk : k ∈ s.inFlight)
    (hnot : ¬∃ e ∈ evs, e.timedOut = some k) : k = s.player.published := by
  by_contra hne
  have hle := (hinv.received k hk).2
  exact hnot (hover k hk (by omega))

/-- A call keeps what is overtaken, unless it delivers a late output.

**Proof sketch.** A frame in flight behind the last one published was behind it before the call,
or was the last one then.  The latter happens with a timeout only, which is then on the record,
since an output that is not late is that of the last frame. -/
theorem Overtaken.step {evs : List PlaybackEvent} {s s' : Playback C} {c : PlaybackCall}
    {e : PlaybackEvent} (hover : Overtaken evs s) (hinv : PlaybackInv evs s)
    (h : PlaybackStep s c e s')
    (hlate : c = .output → ∀ k rest, s.inFlight = k :: rest →
      (∃ e ∈ evs, e.timedOut = some k) → s.player.hasNext = false) :
    Overtaken (evs ++ [e]) s' := by
  have hkeep : ∀ k ∈ s.inFlight, k < s.player.published →
      ∃ e' ∈ evs ++ [e], e'.timedOut = some k := by
    intro k hk hlt
    obtain ⟨e', he', htime⟩ := hover k hk hlt
    exact ⟨e', List.mem_append_left _ he', htime⟩
  cases h with
  | waited => exact hkeep
  | started r hwait hadvance hwait' =>
    -- nothing was published, so nothing is in flight but the first frame
    have hzero := (hinv.waiting hwait).1
    have hempty : ∀ k, k ∉ s.inFlight := by
      intro k hk
      have := hinv.received k hk
      omega
    intro k hk hlt
    cases hadvance with
    | published n' hnext hparams hrate hpub htimer =>
      change k < n'.published at hlt
      rcases List.mem_append.mp hk with hmem | hnew
      · exact absurd hmem (hempty k)
      · simp only [Option.toList_some, List.mem_singleton] at hnew
        omega
    | finished n' hnext hparams hrate hpub htimer hdone =>
      exact absurd (by simpa [receive] using hk) (hempty k)
  | output k rest r hflight hadvance hwait' =>
    have hmem : k ∈ s.inFlight := by rw [hflight]; exact List.mem_cons_self
    obtain ⟨-, hhead⟩ := hinv.pop hflight
    intro j hj hlt
    cases hadvance with
    | published n' hnext hparams hrate hpub htimer =>
      -- the output is not late, so it is that of the last frame, and nothing else is in flight
      change j < n'.published at hlt
      have hlast := hover.eq_published hinv hmem fun htime => by
        rw [hlate rfl k rest hflight htime] at hnext
        cases hnext
      rcases List.mem_append.mp hj with hrest | hnew
      · have hlt' := hhead j hrest
        have hle := (hinv.received j (by rw [hflight]; exact List.mem_cons_of_mem k hrest)).2
        omega
      · simp only [Option.toList_some, List.mem_singleton] at hnew
        omega
    | finished n' hnext hparams hrate hpub htimer hdone =>
      change j < n'.published at hlt
      have hrest : j ∈ rest := by simpa [receive] using hj
      exact hkeep j (by rw [hflight]; exact List.mem_cons_of_mem k hrest) (by omega)
  | timeout k r htimer hadvance hwait' =>
    obtain rfl := hinv.armed k htimer
    intro j hj hlt
    cases hadvance with
    | published n' hnext hparams hrate hpub htimer' =>
      change j < n'.published at hlt
      rcases List.mem_append.mp hj with hmem | hnew
      · rcases (hinv.received j hmem).2.lt_or_eq with hbefore | hlast
        · exact hkeep j hmem hbefore
        · exact ⟨_, List.mem_append_right _ (List.mem_singleton_self _), congrArg some hlast.symm⟩
      · simp only [Option.toList_some, List.mem_singleton] at hnew
        omega
    | finished n' hnext hparams hrate hpub htimer' hdone =>
      change j < n'.published at hlt
      exact hkeep j (by simpa [receive] using hj) (by omega)

section Run

variable {params : PlayerParams} (hmode : params.mode = .lockstep) (cap : C.State)

include hmode

/-- Without late outputs, all frames that are overtaken have timed out.

**Proof sketch.** Induction on the calls from the end: a prefix of a sequence without late outputs
has none either, and the last call is no late output. -/
theorem overtaken_run {calls : List PlaybackCall} (hnolate : NoLateOutput params cap calls) :
    ∀ {evs : List PlaybackEvent} {s : Playback C}, (new params cap).run calls = some (evs, s) →
      Overtaken evs s := by
  induction calls using List.reverseRecOn with
  | nil =>
    intro evs s h
    obtain ⟨rfl, rfl⟩ := Prod.mk.inj (Option.some.inj h)
    exact fun k hk => absurd hk List.not_mem_nil
  | append_singleton calls c ih =>
    intro evs s h
    obtain ⟨pre, e, s₁, hpre, hstep, rfl⟩ := Trace.run_append_singleton.mp h
    have hinv := playbackInv_run hmode cap hpre
    refine (ih hnolate.of_append hpre).step hinv (step_cases hinv.mode hinv.rate hstep) ?_
    intro houtput k rest
    exact hnolate calls [] pre s₁ k rest (by rw [houtput]) hpre

/-- Without late outputs a run is in lockstep.

**Proof sketch.** A frame after the first is published on an output or on a timeout.  An output
that is not late is that of the last frame published, and a timeout is always of the last frame. -/
theorem lockstep_of_noLateOutput {calls : List PlaybackCall} {evs : List PlaybackEvent}
    {s : Playback C} (h : (new params cap).run calls = some (evs, s))
    (hnolate : NoLateOutput params cap calls) : Lockstep evs := by
  intro pre e post k hsplit hk hpub
  rw [hsplit] at h
  obtain ⟨calls₁, c, calls₂, s₁, s₂, hcalls, hpre, hstep⟩ := Trace.run_split_ops h
  have hinv := playbackInv_run hmode cap hpre
  have hnolate' : NoLateOutput params cap calls₁ := (hcalls ▸ hnolate).of_append
  have hnew : e ∈ pre ++ [e] := List.mem_append_right _ (List.mem_singleton_self e)
  cases step_cases hinv.mode hinv.rate hstep with
  | waited => cases hpub
  | started r hwait hadvance hwait' =>
    have hzero := (hinv.waiting hwait).1
    cases hadvance with
    | published n' hnext hparams hrate hnum htimer =>
      have := Option.some.inj hpub
      omega
    | finished n' => cases hpub
  | output j rest r hflight hadvance hwait' =>
    cases hadvance with
    | published n' hnext hparams hrate hnum htimer =>
      have hmem : j ∈ s₁.inFlight := by rw [hflight]; exact List.mem_cons_self
      have hlast := (overtaken_run hmode cap hnolate' hpre).eq_published hinv hmem fun htime => by
        rw [hnolate calls₁ calls₂ pre s₁ j rest hcalls hpre hflight htime] at hnext
        cases hnext
      have hnum := Nat.succ.inj (Option.some.inj hpub)
      exact ⟨_, hnew, Or.inl (congrArg some (hlast.trans hnum))⟩
    | finished n' => cases hpub
  | timeout j r htimer hadvance hwait' =>
    cases hadvance with
    | published n' hnext hparams hrate hnum htimer' =>
      have hnum := Nat.succ.inj (Option.some.inj hpub)
      exact ⟨_, hnew, Or.inr (congrArg some ((hinv.armed j htimer).trans hnum))⟩
    | finished n' => cases hpub

/-- A late output breaks the lockstep: it publishes the frame after one that was neither answered
nor timed out.

**Proof sketch.** Suppose a late output comes with a frame left.  It publishes the next frame, so
in lockstep the last frame has been answered or timed out before.  But the overtaken frame is
older than the last one and still in flight, so the last one is neither delivered nor timed out. -/
theorem noLateOutput_of_lockstep {calls : List PlaybackCall} {evs : List PlaybackEvent}
    {s : Playback C} (h : (new params cap).run calls = some (evs, s)) (hlock : Lockstep evs) :
    NoLateOutput params cap calls := by
  intro calls₁ calls₂ evs₁ s₁ k rest hcalls hpre hflight htime
  subst hcalls
  obtain ⟨e, s₂, post, hstep, hevs⟩ := Trace.run_at h hpre
  have hinv := playbackInv_run hmode cap hpre
  have hmem : k ∈ s₁.inFlight := by rw [hflight]; exact List.mem_cons_self
  by_contra hnext
  rw [Bool.not_eq_false] at hnext
  have hnotdone : s₁.player.done ≠ true := by simp [FramesPlayer.not_done_of_hasNext hnext]
  obtain ⟨e', he', htime⟩ := htime
  have hlt := (hinv.timedOut e' he' k htime).resolve_right hnotdone
  cases step_cases hinv.mode hinv.rate hstep with
  | output j rest' r hflight' hadvance hwait' =>
    obtain ⟨rfl, rfl⟩ := List.cons.inj (hflight.symm.trans hflight')
    cases hadvance with
    | finished n' hnext' =>
      rw [hnext] at hnext'
      cases hnext'
    | published n' hnext' hparams hrate hnum htimer =>
      obtain ⟨a, ha, hanswer⟩ := hlock evs₁ _ post s₁.player.published hevs (by omega) rfl
      rcases List.mem_append.mp ha with hold | hnew
      · rcases hanswer with hdel | htim
        · have := (hinv.delivered a hold _ hdel).2 k hmem
          omega
        · have := (hinv.timedOut a hold _ htim).resolve_right hnotdone
          omega
      · rw [List.mem_singleton.mp hnew] at hanswer
        rcases hanswer with hdel | htim
        · have := Option.some.inj hdel
          omega
        · cases htim

/-- **When playback is in lockstep.** Consider any run of a player in lockstep mode with a tracker
that answers every frame, under any order of timer ticks, outputs and timeouts.  Every frame is
published after the answer to the frame before it, exactly when no output of a frame whose timeout
has fired is delivered while a frame is left to publish.

**Proof sketch.** Both directions look at one publication and at the call that made it
(`noLateOutput_of_lockstep`, `lockstep_of_noLateOutput`). -/
theorem lockstep_iff (calls : List PlaybackCall) (evs : List PlaybackEvent) (s : Playback C)
    (h : (new params cap).run calls = some (evs, s)) :
    Lockstep evs ↔ NoLateOutput params cap calls :=
  ⟨noLateOutput_of_lockstep hmode cap h, lockstep_of_noLateOutput hmode cap h⟩

end Run

/-- A capture that gives a number of frames. -/
def countdown : Capture where
  State := ℕ
  read n := (decide (0 < n), n - 1)
  reopen n := (false, n)

/-- The parameters of a lockstep playback. -/
def lockstepParams : PlayerParams := { mode := .lockstep }

/-- Three frames to play. -/
def threeFrames : countdown.State := (3 : ℕ)

theorem lockstep_iff_prompt :
    ∃ (evs : List PlaybackEvent) (s : Playback countdown),
      (new lockstepParams threeFrames).run [.waitTick true, .output, .output, .timeout] =
        some (evs, s) ∧
      (Lockstep evs ↔
        NoLateOutput lockstepParams threeFrames [.waitTick true, .output, .output, .timeout]) := by
  have hruns : ((new lockstepParams threeFrames).run
      [.waitTick true, .output, .output, .timeout]).isSome = true := by decide
  obtain ⟨⟨evs, s⟩, h⟩ := Option.isSome_iff_exists.mp hruns
  exact ⟨evs, s, h, lockstep_iff rfl threeFrames _ evs s h⟩

/-- **A late output breaks the lockstep.** The first frame times out, the second is published, and
the output of the first makes the player publish the third. -/
theorem lockstep_breaks :
    ¬∀ (C : Capture) (params : PlayerParams) (cap : C.State) (calls : List PlaybackCall)
        (evs : List PlaybackEvent) (s : Playback C), params.mode = .lockstep →
      (new params cap).run calls = some (evs, s) → Lockstep evs := by
  intro hlock
  have h := hlock countdown lockstepParams threeFrames [.waitTick true, .timeout, .output] _ _ rfl rfl
  obtain ⟨e', he', hanswer⟩ := h
    [{ published := some 1 }, { timedOut := some 1, published := some 2 }]
    { delivered := some 1, published := some 3 } [] 2 rfl (by decide) rfl
  simp only [List.cons_append, List.nil_append, List.mem_cons, List.not_mem_nil, or_false] at he'
  rcases he' with rfl | rfl | rfl <;> simp at hanswer

end Playback

end Ctrk
