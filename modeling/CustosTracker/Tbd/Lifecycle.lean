import CustosTracker.Tbd.Step

set_option relaxedAutoImplicit false
set_option autoImplicit false

/-!
# The life cycle of stored tracks

The invariant that ties together the state, the hit and miss counters and the age of every
stored track, over every run of a fresh tracker and for every association procedure.

## Main definitions

* `Ctrk.STrack.Valid` — the invariant of one stored track.
* `Ctrk.UpdatesSince` — the number of updates since a stored track was born or last matched.

## Main results

* `Ctrk.run_valid` — every stored track is valid.
* `Ctrk.updatesSince_iff` — the miss counter counts the updates since the last match or birth.
* `Ctrk.lifecycle` — the invariant together with the rules of disappearance.
-/

namespace Ctrk

open ByteTracker

variable {R : Type} [Scalar R]

/-- The invariant of a stored track: how its state bounds its counters. -/
structure STrack.Valid (cfg : AssocConfig R) (t : STrack R) : Prop where
  not_removed : t.state ≠ .removed
  tentative : t.state = .tentative →
    t.hits < cfg.nInit ∧ t.timeSinceUpdate ≤ cfg.tentativePatience
  confirmed : t.state = .confirmed → cfg.nInit ≤ t.hits ∧ t.timeSinceUpdate = 0
  lost : t.state = .lost →
    cfg.nInit ≤ t.hits ∧ 1 ≤ t.timeSinceUpdate ∧ t.timeSinceUpdate ≤ cfg.maxAge
  one_le_hits : 1 ≤ t.hits
  timeSinceUpdate_nonneg : 0 ≤ t.timeSinceUpdate
  counters_le_age : t.hits + t.timeSinceUpdate ≤ t.age

/-! ## One track through one call -/

section Track

variable {cfg : AssocConfig R} {t : STrack R}

/-- The life-cycle phase of a track: its state, with the bounds that go with it. -/
def STrack.Phase (cfg : AssocConfig R) (t : STrack R) : Prop :=
  (t.state = .tentative ∧ t.hits < cfg.nInit ∧ t.timeSinceUpdate ≤ cfg.tentativePatience) ∨
  (t.state = .confirmed ∧ cfg.nInit ≤ t.hits ∧ t.timeSinceUpdate = 0) ∨
  (t.state = .lost ∧ cfg.nInit ≤ t.hits ∧ 1 ≤ t.timeSinceUpdate ∧ t.timeSinceUpdate ≤ cfg.maxAge)

/-- A track in one of the three phases, with consistent counters, is valid. -/
theorem STrack.Phase.valid (h : t.Phase cfg) (hhits : 1 ≤ t.hits) (hmiss : 0 ≤ t.timeSinceUpdate)
    (hage : t.hits + t.timeSinceUpdate ≤ t.age) : t.Valid cfg := by
  rcases h with ⟨hs, h⟩ | ⟨hs, h⟩ | ⟨hs, h⟩ <;>
    refine ⟨by rw [hs]; decide, ?_, ?_, ?_, hhits, hmiss, hage⟩ <;> intro hc <;>
      first
        | exact h
        | exact absurd (hs.symm.trans hc) (by decide)

theorem STrack.Valid.phase (h : t.Valid cfg) : t.Phase cfg := by
  cases hs : t.state with
  | tentative => exact Or.inl ⟨hs, h.tentative hs⟩
  | confirmed => exact Or.inr (Or.inl ⟨hs, h.confirmed hs⟩)
  | lost => exact Or.inr (Or.inr ⟨hs, h.lost hs⟩)
  | removed => exact absurd hs h.not_removed

/-- Coasting only lets a track age. -/
theorem STrack.Valid.advance (h : t.Valid cfg) (dt : R) (warp : Affine23 R) :
    (advance dt warp t).Valid cfg := by
  refine STrack.Phase.valid h.phase h.one_le_hits h.timeSinceUpdate_nonneg ?_
  have hage := h.counters_le_age
  show t.hits + t.timeSinceUpdate ≤ t.age + 1
  omega

/-- A matched track is valid.

**Proof sketch.** The miss counter is zero. A track that stays tentative has not reached
`nInit`; one that is confirmed reached it now, or had reached it as a confirmed or lost track. -/
theorem STrack.Valid.markMatched (hp : 0 ≤ cfg.tentativePatience) (h : t.Valid cfg) (effDt dt : R)
    (warp : Affine23 R) (det : Detection R) :
    (markMatched cfg effDt (predictTrack dt warp t) det).Valid cfg := by
  have hst := markMatched_state cfg effDt (predictTrack dt warp t) det
  rw [predictTrack_state, predictTrack_hits] at hst
  have hhits := h.one_le_hits
  have hage := h.counters_le_age
  have hmiss := h.timeSinceUpdate_nonneg
  refine STrack.Phase.valid ?_ (show 1 ≤ t.hits + 1 by omega) (le_refl 0)
    (show t.hits + 1 + 0 ≤ t.age + 1 by omega)
  rcases h.phase with ⟨hs, hn, -⟩ | ⟨hs, hn, -⟩ | ⟨hs, hn, -⟩
  · by_cases hconf : cfg.nInit ≤ t.hits + 1
    · exact Or.inr (Or.inl ⟨by simp [hst, hs, hconf], hconf, rfl⟩)
    · exact Or.inl ⟨by simp [hst, hs, hconf], not_le.mp hconf, hp⟩
  · exact Or.inr (Or.inl ⟨by simp [hst, hs], show cfg.nInit ≤ t.hits + 1 by omega, rfl⟩)
  · exact Or.inr (Or.inl ⟨by simp [hst, hs], show cfg.nInit ≤ t.hits + 1 by omega, rfl⟩)

/-- An unmatched track within its limit is valid. -/
theorem STrack.Valid.missTrack (h : t.Valid cfg) (hle : t.timeSinceUpdate + 1 ≤ missLimit cfg t)
    (dt : R) (warp : Affine23 R) : (missTrack (predictTrack dt warp t)).Valid cfg := by
  have hst := missTrack_state (predictTrack dt warp t)
  rw [predictTrack_state] at hst
  have hage := h.counters_le_age
  have hmiss := h.timeSinceUpdate_nonneg
  rw [missLimit] at hle
  refine STrack.Phase.valid ?_ ?_ ?_ ?_ <;>
    simp only [STrack.Phase, hst, missTrack_hits, missTrack_age, missTrack_timeSinceUpdate,
      predictTrack_hits, predictTrack_age, predictTrack_timeSinceUpdate]
  · rcases h.phase with ⟨hs, hn, -⟩ | ⟨hs, hn, hzero⟩ | ⟨hs, hn, hlow, -⟩ <;>
      rw [hs] at hle ⊢
    · exact Or.inl ⟨by decide, hn, hle⟩
    · exact Or.inr (Or.inr ⟨by decide, hn, by omega, hle⟩)
    · exact Or.inr (Or.inr ⟨by decide, hn, by omega, hle⟩)
  · exact h.one_le_hits
  · omega
  · omega

/-- A newborn is valid. -/
theorem spawnTrack_valid (hp : 0 ≤ cfg.tentativePatience) (id : ℤ) (det : Detection R) :
    (spawnTrack cfg id det).Valid cfg := by
  refine STrack.Phase.valid ?_ (le_refl 1) (le_refl 0) (le_refl 1)
  by_cases hn : cfg.nInit ≤ 1
  · exact Or.inr (Or.inl ⟨if_pos hn, hn, rfl⟩)
  · exact Or.inl ⟨if_neg hn, not_le.mp hn, hp⟩

end Track

/-! ## All tracks over a run -/

/-- One call keeps every stored track valid.

**Proof sketch.** A coast advances every track.  After an update, a stored track is a survivor,
which was matched or missed within its limit, or it was just spawned. -/
theorem step_valid (s : ByteTracker R) (hp : 0 ≤ s.cfg.tentativePatience)
    (h : ∀ t ∈ s.tracks, t.Valid s.cfg) (c : Call R) :
    ∀ t ∈ (s.step c).2.tracks, t.Valid s.cfg := by
  intro u hu
  cases c with
  | coast dt warp =>
    obtain ⟨t, ht, rfl⟩ := List.mem_map.mp hu
    exact (h t ht).advance dt warp
  | update m dets dt warp =>
    rcases (s.mem_update_tracks m dets dt warp).mp hu with hold | hnew
    · obtain ⟨i, t, ht, hle, rfl⟩ := hold
      have hv := h t (List.mem_of_getElem? ht)
      cases hf : s.fate m dets dt warp i with
      | some j =>
        simp only [settled, settle, hf]
        exact hv.markMatched hp _ _ _ _
      | none =>
        simp only [settled, settle, hf]
        exact hv.missTrack (hle hf) _ _
    · obtain ⟨k, hk, rfl⟩ := List.mem_iff_getElem.mp hnew
      simp only [newborns, List.getElem_mapIdx]
      exact spawnTrack_valid hp _ _

/-- Every stored track is valid after every run. -/
theorem run_valid (cfg : AssocConfig R) (hp : 0 ≤ cfg.tentativePatience) (cs : List (Call R)) :
    ∀ t ∈ ((ByteTracker.new cfg).run cs).tracks, t.Valid cfg := by
  induction cs using List.reverseRecOn with
  | nil => exact fun t ht => absurd ht List.not_mem_nil
  | append_singleton cs c ih =>
    have hcfg : ((ByteTracker.new cfg).run cs).cfg = cfg := run_cfg _ cs
    rw [run_concat]
    have hstep := step_valid ((ByteTracker.new cfg).run cs) (by rwa [hcfg]) (by rwa [hcfg]) c
    rwa [hcfg] at hstep

/-! ## What the miss counter counts -/

/-- `UpdatesSince cfg cs k n`: after the calls `cs` of a fresh tracker, the track stored at index
`k` was born or last matched `n` updates ago.  Coasts are not counted. -/
inductive UpdatesSince (cfg : AssocConfig R) : List (Call R) → ℕ → ℕ → Prop
  | born {cs : List (Call R)} {c : Call R} {k : ℕ} :
      ((ByteTracker.new cfg).run cs).Spawns c k → UpdatesSince cfg (cs ++ [c]) k 0
  | hit {cs : List (Call R)} {c : Call R} {i k : ℕ} :
      ((ByteTracker.new cfg).run cs).Carries c i k →
      ((ByteTracker.new cfg).run cs).Matches c i → UpdatesSince cfg (cs ++ [c]) k 0
  | miss {cs : List (Call R)} {c : Call R} {i k n : ℕ} : UpdatesSince cfg cs i n →
      ((ByteTracker.new cfg).run cs).Carries c i k →
      ¬((ByteTracker.new cfg).run cs).Matches c i →
      UpdatesSince cfg (cs ++ [c]) k (n + c.isUpdate.toNat)

/-- How a call changes the miss counter of a track it carries. -/
theorem carried_timeSinceUpdate (s : ByteTracker R) (c : Call R) (i : ℕ) (t : STrack R) :
    (s.Matches c i → (s.carried c i t).timeSinceUpdate = 0) ∧
      (¬s.Matches c i →
        (s.carried c i t).timeSinceUpdate = t.timeSinceUpdate + c.isUpdate.toNat) := by
  cases c with
  | coast dt warp => exact ⟨fun h => h.elim, fun _ => (add_zero _).symm⟩
  | update m dets dt warp =>
    simp only [Matches, carried, settled, settle]
    cases s.fate m dets dt warp i with
    | some j => exact ⟨fun _ => rfl, fun h => absurd rfl h⟩
    | none =>
      refine ⟨fun h => absurd h (by decide), fun _ => ?_⟩
      exact missTrack_timeSinceUpdate _

/-- The miss counter follows the rules of `UpdatesSince`. -/
theorem UpdatesSince.timeSinceUpdate_eq {cfg : AssocConfig R} {cs : List (Call R)} {k n : ℕ}
    (h : UpdatesSince cfg cs k n) :
    ∃ t, ((ByteTracker.new cfg).run cs).tracks[k]? = some t ∧ t.timeSinceUpdate = n := by
  induction h with
  | @born cs c k hk =>
    obtain ⟨id, det, hu⟩ := getElem?_step_of_spawns _ hk
    exact ⟨_, (run_concat _ cs c).symm ▸ hu, rfl⟩
  | @hit cs c i k hc hm =>
    obtain ⟨t, ht⟩ := exists_of_carries _ hc
    have hu := getElem?_step_of_carries _ hc
    rw [ht, Option.map_some] at hu
    exact ⟨_, (run_concat _ cs c).symm ▸ hu, (carried_timeSinceUpdate _ c i t).1 hm⟩
  | @miss cs c i k n _ hc hm ih =>
    obtain ⟨t, ht, hn⟩ := ih
    have hu := getElem?_step_of_carries _ hc
    rw [ht, Option.map_some] at hu
    refine ⟨_, (run_concat _ cs c).symm ▸ hu, ?_⟩
    rw [(carried_timeSinceUpdate _ c i t).2 hm, hn, Nat.cast_add]

/-- Every stored track was born or matched some number of updates ago. -/
theorem exists_updatesSince (cfg : AssocConfig R) (cs : List (Call R)) {k : ℕ} {u : STrack R}
    (hu : ((ByteTracker.new cfg).run cs).tracks[k]? = some u) : ∃ n, UpdatesSince cfg cs k n := by
  induction cs using List.reverseRecOn generalizing k u with
  | nil => exact absurd hu (by simp [ByteTracker.new])
  | append_singleton cs c ih =>
    rw [run_concat] at hu
    rcases carries_or_spawns _ hu with ⟨i, t, hc, ht, -⟩ | hk
    · by_cases hm : ((ByteTracker.new cfg).run cs).Matches c i
      · exact ⟨0, .hit hc hm⟩
      · obtain ⟨n, hn⟩ := ih ht
        exact ⟨_, .miss hn hc hm⟩
    · exact ⟨0, .born hk⟩

/-- The miss counter of a stored track is the number of updates since it was born or last
matched. -/
theorem updatesSince_iff (cfg : AssocConfig R) (cs : List (Call R)) (k n : ℕ) :
    UpdatesSince cfg cs k n ↔
      ∃ t, ((ByteTracker.new cfg).run cs).tracks[k]? = some t ∧ t.timeSinceUpdate = n := by
  refine ⟨UpdatesSince.timeSinceUpdate_eq, fun h => ?_⟩
  obtain ⟨t, ht, hn⟩ := h
  obtain ⟨n', h'⟩ := exists_updatesSince cfg cs ht
  obtain ⟨t', ht', hn'⟩ := h'.timeSinceUpdate_eq
  rw [ht] at ht'
  obtain rfl := Option.some.inj ht'
  obtain rfl : n = n' := by omega
  exact h'

/-! ## The life-cycle theorem -/

/-- What a coast leaves alone in a stored track. -/
def STrack.lifecycleView (t : STrack R) : ℤ × TrackState × ℤ × ℤ × R × ℤ × List R :=
  (t.id, t.state, t.hits, t.timeSinceUpdate, t.score, t.classId, t.embedding)

/-- **The life cycle of stored tracks.** After any run of a fresh tracker, whatever legal matches
the association stages returned: every stored track satisfies the invariant; its miss counter is
the number of updates since its birth or last match; under one more call a track is carried over
with its id, unless the call is an update that leaves it unmatched above its limit; and a coast
keeps all tracks, in order, and all but their filters and ages.

**Proof sketch.** The invariant is preserved by every call (`run_valid`), and the miss counter
follows the rules of `UpdatesSince`. Only the removal rule of an update drops a track
(`carries_or_dropped`). -/
theorem lifecycle (cfg : AssocConfig R) (hp : 0 ≤ cfg.tentativePatience) (cs : List (Call R)) :
    (∀ t ∈ ((ByteTracker.new cfg).run cs).tracks, t.Valid cfg) ∧
    (∀ k n, UpdatesSince cfg cs k n ↔
      ∃ t, ((ByteTracker.new cfg).run cs).tracks[k]? = some t ∧ t.timeSinceUpdate = n) ∧
    (∀ c i t, ((ByteTracker.new cfg).run cs).tracks[i]? = some t →
      (∃ k u, ((ByteTracker.new cfg).run cs).Carries c i k ∧
        ((ByteTracker.new cfg).run (cs ++ [c])).tracks[k]? = some u ∧ u.id = t.id) ∨
      ∃ m dets dt warp, c = .update m dets dt warp ∧
        ((ByteTracker.new cfg).run cs).fate m dets dt warp i = none ∧
        (if t.state = .tentative then cfg.tentativePatience else cfg.maxAge) <
          t.timeSinceUpdate + 1) ∧
    (∀ dt warp, ((ByteTracker.new cfg).run (cs ++ [.coast dt warp])).tracks.map
        STrack.lifecycleView =
      ((ByteTracker.new cfg).run cs).tracks.map STrack.lifecycleView) := by
  refine ⟨run_valid cfg hp cs, updatesSince_iff cfg cs, ?_, ?_⟩
  · intro c i t ht
    rcases carries_or_dropped _ c ht with ⟨k, hk⟩ | ⟨m, dets, dt, warp, hc, hnone, hlt⟩
    · have hu := getElem?_step_of_carries _ hk
      rw [ht, Option.map_some] at hu
      exact Or.inl ⟨k, _, hk, (run_concat _ cs c).symm ▸ hu, carried_id _ c i t⟩
    · rw [run_cfg] at hlt
      exact Or.inr ⟨m, dets, dt, warp, hc, hnone, hlt⟩
  · intro dt warp
    rw [run_concat, step, coast_tracks, List.map_map]
    rfl

/-- A detection appears in the first of two updates, with a coast in between. -/
theorem lifecycle_one_detection :
    let s := (ByteTracker.new (R := ℚ) {}).run [.update iouMatcher [⟨⟨0, 0, 2, 2⟩, 1, 0, []⟩] 1 .id,
      .coast 1 .id, .update iouMatcher [] 1 .id]
    s.tracks.length = 1 ∧ ∀ t ∈ s.tracks, t.Valid {} :=
  ⟨by decide +kernel, (lifecycle {} (by decide) _).1⟩

end Ctrk
