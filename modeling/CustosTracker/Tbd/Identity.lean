import CustosTracker.Tbd.Step

set_option relaxedAutoImplicit false
set_option autoImplicit false

/-!
# Track identity

The ids handed out by the tracker, over every run that spawns fewer than `2 ^ 31 - 1` tracks, so
that the 32-bit counter does not wrap.

## Main definitions

* `Ctrk.ByteTracker.spawnCount`, `Ctrk.ByteTracker.totalSpawned` — spawned tracks.
* `Ctrk.ByteTracker.IdOrder` — ids increase along the stored tracks, below the counter.
* `Ctrk.ByteTracker.Follows` — the same stored track, carried through a run.
* `Ctrk.ByteTracker.reportedIds` — the ids of one report of a run.

## Main results

* `Ctrk.ByteTracker.step_idOrder` — one call keeps the order.
* `Ctrk.ByteTracker.follows_iff_id_eq` — equal ids are the same stored track.
* `Ctrk.ByteTracker.identity` — uniqueness of ids over all reports of a run.
-/

namespace Ctrk

variable {R : Type} [Scalar R]

/-! ## The id counter -/

theorem wrapInt_eq_self {x : ℤ} (h0 : 0 ≤ x) (h : x < 2 ^ 31) : wrapInt x = x := by
  rw [wrapInt, Int.bmod_def]
  omega

/-- Without a wrap the counter counts. -/
theorem idAfter_eq {nextId : ℤ} {k : ℕ} (h0 : 0 ≤ nextId) (h : nextId + k < 2 ^ 31) :
    idAfter nextId k = nextId + k := by
  induction k generalizing nextId with
  | zero => exact (add_zero nextId).symm
  | succ k ih =>
    rw [Nat.cast_succ] at h ⊢
    rw [idAfter_succ, wrapInt_eq_self (by omega) (by omega), ih (by omega) (by omega)]
    omega

namespace ByteTracker

/-- The number of tracks a call spawns. -/
def spawnCount (s : ByteTracker R) : Call R → ℕ
  | .update m dets dt warp => (s.spawners m dets dt warp).length
  | .coast _ _ => 0

/-- The number of tracks a sequence of calls spawns. -/
def totalSpawned (s : ByteTracker R) : List (Call R) → ℕ
  | [] => 0
  | c :: cs => s.spawnCount c + totalSpawned (s.step c).2 cs

theorem totalSpawned_append (s : ByteTracker R) (cs ds : List (Call R)) :
    s.totalSpawned (cs ++ ds) = s.totalSpawned cs + (s.run cs).totalSpawned ds := by
  induction cs generalizing s with
  | nil => exact (Nat.zero_add _).symm
  | cons c cs ih =>
    rw [List.cons_append, totalSpawned, ih, totalSpawned, Nat.add_assoc]
    rfl

theorem totalSpawned_concat (s : ByteTracker R) (cs : List (Call R)) (c : Call R) :
    s.totalSpawned (cs ++ [c]) = s.totalSpawned cs + (s.run cs).spawnCount c :=
  totalSpawned_append s cs [c]

/-! ## One call -/

/-- Ids increase along the stored tracks and stay below the counter. -/
structure IdOrder (s : ByteTracker R) : Prop where
  sorted : ∀ (i j : ℕ) (t u : STrack R),
    i < j → s.tracks[i]? = some t → s.tracks[j]? = some u → t.id < u.id
  lt_nextId : ∀ (i : ℕ) (t : STrack R), s.tracks[i]? = some t → t.id < s.nextId

section Step

variable {s : ByteTracker R} {c : Call R}

/-- The counter advances by the number of spawned tracks. -/
theorem step_nextId (h0 : 0 ≤ s.nextId) (hfit : s.nextId + s.spawnCount c < 2 ^ 31) :
    (s.step c).2.nextId = s.nextId + s.spawnCount c := by
  cases c with
  | coast dt warp => exact (add_zero s.nextId).symm
  | update m dets dt warp => exact (s.update_nextId m dets dt warp).trans (idAfter_eq h0 hfit)

/-- Calls keep the order of the tracks they carry. -/
theorem carries_lt {i j k l : ℕ} (hi : s.Carries c i k) (hj : s.Carries c j l) (hkl : k < l) :
    i < j := by
  cases c with
  | coast dt warp => exact hi.1 ▸ hj.1 ▸ hkl
  | update m dets dt warp =>
    obtain ⟨hk, rfl⟩ := List.getElem?_eq_some_iff.mp hi
    obtain ⟨hl, rfl⟩ := List.getElem?_eq_some_iff.mp hj
    exact List.pairwise_iff_getElem.mp (Indexed.kept_pairwise _ _) k l hk hl hkl

/-- Spawned tracks stand behind the carried ones. -/
theorem carries_lt_spawns {i k l : ℕ} (hi : s.Carries c i k) (hl : s.Spawns c l) : k < l := by
  cases c with
  | coast dt warp => exact hl.elim
  | update m dets dt warp =>
    have hk := (List.getElem?_eq_some_iff.mp hi).1
    exact lt_of_lt_of_le hk hl.1

/-- The index at which a call starts to append spawned tracks. -/
def firstSpawn (s : ByteTracker R) : Call R → ℕ
  | .update m dets dt warp => (s.survivors m dets dt warp).length
  | .coast _ _ => s.tracks.length

/-- Spawned tracks get the next ids in turn. -/
theorem spawns_id (h0 : 0 ≤ s.nextId) (hfit : s.nextId + s.spawnCount c < 2 ^ 31) {k : ℕ}
    (hk : s.Spawns c k) {u : STrack R} (hu : (s.step c).2.tracks[k]? = some u) :
    s.firstSpawn c ≤ k ∧ k < s.firstSpawn c + s.spawnCount c ∧
      u.id = s.nextId + (k - s.firstSpawn c : ℕ) := by
  cases c with
  | coast dt warp => exact hk.elim
  | update m dets dt warp =>
    rw [step, s.getElem?_update_of_le m dets dt warp hk.1, newborns, List.getElem?_mapIdx,
      Option.map_eq_some_iff] at hu
    obtain ⟨j, hj, rfl⟩ := hu
    have hlt := (List.getElem?_eq_some_iff.mp hj).1
    have hle := hk.1
    simp only [spawnCount, firstSpawn] at hfit ⊢
    refine ⟨hle, by omega, ?_⟩
    exact idAfter_eq h0 (by omega)

/-- An id found after a call was there before, or is new and at least the old counter. -/
theorem step_id (h0 : 0 ≤ s.nextId) (hfit : s.nextId + s.spawnCount c < 2 ^ 31) {k : ℕ}
    {u : STrack R} (hu : (s.step c).2.tracks[k]? = some u) :
    (∃ i t, s.Carries c i k ∧ s.tracks[i]? = some t ∧ t.id = u.id) ∨
      (s.Spawns c k ∧ s.nextId ≤ u.id ∧ u.id < s.nextId + s.spawnCount c) := by
  rcases s.carries_or_spawns hu with ⟨i, t, hc, ht, rfl⟩ | hk
  · exact Or.inl ⟨i, t, hc, ht, (carried_id s c i t).symm⟩
  · obtain ⟨hle, hlt, hid⟩ := spawns_id h0 hfit hk hu
    exact Or.inr ⟨hk, by omega, by omega⟩

/-- One call keeps the order of ids.

**Proof sketch.** Take two tracks after the call. If both were carried, they keep their order and
their ids. If the second was spawned, its id is at least the old counter, which bounds every
carried id, and spawned ids increase. A spawned track never stands before a carried one. -/
theorem step_idOrder (h : s.IdOrder) (h0 : 0 ≤ s.nextId)
    (hfit : s.nextId + s.spawnCount c < 2 ^ 31) : (s.step c).2.IdOrder := by
  have hnext := step_nextId h0 hfit
  refine ⟨fun k l u v hkl hu hv => ?_, fun k u hu => ?_⟩
  · rcases step_id h0 hfit hu with ⟨i, t, hc, ht, hid⟩ | ⟨hk, -, -⟩ <;>
      rcases step_id h0 hfit hv with ⟨j, t', hc', ht', hid'⟩ | ⟨hl, hlow, -⟩
    · rw [← hid, ← hid']
      exact h.sorted i j t t' (carries_lt hc hc' hkl) ht ht'
    · have hlt := h.lt_nextId i t ht
      omega
    · have hlk := carries_lt_spawns hc' hk
      omega
    · obtain ⟨hle, -, hid⟩ := spawns_id h0 hfit hk hu
      obtain ⟨-, -, hid'⟩ := spawns_id h0 hfit hl hv
      omega
  · rcases step_id h0 hfit hu with ⟨i, t, -, ht, hid⟩ | ⟨-, -, hlt⟩
    · have hlt := h.lt_nextId i t ht
      omega
    · omega

end Step

/-! ## Runs of a fresh tracker -/

section Run

variable {cfg : AssocConfig R}

/-- While the counter does not wrap, it counts the spawned tracks, and ids are in order. -/
theorem run_idOrder (cfg : AssocConfig R) {cs : List (Call R)}
    (hN : (new cfg).totalSpawned cs < 2 ^ 31 - 1) :
    ((new cfg).run cs).nextId = 1 + (new cfg).totalSpawned cs ∧ ((new cfg).run cs).IdOrder := by
  induction cs using List.reverseRecOn with
  | nil =>
    refine ⟨rfl, ⟨fun i j t u _ ht _ => ?_, fun i t ht => ?_⟩⟩ <;>
      exact absurd ht (by simp [new])
  | append_singleton cs c ih =>
    rw [totalSpawned_concat] at hN ⊢
    obtain ⟨hnext, hord⟩ := ih (by omega)
    have h0 : 0 ≤ ((new cfg).run cs).nextId := by omega
    have hfit : ((new cfg).run cs).nextId + ((new cfg).run cs).spawnCount c < 2 ^ 31 := by omega
    rw [run_concat, step_nextId h0 hfit, hnext]
    exact ⟨by omega, step_idOrder hord h0 hfit⟩

/-- The counter never decreases. -/
theorem nextId_le_run (cfg : AssocConfig R) {cs ds : List (Call R)}
    (hN : (new cfg).totalSpawned (cs ++ ds) < 2 ^ 31 - 1) :
    ((new cfg).run cs).nextId ≤ ((new cfg).run (cs ++ ds)).nextId := by
  have hsum := totalSpawned_append (new cfg) cs ds
  have hN' : (new cfg).totalSpawned cs < 2 ^ 31 - 1 := by omega
  rw [(run_idOrder cfg hN).1, (run_idOrder cfg hN').1]
  omega

/-- The stored track at index `i` is carried to index `k` by a sequence of calls. -/
inductive Follows (s : ByteTracker R) : List (Call R) → ℕ → ℕ → Prop
  | refl {i : ℕ} : i < s.tracks.length → Follows s [] i i
  | tail {cs : List (Call R)} {c : Call R} {i j k : ℕ} :
      Follows s cs i j → (s.run cs).Carries c j k → Follows s (cs ++ [c]) i k

/-- A carried track keeps its id through a sequence of calls. -/
theorem Follows.id_eq {s : ByteTracker R} {cs : List (Call R)} {i k : ℕ} (h : s.Follows cs i k) :
    ∃ t u, s.tracks[i]? = some t ∧ (s.run cs).tracks[k]? = some u ∧ t.id = u.id := by
  induction h with
  | refl hi => exact ⟨_, _, List.getElem?_eq_getElem hi, List.getElem?_eq_getElem hi, rfl⟩
  | @tail cs c i j k _ hc ih =>
    obtain ⟨t, u, ht, hu, hid⟩ := ih
    have hv := getElem?_step_of_carries _ hc
    rw [hu, Option.map_some] at hv
    exact ⟨t, _, ht, (run_concat s cs c).symm ▸ hv, hid.trans (carried_id _ c j u).symm⟩

/-- Within one state, equal ids are the same index. -/
theorem IdOrder.index_eq {s : ByteTracker R} (h : s.IdOrder) {i j : ℕ} {t u : STrack R}
    (ht : s.tracks[i]? = some t) (hu : s.tracks[j]? = some u) (hid : t.id = u.id) : i = j := by
  rcases lt_trichotomy i j with hlt | heq | hgt
  · exact absurd (h.sorted i j t u hlt ht hu) (by omega)
  · exact heq
  · exact absurd (h.sorted j i u t hgt hu ht) (by omega)

/-- An id stored later was stored before, by the same track, or is at least the old counter.

**Proof sketch.** Induction over the later calls. The last call carried the track, whose id the
hypothesis traces back, or spawned it with an id at least the counter at that time, which is at
least the old one. -/
theorem follows_or_new {cs ds : List (Call R)}
    (hN : (new cfg).totalSpawned (cs ++ ds) < 2 ^ 31 - 1) {k : ℕ} {u : STrack R}
    (hu : ((new cfg).run (cs ++ ds)).tracks[k]? = some u) :
    (∃ i, ((new cfg).run cs).Follows ds i k) ∨ ((new cfg).run cs).nextId ≤ u.id := by
  induction ds using List.reverseRecOn generalizing k u with
  | nil =>
    rw [List.append_nil] at hu
    exact Or.inl ⟨k, .refl (List.getElem?_eq_some_iff.mp hu).1⟩
  | append_singleton ds c ih =>
    rw [← List.append_assoc, totalSpawned_concat] at hN
    rw [← List.append_assoc, run_concat] at hu
    have hN' : (new cfg).totalSpawned (cs ++ ds) < 2 ^ 31 - 1 := by omega
    have hmono := nextId_le_run cfg hN'
    obtain ⟨hnext, -⟩ := run_idOrder cfg hN'
    rcases step_id (by omega) (by omega) hu with ⟨j, t, hc, ht, hid⟩ | ⟨-, hlow, -⟩
    · rcases ih (by omega) ht with ⟨i, hi⟩ | hnew
      · exact Or.inl ⟨i, .tail hi (run_append (new cfg) cs ds ▸ hc)⟩
      · exact Or.inr (by omega)
    · exact Or.inr (by omega)

/-- Two tracks stored at different times have the same id exactly when they are the same track,
carried from the one time to the other.

**Proof sketch.** Carrying a track keeps its id.  Conversely, a track stored later is carried
from an earlier one, which has the same id and is therefore the given one, or it is new and has
an id that was not given out yet. -/
theorem follows_iff_id_eq {cs ds : List (Call R)}
    (hN : (new cfg).totalSpawned (cs ++ ds) < 2 ^ 31 - 1) {i k : ℕ} {t u : STrack R}
    (ht : ((new cfg).run cs).tracks[i]? = some t)
    (hu : ((new cfg).run (cs ++ ds)).tracks[k]? = some u) :
    ((new cfg).run cs).Follows ds i k ↔ t.id = u.id := by
  have hsum := totalSpawned_append (new cfg) cs ds
  have hN' : (new cfg).totalSpawned cs < 2 ^ 31 - 1 := by omega
  obtain ⟨-, hord⟩ := run_idOrder cfg hN'
  constructor
  · intro h
    obtain ⟨t', u', ht', hu', hid⟩ := h.id_eq
    rw [← run_append] at hu'
    rw [ht] at ht'
    rw [hu] at hu'
    rwa [Option.some.inj ht', Option.some.inj hu']
  · intro hid
    rcases follows_or_new hN hu with ⟨j, hj⟩ | hnew
    · obtain ⟨t', u', ht', hu', hid'⟩ := hj.id_eq
      rw [← run_append, hu] at hu'
      obtain rfl := Option.some.inj hu'
      obtain rfl := hord.index_eq ht ht' (hid.trans hid'.symm)
      exact hj
    · have hlt := hord.lt_nextId i t ht
      omega

end Run

/-! ## Reports -/

/-- The ids in the report of the `a`-th call. -/
def reportedIds (s : ByteTracker R) (cs : List (Call R)) (a : ℕ) : List ℤ :=
  ((s.outputs cs).getD a []).map Track.id

/-- The `a`-th call reports the tracks stored after it. -/
theorem reportedIds_eq (s : ByteTracker R) {cs : List (Call R)} {a : ℕ} (ha : a < cs.length) :
    s.reportedIds cs a = (s.run (cs.take (a + 1))).tracks.map STrack.id := by
  rw [reportedIds, getD_outputs s ha, List.map_map]
  rfl

section Reports

variable {cfg : AssocConfig R} {cs : List (Call R)}

theorem totalSpawned_take_le (s : ByteTracker R) (cs : List (Call R)) (n : ℕ) :
    s.totalSpawned (cs.take n) ≤ s.totalSpawned cs := by
  have hsum := totalSpawned_append s (cs.take n) (cs.drop n)
  rw [List.take_append_drop] at hsum
  omega

/-- The calls up to a later one, split at an earlier one. -/
theorem take_append_drop_take (cs : List (Call R)) {m n : ℕ} (h : m ≤ n) :
    cs.take m ++ (cs.take n).drop m = cs.take n := by
  have hpre : (cs.take n).take m = cs.take m := by rw [List.take_take, min_eq_left h]
  rw [← hpre]
  exact List.take_append_drop m (cs.take n)

/-- An id of a later report was in an earlier one, or is at least the counter at that time. -/
theorem mem_reportedIds_or_le (hN : (new cfg).totalSpawned cs < 2 ^ 31 - 1) {a b : ℕ}
    (hab : a ≤ b) (hb : b < cs.length) {x : ℤ} (hx : x ∈ (new cfg).reportedIds cs b) :
    x ∈ (new cfg).reportedIds cs a ∨ ((new cfg).run (cs.take (a + 1))).nextId ≤ x := by
  rw [reportedIds_eq _ hb, List.mem_map] at hx
  obtain ⟨u, hu, rfl⟩ := hx
  obtain ⟨k, hk⟩ := List.mem_iff_getElem?.mp hu
  have hsplit := take_append_drop_take cs (show a + 1 ≤ b + 1 by omega)
  have hle := totalSpawned_take_le (new cfg) cs (b + 1)
  rw [← hsplit] at hk hle
  rcases follows_or_new (by omega) hk with ⟨i, hi⟩ | hnew
  · obtain ⟨t, u', ht, hu', hid⟩ := hi.id_eq
    rw [← run_append, hk] at hu'
    obtain rfl := Option.some.inj hu'
    rw [reportedIds_eq _ (show a < cs.length by omega), ← hid]
    exact Or.inl (List.mem_map_of_mem (List.mem_of_getElem? ht))
  · exact Or.inr hnew

/-- Reported ids increase and are below the counter. -/
theorem reportedIds_sorted (hN : (new cfg).totalSpawned cs < 2 ^ 31 - 1) {a : ℕ}
    (ha : a < cs.length) :
    ((new cfg).reportedIds cs a).Pairwise (· < ·) ∧
      ∀ x ∈ (new cfg).reportedIds cs a, x < ((new cfg).run (cs.take (a + 1))).nextId := by
  have hle := totalSpawned_take_le (new cfg) cs (a + 1)
  obtain ⟨-, hord⟩ := run_idOrder cfg (lt_of_le_of_lt hle hN)
  rw [reportedIds_eq _ ha]
  refine ⟨?_, fun x hx => ?_⟩
  · rw [List.pairwise_map, List.pairwise_iff_getElem]
    intro i j hi hj hij
    exact hord.sorted i j _ _ hij (List.getElem?_eq_getElem hi) (List.getElem?_eq_getElem hj)
  · obtain ⟨t, ht, rfl⟩ := List.mem_map.mp hx
    obtain ⟨i, hi⟩ := List.mem_iff_getElem?.mp ht
    exact hord.lt_nextId i t hi

end Reports

/-- **Ids are unique and never reused.** In a run of a fresh tracker that spawns fewer than
`2 ^ 31 - 1` tracks: every report has strictly increasing ids below the counter; an id that is
missing from a report after an earlier one is missing from all later ones; an id reported for the
first time is larger than all ids reported earlier; and two reported tracks have the same id
exactly when they are one stored track, carried from the one call to the other.

**Proof sketch.** After any call the counter bounds all ids so far. A later id is an earlier one,
carried along, or at least that counter (`follows_or_new`). -/
theorem identity (cfg : AssocConfig R) (cs : List (Call R))
    (hN : (new cfg).totalSpawned cs < 2 ^ 31 - 1) :
    (∀ a, a < cs.length → ((new cfg).reportedIds cs a).Pairwise (· < ·) ∧
      ∀ x ∈ (new cfg).reportedIds cs a, x < ((new cfg).run (cs.take (a + 1))).nextId) ∧
    (∀ a b d, a < b → b < d → d < cs.length → ∀ x ∈ (new cfg).reportedIds cs a,
      x ∉ (new cfg).reportedIds cs b → x ∉ (new cfg).reportedIds cs d) ∧
    (∀ a b, a < b → b < cs.length → ∀ x ∈ (new cfg).reportedIds cs b,
      (∀ a' < b, x ∉ (new cfg).reportedIds cs a') →
      ∀ y ∈ (new cfg).reportedIds cs a, y < x) ∧
    (∀ a b i k t u, a ≤ b → b < cs.length →
      ((new cfg).run (cs.take (a + 1))).tracks[i]? = some t →
      ((new cfg).run (cs.take (b + 1))).tracks[k]? = some u →
      (((new cfg).run (cs.take (a + 1))).Follows ((cs.take (b + 1)).drop (a + 1)) i k ↔
        t.id = u.id)) := by
  refine ⟨fun a ha => reportedIds_sorted hN ha, ?_, ?_, ?_⟩
  · intro a b d hab hbd hd x hxa hxb hxd
    have hlt := (reportedIds_sorted hN (show a < cs.length by omega)).2 x hxa
    have hsplit := take_append_drop_take cs (show a + 1 ≤ b + 1 by omega)
    have hle := totalSpawned_take_le (new cfg) cs (b + 1)
    rw [← hsplit] at hle
    have hmono := nextId_le_run cfg (lt_of_le_of_lt hle hN)
    rw [hsplit] at hmono
    rcases mem_reportedIds_or_le hN (le_of_lt hbd) hd hxd with hmem | hnew
    · exact hxb hmem
    · omega
  · intro a b hab hb x hxb hfirst y hya
    have hlt := (reportedIds_sorted hN (show a < cs.length by omega)).2 y hya
    rcases mem_reportedIds_or_le hN (le_of_lt hab) hb hxb with hmem | hnew
    · exact absurd hmem (hfirst a hab)
    · omega
  · intro a b i k t u hab hb ht hu
    have hsplit := take_append_drop_take cs (show a + 1 ≤ b + 1 by omega)
    have hle := totalSpawned_take_le (new cfg) cs (b + 1)
    rw [← hsplit] at hle hu
    exact follows_iff_id_eq (lt_of_le_of_lt hle hN) ht hu

/-- Two detections, then a coast, then an update without detections that drops both tracks, then
a new detection. -/
theorem identity_drop_and_spawn :
    let cs : List (Call ℚ) := [
      .update iouMatcher [⟨⟨0, 0, 2, 2⟩, 1, 0, []⟩, ⟨⟨9, 9, 2, 2⟩, 1, 0, []⟩] 1 .id, .coast 1 .id,
      .update iouMatcher [] 1 .id, .update iouMatcher [] 1 .id,
      .update iouMatcher [⟨⟨0, 0, 2, 2⟩, 1, 0, []⟩] 1 .id]
    (new {}).totalSpawned cs = 3 ∧
      ∀ a, a < cs.length → ((new {}).reportedIds cs a).Pairwise (· < ·) :=
  ⟨by decide +kernel, fun a ha => ((identity {} _ (by decide +kernel)).1 a ha).1⟩

end ByteTracker

end Ctrk
