import CustosTracker.Tbd.Accounting
import CustosTracker.Library.Ledger

set_option relaxedAutoImplicit false
set_option autoImplicit false

/-!
# What a track is made of

Every stored track is made of detections: the one it was spawned from and the ones it was matched
to.  A ledger beside a run of the tracker books each detection that is used, by the number of its
call and its index there, to the account of the track that used it.

## Main definitions

* `Ctrk.ByteTracker.ledger` — the ledger of a run.
* `Ctrk.Evidence` — what the account of a track says about the track.

## Main results

* `Ctrk.ByteTracker.provenance` — no detection is used twice, none that counts is lost, and the
  counters of every track are read off its account.
-/

namespace Ctrk

open Indexed
open scoped List

variable {R : Type} [Scalar R]

namespace ByteTracker

/-! ## The detections one update uses -/

section Used

variable (m : Matcher R) (s : ByteTracker R) (dets : List (Detection R)) (dt : R)
  (warp : Affine23 R)

/-- The detections an update matches, then the ones it spawns tracks from. -/
def used : List ℕ :=
  (List.range s.tracks.length).filterMap (s.fate m dets dt warp) ++ s.spawners m dets dt warp

/-- Only stored tracks are matched. -/
theorem lt_of_fate {i j : ℕ} (h : s.fate m dets dt warp i = some j) : i < s.tracks.length := by
  have hmem := Associations.mem_of_fate_eq_some h
  rw [Associations.matched, List.mem_append, List.mem_append] at hmem
  have hstored : ∃ t, (s.predicted dt warp)[i]? = some t := by
    rcases hmem with (hp | hp) | hp
    · obtain ⟨⟨t, ht, -⟩, -⟩ := stage1_mem _ _ _ _ _ hp
      exact ⟨t, ht⟩
    · obtain ⟨⟨t, ht, -⟩, -⟩ := stage2_mem _ _ _ _ _ hp
      exact ⟨t, ht⟩
    · obtain ⟨⟨t, ht, -⟩, -⟩ := stage3_mem _ _ _ _ _ hp
      exact ⟨t, ht⟩
  obtain ⟨t, ht⟩ := hstored
  have hlt := (List.getElem?_eq_some_iff.mp ht).1
  rwa [length_predicted] at hlt

/-- A detection is matched exactly when some stored track has it as its fate. -/
theorem mem_matched_snd {j : ℕ} :
    j ∈ (s.associations m dets dt warp).matched.map Prod.snd ↔
      ∃ i, s.fate m dets dt warp i = some j := by
  have hnd := nodup_matched_fst m s.cfg s.coastedDt (s.predicted dt warp) dets
  constructor
  · intro h
    obtain ⟨p, hp, rfl⟩ := List.mem_map.mp h
    exact ⟨p.1, Associations.fate_of_mem hnd hp⟩
  · intro h
    obtain ⟨i, hi⟩ := h
    exact List.mem_map_of_mem (Associations.mem_of_fate_eq_some hi)

theorem mem_used {j : ℕ} :
    j ∈ s.used m dets dt warp ↔
      (∃ i, s.fate m dets dt warp i = some j) ∨ j ∈ s.spawners m dets dt warp := by
  rw [used, List.mem_append, List.mem_filterMap]
  refine or_congr_left ⟨fun h => ?_, fun h => ?_⟩
  · obtain ⟨i, -, hi⟩ := h
    exact ⟨i, hi⟩
  · obtain ⟨i, hi⟩ := h
    exact ⟨i, List.mem_range.mpr (s.lt_of_fate m dets dt warp hi), hi⟩

/-- A detection is used exactly when it is matched or clears both thresholds. -/
theorem mem_used_iff {j : ℕ} (hj : j < dets.length) :
    j ∈ s.used m dets dt warp ↔ (∃ i, s.fate m dets dt warp i = some j) ∨
      (s.cfg.trackThresh ≤ (dets.getD j default).score ∧
        s.cfg.newTrackThresh ≤ (dets.getD j default).score) := by
  rw [mem_used]
  by_cases hm : ∃ i, s.fate m dets dt warp i = some j
  · exact iff_of_true (Or.inl hm) (Or.inl hm)
  · refine or_congr_right ((s.mem_spawners m dets dt warp).trans ?_)
    rw [← mem_matched_snd, Associations.matched, List.map_append, List.map_append,
      List.mem_append, List.mem_append, not_or, not_or] at hm
    exact ⟨fun h => ⟨h.2.1, h.2.2.1⟩, fun h => ⟨hj, h.1, h.2, hm.1.1, hm.2⟩⟩

theorem used_lt {j : ℕ} (h : j ∈ s.used m dets dt warp) : j < dets.length := by
  rcases (s.mem_used m dets dt warp).mp h with ⟨i, hi⟩ | hj
  · exact matched_snd_lt _ _ _ _ _ (Associations.mem_of_fate_eq_some hi)
  · exact ((s.mem_spawners m dets dt warp).mp hj).1

theorem nodup_fates_spawners : (s.used m dets dt warp).Nodup := by
  have hnd := nodup_matched_snd m s.cfg s.coastedDt (s.predicted dt warp) dets
  obtain ⟨-, hspawn, hdisj⟩ := List.nodup_append'.mp (s.nodup_used m dets dt warp)
  refine List.nodup_append'.mpr ⟨List.nodup_range.filterMap ?_, hspawn, ?_⟩
  · intro i i' j hi hi'
    have h := Associations.mem_of_fate_eq_some hi
    have h' := Associations.mem_of_fate_eq_some hi'
    exact congrArg Prod.fst (List.inj_on_of_nodup_map hnd h h' rfl)
  · intro j hj hs
    obtain ⟨i, -, hi⟩ := List.mem_filterMap.mp hj
    exact hdisj ((s.mem_matched_snd m dets dt warp).mpr ⟨i, hi⟩) hs

end Used

/-! ## The ledger of a run -/

/-- The entry that call number `n` adds to the account of the track stored at index `i`. -/
def gain (s : ByteTracker R) (n : ℕ) : Call R → ℕ → Option (ℕ × ℕ)
  | .update m dets dt warp, i => (s.fate m dets dt warp i).map (Prod.mk n)
  | .coast _ _, _ => none

/-- What call number `n` books: the matched tracks gain the detections they were matched to, the
dropped ones are closed, and every spawned one opens an account with its first detection. -/
def book (s : ByteTracker R) (n : ℕ) (b : Ledger (ℕ × ℕ)) : Call R → Ledger (ℕ × ℕ)
  | .update m dets dt warp => b.round (s.removed m dets dt warp)
      (s.gain n (.update m dets dt warp)) ((s.spawners m dets dt warp).map (Prod.mk n))
  | .coast _ _ => b

/-- The ledger after further calls, the first of which has number `n`. -/
def ledgerFrom (s : ByteTracker R) (n : ℕ) (b : Ledger (ℕ × ℕ)) : List (Call R) → Ledger (ℕ × ℕ)
  | [] => b
  | c :: cs => ledgerFrom (s.step c).2 (n + 1) (s.book n b c) cs

/-- The ledger of a run of a fresh tracker. -/
def ledger (cfg : AssocConfig R) (cs : List (Call R)) : Ledger (ℕ × ℕ) :=
  ledgerFrom (new cfg) 0 {} cs

theorem ledgerFrom_concat (s : ByteTracker R) (n : ℕ) (b : Ledger (ℕ × ℕ)) (cs : List (Call R))
    (c : Call R) :
    ledgerFrom s n b (cs ++ [c]) = (s.run cs).book (n + cs.length) (ledgerFrom s n b cs) c := by
  induction cs generalizing s n b with
  | nil => rfl
  | cons d cs ih =>
    rw [List.cons_append, ledgerFrom, ih, List.length_cons, Nat.add_assoc, Nat.add_comm 1]
    rfl

theorem ledger_concat (cfg : AssocConfig R) (cs : List (Call R)) (c : Call R) :
    ledger cfg (cs ++ [c]) = ((new cfg).run cs).book cs.length (ledger cfg cs) c := by
  rw [ledger, ledgerFrom_concat, Nat.zero_add]
  rfl

/-- The accounts of the open tracks number the stored tracks. -/
theorem length_live (cfg : AssocConfig R) (cs : List (Call R)) :
    (ledger cfg cs).live.length = ((new cfg).run cs).tracks.length := by
  induction cs using List.reverseRecOn with
  | nil => rfl
  | append_singleton cs c ih =>
    rw [ledger_concat, run_concat]
    cases c with
    | coast dt warp => exact ih.trans (List.length_map _).symm
    | update m dets dt warp =>
      rw [book, Ledger.length_live_round, List.length_map, ih]
      exact (length_update m _ dets dt warp).symm

/-- The detections a call uses. -/
def usedBy (s : ByteTracker R) : Call R → List ℕ
  | .update m dets dt warp => s.used m dets dt warp
  | .coast _ _ => []

theorem nodup_usedBy (s : ByteTracker R) (c : Call R) : (s.usedBy c).Nodup := by
  cases c with
  | coast dt warp => exact List.nodup_nil
  | update m dets dt warp => exact s.nodup_fates_spawners m dets dt warp

/-- A call books the detections it uses, and no others. -/
theorem entries_book (s : ByteTracker R) (n : ℕ) {b : Ledger (ℕ × ℕ)}
    (hb : b.live.length = s.tracks.length) (c : Call R) :
    (s.book n b c).entries ~ b.entries ++ (s.usedBy c).map (Prod.mk n) := by
  cases c with
  | coast dt warp => exact List.Perm.of_eq (List.append_nil _).symm
  | update m dets dt warp =>
    have hclosed : ∀ i ∈ s.removed m dets dt warp, s.gain n (.update m dets dt warp) i = none := by
      intro i hi
      have ht := List.getElem?_eq_getElem (s.removed_lt m dets dt warp hi)
      rw [gain, ((s.mem_removed m dets dt warp ht).mp hi).1, Option.map_none]
    have h : (s.book n b (.update m dets dt warp)).entries ~ b.entries ++
        ((List.range b.live.length).filterMap (s.gain n (.update m dets dt warp)) ++
          (s.spawners m dets dt warp).map (Prod.mk n)) :=
      Ledger.entries_round (s.nodup_removed m dets dt warp)
        (fun i hi => hb ▸ s.removed_lt m dets dt warp hi) hclosed
    rw [hb] at h
    rw [usedBy, used, List.map_append, List.map_filterMap]
    exact h

end ByteTracker

/-! ## The account of one track -/

/-- The detection an entry of the ledger names. -/
def detAt (cs : List (Call R)) (p : ℕ × ℕ) : Detection R :=
  match cs[p.1]? with
  | some (.update _ dets _ _) => dets.getD p.2 default
  | _ => default

theorem detAt_append {cs : List (Call R)} {p : ℕ × ℕ} (h : p.1 < cs.length) (ds : List (Call R)) :
    detAt (cs ++ ds) p = detAt cs p := by
  rw [detAt, detAt, List.getElem?_append_left h]

theorem detAt_concat_update (cs : List (Call R)) (m : Matcher R) (dets : List (Detection R))
    (dt : R) (warp : Affine23 R) (j : ℕ) :
    detAt (cs ++ [.update m dets dt warp]) (cs.length, j) = dets.getD j default := by
  rw [detAt, List.getElem?_concat_length]

/-- What the account `e` of a stored track says about the track after the calls `cs`.  The first
entry is the detection that spawned the track, and the last one the detection it was matched to
last. -/
structure Evidence (cfg : AssocConfig R) (cs : List (Call R)) (e : List (ℕ × ℕ)) (t : STrack R) :
    Prop where
  ne_nil : e ≠ []
  increasing : (e.map Prod.fst).Pairwise (· < ·)
  lt_length : ∀ p ∈ e, p.1 < cs.length
  hits : t.hits = e.length
  age : t.age = cs.length - (e.head ne_nil).1
  score : t.score = (detAt cs (e.getLast ne_nil)).score
  classId : t.classId = (detAt cs (e.getLast ne_nil)).classId
  timeSinceUpdate :
    t.timeSinceUpdate = ((cs.drop ((e.getLast ne_nil).1 + 1)).countP Call.isUpdate : ℕ)
  birth : cfg.trackThresh ≤ (detAt cs (e.head ne_nil)).score ∧
    cfg.newTrackThresh ≤ (detAt cs (e.head ne_nil)).score
  /-- Only a track that `nInit` detections above the track threshold confirmed is kept alive by
  detections below it. -/
  high : ∀ (i : ℕ) (p : ℕ × ℕ), e[i]? = some p → (i : ℤ) < cfg.nInit →
    cfg.trackThresh ≤ (detAt cs p).score
  mature : t.state ≠ .tentative → cfg.nInit ≤ t.hits

namespace Evidence

variable {cfg : AssocConfig R} {cs : List (Call R)} {e : List (ℕ × ℕ)} {t : STrack R}

/-- A call that does not match a track leaves its account alone.

**Proof sketch.** The entries stay where they are, and so do the hits and what the last match
left.  The age counts the call, the miss counter counts it if it is an update. -/
theorem idle (h : Evidence cfg cs e t) {c : Call R} {u : STrack R} (hhits : u.hits = t.hits)
    (hage : u.age = t.age + 1) (hscore : u.score = t.score) (hclass : u.classId = t.classId)
    (hmiss : u.timeSinceUpdate = t.timeSinceUpdate + c.isUpdate.toNat)
    (hstate : u.state ≠ .tentative → t.state ≠ .tentative) : Evidence cfg (cs ++ [c]) e u := by
  have hlast := h.lt_length _ (List.getLast_mem h.ne_nil)
  have hdet : ∀ p ∈ e, detAt (cs ++ [c]) p = detAt cs p :=
    fun p hp => detAt_append (h.lt_length p hp) [c]
  refine ⟨h.ne_nil, h.increasing, fun p hp => ?_, hhits.trans h.hits, ?_, ?_, ?_, ?_, ?_, ?_, ?_⟩
  · have hlt := h.lt_length p hp
    rw [List.length_append]
    omega
  · rw [hage, h.age, List.length_append, List.length_singleton]
    push_cast
    ring
  · rw [hscore, h.score, hdet _ (List.getLast_mem _)]
  · rw [hclass, h.classId, hdet _ (List.getLast_mem _)]
  · rw [hmiss, h.timeSinceUpdate, List.drop_append_of_le_length hlast, List.countP_append,
      List.countP_singleton]
    cases c <;> rfl
  · rw [hdet _ (List.head_mem _)]
    exact h.birth
  · intro i p hp hi
    rw [hdet p (List.mem_of_getElem? hp)]
    exact h.high i p hp hi
  · intro hs
    rw [hhits]
    exact h.mature (hstate hs)

/-- A match adds its detection to the account of the track.

**Proof sketch.** The new entry is the last one: the score, the class and the miss counter are
read off it, and hits and age count it.  A low score is matched to confirmed tracks only, which
have `n_init` hits before. -/
theorem hit (h : Evidence cfg cs e t) (m : Matcher R) {dets : List (Detection R)} (effDt dt : R)
    (warp : Affine23 R) {j : ℕ}
    (hj : cfg.trackThresh ≤ (dets.getD j default).score ∨ t.state = .confirmed) :
    Evidence cfg (cs ++ [.update m dets dt warp]) (e ++ [(cs.length, j)])
      (markMatched cfg effDt (predictTrack dt warp t) (dets.getD j default)) := by
  have hdet : ∀ p ∈ e, detAt (cs ++ [.update m dets dt warp]) p = detAt cs p :=
    fun p hp => detAt_append (h.lt_length p hp) _
  have hnew := detAt_concat_update cs m dets dt warp j
  have hhits : (markMatched cfg effDt (predictTrack dt warp t) (dets.getD j default)).hits =
    t.hits + 1 := rfl
  have hhead : (e ++ [(cs.length, j)]).head (by simp) = e.head h.ne_nil :=
    List.head_append_of_ne_nil h.ne_nil
  refine ⟨by simp, ?_, ?_, ?_, ?_, ?_, ?_, ?_, ?_, ?_, ?_⟩
  · rw [List.map_append, List.map_singleton, List.pairwise_append]
    refine ⟨h.increasing, List.pairwise_singleton _ _, fun n hn k hk => ?_⟩
    obtain ⟨p, hp, rfl⟩ := List.mem_map.mp hn
    rw [List.mem_singleton.mp hk]
    exact h.lt_length p hp
  · intro p hp
    rw [List.length_append, List.length_singleton]
    rcases List.mem_append.mp hp with hp | hp
    · exact (h.lt_length p hp).trans (Nat.lt_succ_self _)
    · rw [List.mem_singleton.mp hp]
      exact Nat.lt_succ_self _
  · rw [hhits, h.hits, List.length_append, List.length_singleton]
    push_cast
    rfl
  · rw [hhead, List.length_append, List.length_singleton]
    show t.age + 1 = _
    rw [h.age]
    push_cast
    ring
  · rw [List.getLast_append_singleton, hnew]
    rfl
  · rw [List.getLast_append_singleton, hnew]
    rfl
  · rw [List.getLast_append_singleton, List.drop_of_length_le (by simp)]
    rfl
  · rw [hhead, hdet _ (List.head_mem _)]
    exact h.birth
  · intro i p hp hi
    by_cases hlt : i < e.length
    · rw [List.getElem?_append_left hlt] at hp
      rw [hdet p (List.mem_of_getElem? hp)]
      exact h.high i p hp hi
    · -- the new entry, which is low only if the track was confirmed before
      obtain rfl : p = (cs.length, j) := by
        rw [List.getElem?_append_right (not_lt.mp hlt)] at hp
        exact List.mem_singleton.mp (List.mem_of_getElem? hp)
      rw [hnew]
      refine hj.resolve_right fun hs => ?_
      have hn := h.mature (by rw [hs]; decide)
      rw [h.hits] at hn
      omega
  · intro hs
    rw [markMatched_state, predictTrack_state, predictTrack_hits] at hs
    rw [hhits]
    by_cases htent : t.state = .tentative
    · by_contra hlt
      exact hs (by simp [htent, hlt])
    · have hn := h.mature htent
      omega

/-- A spawned track has an account with one entry.

**Proof sketch.** The one entry is the first and the last, and its score passes both thresholds;
the track is confirmed at once only if one hit is enough. -/
theorem spawn (m : Matcher R) {dets : List (Detection R)} (dt : R) (warp : Affine23 R) (id : ℤ)
    {j : ℕ} (hhigh : cfg.trackThresh ≤ (dets.getD j default).score)
    (hnew : cfg.newTrackThresh ≤ (dets.getD j default).score) :
    Evidence cfg (cs ++ [.update m dets dt warp]) [(cs.length, j)]
      (spawnTrack cfg id (dets.getD j default)) := by
  have hdet := detAt_concat_update cs m dets dt warp j
  refine ⟨List.cons_ne_nil _ _, List.pairwise_singleton _ _, ?_, rfl, ?_, ?_, ?_, ?_, ?_, ?_, ?_⟩
  · intro p hp
    rw [List.mem_singleton.mp hp, List.length_append]
    exact Nat.lt_succ_self _
  · rw [List.length_append]
    show (1 : ℤ) = _
    simp
  · exact (congrArg Detection.score hdet).symm
  · exact (congrArg Detection.classId hdet).symm
  · rw [List.getLast_singleton, List.drop_of_length_le (by simp)]
    rfl
  · rw [List.head_singleton, hdet]
    exact ⟨hhigh, hnew⟩
  · intro i p hp _
    rw [List.mem_singleton.mp (List.mem_of_getElem? hp), hdet]
    exact hhigh
  · intro hs
    by_contra hlt
    exact hs (if_neg hlt)

end Evidence

/-- A miss leaves what the last detection said alone. -/
theorem missTrack_detection (t : STrack R) :
    (missTrack t).score = t.score ∧ (missTrack t).classId = t.classId := by
  unfold missTrack
  split_ifs <;> exact ⟨rfl, rfl⟩

namespace ByteTracker

/-- Only a confirmed track is matched with a detection below the track threshold. -/
theorem fate_high (m : Matcher R) (s : ByteTracker R) (dets : List (Detection R)) (dt : R)
    (warp : Affine23 R) {i j : ℕ} {t : STrack R} (ht : s.tracks[i]? = some t)
    (h : s.fate m dets dt warp i = some j) :
    s.cfg.trackThresh ≤ (dets.getD j default).score ∨ t.state = .confirmed := by
  have hmem := Associations.mem_of_fate_eq_some h
  rw [Associations.matched, List.mem_append, List.mem_append] at hmem
  rcases hmem with (hp | hp) | hp
  · exact Or.inl (mem_highDets.mp (stage1_mem _ _ _ _ _ hp).2).2
  · obtain ⟨⟨u, hu, hs⟩, -⟩ := stage2_mem _ _ _ _ _ hp
    rw [getElem?_predicted, ht, Option.map_some] at hu
    obtain rfl := Option.some.inj hu
    exact Or.inr hs
  · exact Or.inl (mem_highDets.mp (stage3_mem _ _ _ _ _ hp).2.1).2

/-- A stored track and its account after a call: both were carried, or both are new.

**Proof sketch.** Ledger and store are compacted by the same indices and appended to by the same
spawners, so the tracks and the accounts at a place have the same origin. -/
theorem account_cases (s : ByteTracker R) {n : ℕ} {b : Ledger (ℕ × ℕ)}
    (hb : b.live.length = s.tracks.length) {c : Call R} {k : ℕ} {e : List (ℕ × ℕ)} {u : STrack R}
    (he : (s.book n b c).live[k]? = some e) (hu : (s.step c).2.tracks[k]? = some u) :
    (∃ i e' t, b.live[i]? = some e' ∧ s.tracks[i]? = some t ∧
      e = e' ++ (s.gain n c i).toList ∧ u = s.carried c i t) ∨
    (∃ m dets dt warp j id, c = .update m dets dt warp ∧ j ∈ s.spawners m dets dt warp ∧
      e = [(n, j)] ∧ u = spawnTrack s.cfg id (dets.getD j default)) := by
  rcases s.carries_or_spawns hu with ⟨i, t, hc, ht, rfl⟩ | hk
  · have hi : i < b.live.length := hb ▸ (List.getElem?_eq_some_iff.mp ht).1
    refine Or.inl ⟨i, _, t, List.getElem?_eq_getElem hi, ht, ?_, rfl⟩
    cases c with
    | coast dt warp =>
      obtain ⟨rfl, -⟩ := hc
      rw [book, List.getElem?_eq_getElem hi] at he
      exact (Option.some.inj he).symm.trans (List.append_nil _).symm
    | update m dets dt warp =>
      have hkept : (kept b.live.length (s.removed m dets dt warp))[k]? = some i := hb ▸ hc
      rw [book, Ledger.getElem?_live_round_of_kept hkept, List.getD_eq_getElem _ _ hi] at he
      exact (Option.some.inj he).symm
  · cases c with
    | coast dt warp => exact hk.elim
    | update m dets dt warp =>
      have hle : (kept b.live.length (s.removed m dets dt warp)).length ≤ k := hb ▸ hk.1
      rw [step, s.getElem?_update_of_le m dets dt warp hk.1, newborns, List.getElem?_mapIdx,
        Option.map_eq_some_iff] at hu
      obtain ⟨j, hj, rfl⟩ := hu
      rw [book, Ledger.getElem?_live_round_of_le hle, hb, List.getElem?_map] at he
      refine Or.inr ⟨m, dets, dt, warp, j, _, rfl, List.mem_of_getElem? hj, ?_, rfl⟩
      have hsame : (s.spawners m dets dt warp)[k - (kept s.tracks.length
          (s.removed m dets dt warp)).length]? = some j := hj
      rw [hsame] at he
      exact (Option.some.inj he).symm

/-- The account of every stored track tells its counters.

**Proof sketch.** By induction on the calls from the end.  The last call idles the track, hits it
or spawns it (`account_cases`), and for each of the three there is a lemma. -/
theorem run_evidence (cfg : AssocConfig R) (cs : List (Call R)) {k : ℕ} {e : List (ℕ × ℕ)}
    {u : STrack R} (he : (ledger cfg cs).live[k]? = some e)
    (hu : ((new cfg).run cs).tracks[k]? = some u) : Evidence cfg cs e u := by
  induction cs using List.reverseRecOn generalizing k e u with
  | nil => exact absurd hu (by simp [new])
  | append_singleton cs c ih =>
    rw [ledger_concat] at he
    rw [run_concat] at hu
    have hcfg : ((new cfg).run cs).cfg = cfg := run_cfg _ cs
    rcases account_cases _ (length_live cfg cs) he hu with
      ⟨i, e', t, he', ht, rfl, rfl⟩ | ⟨m, dets, dt, warp, j, id, rfl, hj, rfl, rfl⟩
    · have h := ih he' ht
      cases c with
      | coast dt warp =>
        rw [gain, Option.toList_none, List.append_nil]
        exact h.idle rfl rfl rfl rfl (add_zero _).symm id
      | update m dets dt warp =>
        cases hf : ((new cfg).run cs).fate m dets dt warp i with
        | none =>
          simp only [gain, carried, settled, settle, hf, Option.map_none, Option.toList_none,
            List.append_nil]
          obtain ⟨hscore, hclass⟩ := missTrack_detection (predictTrack dt warp t)
          refine h.idle (missTrack_hits _) (missTrack_age _) hscore hclass
            (missTrack_timeSinceUpdate _) fun hs htent => hs ?_
          rw [missTrack_of_tentative (t := predictTrack dt warp t) htent]
          exact htent
        | some j =>
          have hhigh := fate_high m _ dets dt warp ht hf
          simp only [gain, carried, settled, settle, hf, Option.map_some, Option.toList_some]
          rw [hcfg] at hhigh ⊢
          exact h.hit m _ dt warp hhigh
    · obtain ⟨-, hhigh, hnew, -⟩ := (mem_spawners m _ dets dt warp).mp hj
      rw [hcfg] at hhigh hnew ⊢
      exact Evidence.spawn m dt warp id hhigh hnew

/-! ## All entries of a run -/

/-- A call of a longer run, with the calls before it: one of the shorter run, or the last one. -/
theorem exists_call_concat {P : List (Call R) → Call R → Prop} (cs : List (Call R)) (c : Call R)
    (n : ℕ) : (∃ d, (cs ++ [c])[n]? = some d ∧ P ((cs ++ [c]).take n) d) ↔
      (∃ d, cs[n]? = some d ∧ P (cs.take n) d) ∨ n = cs.length ∧ P cs c := by
  rcases lt_trichotomy n cs.length with hlt | rfl | hgt
  · rw [List.getElem?_append_left hlt, List.take_append_of_le_length hlt.le]
    exact ⟨Or.inl, fun h => h.resolve_right fun hn => hlt.ne hn.1⟩
  · rw [List.getElem?_concat_length, List.take_left' rfl]
    simp
  · rw [List.getElem?_eq_none (by simp; omega), List.getElem?_eq_none hgt.le]
    simp [hgt.ne']

/-- The ledger holds the detections that the calls of the run used. -/
theorem mem_entries (cfg : AssocConfig R) (cs : List (Call R)) {p : ℕ × ℕ} :
    p ∈ (ledger cfg cs).entries ↔
      ∃ c, cs[p.1]? = some c ∧ p.2 ∈ ((new cfg).run (cs.take p.1)).usedBy c := by
  induction cs using List.reverseRecOn with
  | nil => simp [ledger, ledgerFrom, Ledger.entries]
  | append_singleton cs c ih =>
    rw [ledger_concat, (entries_book _ _ (length_live cfg cs) c).mem_iff, List.mem_append, ih,
      List.mem_map]
    refine Iff.trans (or_congr_right ?_)
      (exists_call_concat (P := fun ds d => p.2 ∈ ((new cfg).run ds).usedBy d) cs c p.1).symm
    constructor
    · rintro ⟨j, hj, rfl⟩
      exact ⟨rfl, hj⟩
    · rintro ⟨hn, hj⟩
      exact ⟨p.2, hj, Prod.ext hn.symm rfl⟩

/-- No detection is booked twice. -/
theorem nodup_entries (cfg : AssocConfig R) (cs : List (Call R)) :
    (ledger cfg cs).entries.Nodup := by
  induction cs using List.reverseRecOn with
  | nil => exact List.nodup_nil
  | append_singleton cs c ih =>
    rw [ledger_concat, (entries_book _ _ (length_live cfg cs) c).nodup_iff]
    refine List.nodup_append'.mpr ⟨ih, ?_, fun p hp hnew => ?_⟩
    · exact (nodup_usedBy _ c).map fun _ _ h => (Prod.mk.inj h).2
    · obtain ⟨d, hd, -⟩ := (mem_entries cfg cs).mp hp
      obtain ⟨j, -, rfl⟩ := List.mem_map.mp hnew
      exact absurd (List.getElem?_eq_some_iff.mp hd).1 (lt_irrefl _)

end ByteTracker

end Ctrk
