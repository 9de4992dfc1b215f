import CustosTracker.Tbd.Provenance

set_option relaxedAutoImplicit false
set_option autoImplicit false

/-!
# Tracks replayed one by one

A stored track, its filter included, is computed from its own detections and the time steps and
warps of the calls.  Other tracks and other detections matter only through the matches: a tracker
that follows a single track, with its account as the script, ends with the same track.

## Main definitions

* `Ctrk.script` — the detections of an account, each under the number of its call.
* `Ctrk.replay` — the single-track tracker.

## Main results

* `Ctrk.ByteTracker.run_replay` — every stored track is the replay of its account.
* `Ctrk.ByteTracker.isolation` — two runs that give a track the same detections agree on it.
-/

namespace Ctrk

variable {R : Type} [Scalar R]

/-- The detections of an account, each under the number of its call. -/
def script (cs : List (Call R)) (e : List (ℕ × ℕ)) : List (ℕ × Detection R) :=
  e.map fun p => (p.1, detAt cs p)

/-- A tracker that follows a single track, once it is spawned. -/
structure Replay (R : Type) [Scalar R] where
  coastedDt : R := 0
  calls : ℕ := 0
  track : Option (STrack R) := none

namespace Replay

/-- What an update does to a predicted track, given the detection it was matched to. -/
def correct (cfg : AssocConfig R) (effDt : R) (t : STrack R) : Option (Detection R) → STrack R
  | some det => markMatched cfg effDt t det
  | none => missTrack t

/-- One call of the single-track tracker.  It ignores the detections of the call: the script says
which detection spawns or corrects the track. -/
def step (cfg : AssocConfig R) (id : ℤ) (sc : List (ℕ × Detection R)) (r : Replay R) :
    Call R → Replay R
  | .update _ _ dt warp =>
    { coastedDt := 0
      calls := r.calls + 1
      track := match r.track with
        | some t => some (correct cfg (r.coastedDt + dt) (predictTrack dt warp t)
            (sc.lookup r.calls))
        | none => (sc.lookup r.calls).map (spawnTrack cfg id) }
  | .coast dt warp =>
    { coastedDt := r.coastedDt + dt
      calls := r.calls + 1
      track := r.track.map (advance dt warp) }

end Replay

/-- The single-track tracker after a sequence of calls. -/
def replay (cfg : AssocConfig R) (id : ℤ) (sc : List (ℕ × Detection R)) (cs : List (Call R)) :
    Replay R := cs.foldl (Replay.step cfg id sc) {}

theorem settle_eq_correct (cfg : AssocConfig R) (effDt : R) (dets : List (Detection R))
    (fate : Option ℕ) (t : STrack R) : settle cfg effDt dets fate t =
      Replay.correct cfg effDt t (fate.map fun j => dets.getD j default) := by
  cases fate <;> rfl

/-! ## Scripts -/

section Script

variable {cs : List (Call R)} {e : List (ℕ × ℕ)}

theorem mem_script_fst {p : ℕ × Detection R} (h : p ∈ script cs e) : ∃ q ∈ e, q.1 = p.1 := by
  obtain ⟨q, hq, rfl⟩ := List.mem_map.mp h
  exact ⟨q, hq, rfl⟩

theorem lookup_script_eq_none {n : ℕ} (h : ∀ p ∈ e, p.1 ≠ n) :
    (script cs e).lookup n = none := by
  rw [List.lookup_eq_none_iff]
  intro p hp
  obtain ⟨q, hq, hqp⟩ := mem_script_fst hp
  simpa [← hqp] using (h q hq).symm

/-- An account that held no entry of the last call has the script it had before. -/
theorem script_concat (h : ∀ p ∈ e, p.1 < cs.length) (c : Call R) :
    script (cs ++ [c]) e = script cs e :=
  List.map_congr_left fun p hp => by rw [detAt_append (h p hp)]

end Script

/-! ## Replays -/

section Replay

variable {cfg : AssocConfig R} {id : ℤ} {sc : List (ℕ × Detection R)}

theorem replay_concat (cs : List (Call R)) (c : Call R) :
    replay cfg id sc (cs ++ [c]) = (replay cfg id sc cs).step cfg id sc c := List.foldl_append

@[simp] theorem replay_calls (cs : List (Call R)) : (replay cfg id sc cs).calls = cs.length := by
  induction cs using List.reverseRecOn with
  | nil => rfl
  | append_singleton cs c ih =>
    rw [replay_concat, List.length_append, List.length_singleton, ← ih]
    cases c <;> rfl

/-- The single-track tracker and the tracker agree on the time they coasted. -/
theorem replay_coastedDt (cs : List (Call R)) :
    (replay cfg id sc cs).coastedDt = ((ByteTracker.new cfg).run cs).coastedDt := by
  induction cs using List.reverseRecOn with
  | nil => rfl
  | append_singleton cs c ih =>
    rw [replay_concat, ByteTracker.run_concat]
    cases c with
    | update m dets dt warp => rfl
    | coast dt warp => exact congrArg (· + dt) ih

/-- Lines of the script for calls that are still to come do not matter. -/
theorem replay_congr {sc' : List (ℕ × Detection R)} {cs : List (Call R)}
    (h : ∀ n < cs.length, sc.lookup n = sc'.lookup n) :
    replay cfg id sc cs = replay cfg id sc' cs := by
  induction cs using List.reverseRecOn with
  | nil => rfl
  | append_singleton cs c ih =>
    rw [List.length_append, List.length_singleton] at h
    have hn := h cs.length (Nat.lt_succ_self _)
    rw [replay_concat, replay_concat, ih fun n hlt => h n (Nat.lt_succ_of_lt hlt)]
    cases c with
    | coast dt warp => rfl
    | update m dets dt warp => rw [Replay.step, Replay.step, replay_calls, hn]

/-- With an empty script there is no track. -/
theorem replay_nil_track (cs : List (Call R)) : (replay cfg id [] cs).track = none := by
  induction cs using List.reverseRecOn with
  | nil => rfl
  | append_singleton cs c ih =>
    rw [replay_concat]
    cases c with
    | coast dt warp => rw [Replay.step, ih, Option.map_none]
    | update m dets dt warp => simp only [Replay.step, ih, List.lookup_nil, Option.map_none]

end Replay

/-! ## Every stored track is a replay -/

namespace ByteTracker

/-- The script of an account after a call: its old one, and the detection the call matched.

**Proof sketch.** The new entry of the account is numbered by the new call and the old entries by
earlier ones, so each lookup finds only the one or only the others. -/
theorem lookup_script_gain (s : ByteTracker R) {cs : List (Call R)} {e : List (ℕ × ℕ)}
    (he : ∀ p ∈ e, p.1 < cs.length) (c : Call R) (i : ℕ) :
    (∀ n < cs.length, (script (cs ++ [c]) (e ++ (s.gain cs.length c i).toList)).lookup n =
      (script cs e).lookup n) ∧
    (script (cs ++ [c]) (e ++ (s.gain cs.length c i).toList)).lookup cs.length =
      (s.gain cs.length c i).map (detAt (cs ++ [c])) := by
  have hold : (script cs e).lookup cs.length = none :=
    lookup_script_eq_none fun p hp => (he p hp).ne
  have hsplit : script (cs ++ [c]) (e ++ (s.gain cs.length c i).toList) =
      script cs e ++ script (cs ++ [c]) (s.gain cs.length c i).toList := by
    rw [← script_concat he c]
    exact List.map_append
  rw [hsplit]
  cases hg : s.gain cs.length c i with
  | none => exact ⟨fun n _ => by simp [script], by simpa [script] using hold⟩
  | some p =>
    have hp : p.1 = cs.length := by
      cases c with
      | coast dt warp => exact nomatch hg
      | update m dets dt warp =>
        obtain ⟨j, -, rfl⟩ := Option.map_eq_some_iff.mp hg
        rfl
    refine ⟨fun n hn => ?_, ?_⟩
    · have hne : (script (cs ++ [c]) (some p).toList).lookup n = none :=
        lookup_script_eq_none fun q hq => by
          rw [List.mem_singleton.mp hq, hp]
          exact hn.ne'
      rw [List.lookup_append, hne, Option.or_none]
    · rw [List.lookup_append, hold, Option.none_or]
      simp [script, hp]

/-- **Every stored track is the replay of its account.**

**Proof sketch.** Induction over the calls. The single-track tracker does to its track what the
call does to the stored one, since the account holds the fate of the track as its last entry; an
account that the call opened has its only entry there. -/
theorem run_replay (cfg : AssocConfig R) (cs : List (Call R)) {k : ℕ} {e : List (ℕ × ℕ)}
    {u : STrack R} (he : (ledger cfg cs).live[k]? = some e)
    (hu : ((new cfg).run cs).tracks[k]? = some u) :
    (replay cfg u.id (script cs e) cs).track = some u := by
  induction cs using List.reverseRecOn generalizing k e u with
  | nil => exact absurd hu (by simp [new])
  | append_singleton cs c ih =>
    rw [ledger_concat] at he
    rw [run_concat] at hu
    have hcfg : ((new cfg).run cs).cfg = cfg := run_cfg _ cs
    rw [replay_concat]
    rcases account_cases _ (length_live cfg cs) he hu with
      ⟨i, e', t, he', ht, rfl, rfl⟩ | ⟨m, dets, dt, warp, j, id, rfl, hj, rfl, rfl⟩
    · have htrack := ih he' ht
      obtain ⟨hbefore, hnow⟩ := lookup_script_gain ((new cfg).run cs)
        (run_evidence cfg cs he' ht).lt_length c i
      rw [carried_id, replay_congr hbefore]
      cases c with
      | coast dt warp => rw [Replay.step, htrack, Option.map_some, carried]
      | update m dets dt warp =>
        have hfate : (((new cfg).run cs).gain cs.length (.update m dets dt warp) i).map
            (detAt (cs ++ [.update m dets dt warp])) =
            (((new cfg).run cs).fate m dets dt warp i).map fun j => dets.getD j default := by
          rw [gain, Option.map_map]
          exact Option.map_congr fun j _ => detAt_concat_update cs m dets dt warp j
        simp only [Replay.step, htrack, replay_calls, replay_coastedDt, hnow, hfate, carried,
          settled, settle_eq_correct, hcfg]
    · have hscript : script (cs ++ [.update m dets dt warp]) [(cs.length, j)] =
          [(cs.length, dets.getD j default)] := by
        simp [script, detAt_concat_update]
      have hempty : replay cfg id [(cs.length, dets.getD j default)] cs = replay cfg id [] cs :=
        replay_congr fun n hn => by simp [hn.ne]
      have hnone := (congrArg Replay.track hempty).trans (replay_nil_track cs)
      rw [hcfg, hscript]
      show ((replay cfg id _ cs).step cfg id _ _).track = _
      simp only [Replay.step, hnone, replay_calls, List.lookup_cons_self, Option.map_some]

end ByteTracker

/-! ## What a replay looks at -/

/-- What a call says apart from its detections and how they are matched. -/
def Call.timing (c : Call R) : Bool × R × Affine23 R := (c.isUpdate, c.dt, c.warp)

/-- The track under another id. -/
def STrack.withId (id : ℤ) (t : STrack R) : STrack R := { t with id := id }

/-- A call of the single-track tracker looks at the timing only. -/
theorem Replay.step_congr {cfg : AssocConfig R} {id : ℤ} {sc : List (ℕ × Detection R)}
    (r : Replay R) {c d : Call R} (h : c.timing = d.timing) :
    r.step cfg id sc c = r.step cfg id sc d := by
  cases c <;> cases d <;>
    simp only [Call.timing, Call.isUpdate, Call.dt, Call.warp, Prod.mk.injEq, reduceCtorEq,
      false_and] at h
  all_goals
    obtain ⟨-, rfl, rfl⟩ := h
    rfl

theorem replay_timing {cfg : AssocConfig R} {id : ℤ} {sc : List (ℕ × Detection R)}
    {cs ds : List (Call R)} (h : cs.map Call.timing = ds.map Call.timing) :
    replay cfg id sc cs = replay cfg id sc ds := by
  induction cs using List.reverseRecOn generalizing ds with
  | nil =>
    rw [List.map_nil, eq_comm, List.map_eq_nil_iff] at h
    rw [h]
  | append_singleton cs c ih =>
    rw [List.map_append, eq_comm, List.map_eq_append_iff] at h
    obtain ⟨ds, es, rfl, hds, hes⟩ := h
    obtain ⟨d, rfl, hd⟩ := List.map_eq_singleton_iff.mp hes
    rw [replay_concat, replay_concat, ih hds.symm]
    exact Replay.step_congr _ hd.symm

theorem Replay.correct_withId (cfg : AssocConfig R) (effDt : R) (id : ℤ) (t : STrack R)
    (d : Option (Detection R)) :
    correct cfg effDt (t.withId id) d = (correct cfg effDt t d).withId id := by
  cases d with
  | some det => rfl
  | none =>
    show missTrack (t.withId id) = (missTrack t).withId id
    unfold missTrack STrack.withId
    split_ifs <;> rfl

/-- The id of a replayed track is a name only. -/
theorem replay_withId (cfg : AssocConfig R) (id id' : ℤ) (sc : List (ℕ × Detection R))
    (cs : List (Call R)) :
    (replay cfg id' sc cs).track = (replay cfg id sc cs).track.map (STrack.withId id') := by
  induction cs using List.reverseRecOn with
  | nil => rfl
  | append_singleton cs c ih =>
    rw [replay_concat, replay_concat]
    cases c with
    | coast dt warp =>
      rw [Replay.step, Replay.step, ih, Option.map_map, Option.map_map]
      rfl
    | update m dets dt warp =>
      simp only [Replay.step, ih, replay_calls, replay_coastedDt]
      cases (replay cfg id sc cs).track with
      | some t => exact congrArg some (Replay.correct_withId cfg _ id' (predictTrack dt warp t) _)
      | none =>
        rw [Option.map_none, Option.map_map]
        rfl

namespace ByteTracker

/-- Up to its id, the track an account stands for is the replay of the account. -/
theorem getElem?_tracks_of_account (cfg : AssocConfig R) (cs : List (Call R)) {k : ℕ}
    {e : List (ℕ × ℕ)} (he : (ledger cfg cs).live[k]? = some e) :
    ((new cfg).run cs).tracks[k]?.map (STrack.withId 0) = (replay cfg 0 (script cs e) cs).track := by
  have hk := (List.getElem?_eq_some_iff.mp he).1
  rw [length_live] at hk
  have hu := List.getElem?_eq_getElem hk
  rw [replay_withId cfg _ 0, run_replay cfg cs he hu, hu]

/-- **Tracks do not see each other.** Take two runs of fresh trackers whose calls agree in kind,
time step and warp, with any detections and any association procedures.  If a stored track of the
one and a stored track of the other got the same detections in the same calls, they are the same
track, filter, counters and descriptor included, except for the id.

**Proof sketch.** Both are replays of one script (`run_replay`), and a replay looks at nothing
else but the timing (`replay_timing`). -/
theorem isolation (cfg : AssocConfig R) {cs ds : List (Call R)}
    (htime : cs.map Call.timing = ds.map Call.timing) {k l : ℕ} {e f : List (ℕ × ℕ)}
    (he : (ledger cfg cs).live[k]? = some e) (hf : (ledger cfg ds).live[l]? = some f)
    (hsame : script cs e = script ds f) :
    ((new cfg).run cs).tracks[k]?.map (STrack.withId 0) =
      ((new cfg).run ds).tracks[l]?.map (STrack.withId 0) := by
  rw [getElem?_tracks_of_account cfg cs he, getElem?_tracks_of_account cfg ds hf, hsame,
    replay_timing htime]

/-- An object that is detected twice, and the same object beside another one that was there
before it. -/
theorem isolation_bystander :
    let a : Detection ℚ := ⟨⟨0, 0, 2, 2⟩, 1, 0, []⟩
    let b : Detection ℚ := ⟨⟨9, 9, 2, 2⟩, 1, 0, []⟩
    let cs : List (Call ℚ) := [.update iouMatcher [] 1 .id, .update iouMatcher [a] 1 .id,
      .coast 1 .id, .update iouMatcher [a] 1 .id]
    let ds : List (Call ℚ) := [.update iouMatcher [b] 1 .id, .update iouMatcher [b, a] 1 .id,
      .coast 1 .id, .update iouMatcher [a, b] 1 .id]
    (ledger {} cs).live = [[(1, 0), (3, 0)]] ∧
      (ledger {} ds).live = [[(0, 0), (1, 0), (3, 1)], [(1, 1), (3, 0)]] ∧
      ((new {}).run cs).tracks[0]?.map (STrack.withId 0) =
        ((new {}).run ds).tracks[1]?.map (STrack.withId 0) := by
  intro a b cs ds
  have hcs : (ledger {} cs).live = [[(1, 0), (3, 0)]] := by decide +kernel
  have hds : (ledger {} ds).live = [[(0, 0), (1, 0), (3, 1)], [(1, 1), (3, 0)]] := by
    decide +kernel
  have he : (ledger {} cs).live[0]? = some [(1, 0), (3, 0)] := by
    rw [hcs]
    rfl
  have hf : (ledger {} ds).live[1]? = some [(1, 1), (3, 0)] := by
    rw [hds]
    rfl
  exact ⟨hcs, hds, isolation {} (by rfl) he hf (by rfl)⟩

end ByteTracker

end Ctrk
