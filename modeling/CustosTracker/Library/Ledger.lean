import CustosTracker.Library.Indexed

set_option relaxedAutoImplicit false
set_option autoImplicit false

/-!
# Ledgers of accounts

Accounts that receive entries in rounds.  A round closes the flagged accounts, gives some of the
others one entry each, and opens new accounts with one entry each.  No entry is ever lost: the
entries after a round are those before it, the ones given out and the ones that open accounts.

## Main definitions

* `Ledger` — the open accounts, in order, and the closed ones.
* `Ledger.round` — one round.

## Main results

* `Ledger.entries_round` — what a round adds to the entries.
* `Ledger.getElem?_live_round_of_kept`, `Ledger.getElem?_live_round_of_le` — the accounts after it.
-/

open Indexed
open scoped List

/-- Open and closed accounts, each the list of its entries. -/
structure Ledger (ε : Type) where
  live : List (List ε) := []
  closed : List (List ε) := []

namespace Ledger

variable {ε : Type}

/-- All entries of a ledger. -/
def entries (b : Ledger ε) : List ε := b.closed.flatten ++ b.live.flatten

/-- One round: close the flagged accounts, let the others gain, and open new ones. -/
def round (b : Ledger ε) (flagged : List ℕ) (gain : ℕ → Option ε) (births : List ε) : Ledger ε where
  live := ((kept b.live.length flagged).map fun i => b.live.getD i [] ++ (gain i).toList) ++
    births.map fun e => [e]
  closed := b.closed ++ flagged.map fun i => b.live.getD i []

section Round

variable {b : Ledger ε} {flagged : List ℕ} {gain : ℕ → Option ε} {births : List ε}

/-- The accounts that stay open come first. -/
theorem getElem?_live_round_of_kept {i k : ℕ}
    (h : (kept b.live.length flagged)[k]? = some i) :
    (b.round flagged gain births).live[k]? = some (b.live.getD i [] ++ (gain i).toList) := by
  have hk := (List.getElem?_eq_some_iff.mp h).1
  rw [round, List.getElem?_append_left (by rwa [List.length_map]), List.getElem?_map, h]
  rfl

/-- The new accounts follow. -/
theorem getElem?_live_round_of_le {k : ℕ} (h : (kept b.live.length flagged).length ≤ k) :
    (b.round flagged gain births).live[k]? =
      births[k - (kept b.live.length flagged).length]?.map fun e => [e] := by
  rw [round, List.getElem?_append_right (by rwa [List.length_map]), List.length_map,
    List.getElem?_map]

theorem length_live_round : (b.round flagged gain births).live.length =
    (kept b.live.length flagged).length + births.length := by
  rw [round, List.length_append, List.length_map, List.length_map]

/-- The kept and the flagged accounts are all accounts. -/
theorem kept_append_perm {n : ℕ} (hnd : flagged.Nodup) (hlt : ∀ i ∈ flagged, i < n) :
    kept n flagged ++ flagged ~ List.range n := by
  refine (List.perm_ext_iff_of_nodup ?_ List.nodup_range).mpr fun i => ?_
  · refine List.nodup_append'.mpr ⟨List.nodup_range.filter _, hnd, fun i hi hf => ?_⟩
    exact (mem_kept.mp hi).2 hf
  · rw [List.mem_append, mem_kept, List.mem_range]
    constructor
    · rintro (h | h)
      · exact h.1
      · exact hlt i h
    · intro h
      by_cases hf : i ∈ flagged
      · exact Or.inr hf
      · exact Or.inl ⟨h, hf⟩

/-- Accounts that gain, apart from what they gain. -/
theorem flatten_map_gain_perm (acct : ℕ → List ε) (gain : ℕ → Option ε) (is : List ℕ) :
    (is.map fun i => acct i ++ (gain i).toList).flatten ~
      (is.map acct).flatten ++ is.filterMap gain := by
  rw [← List.flatMap_def, ← List.flatMap_def, List.filterMap_eq_flatMap_toList]
  exact (List.flatMap_append_perm is acct fun i => (gain i).toList).symm

/-- **No entry is lost.** A round that flags each account at most once, and no account that gains,
adds the gained entries and the ones that open accounts.

**Proof sketch.** The accounts are split into flagged ones, which are closed with their entries,
and kept ones, which gain.  Flattening the kept accounts after their gains rearranges their
entries and the gained ones, and no flagged account gains anything. -/
theorem entries_round (hnd : flagged.Nodup) (hlt : ∀ i ∈ flagged, i < b.live.length)
    (hgain : ∀ i ∈ flagged, gain i = none) :
    (b.round flagged gain births).entries ~
      b.entries ++ ((List.range b.live.length).filterMap gain ++ births) := by
  have hperm := kept_append_perm hnd hlt
  have hlive : (flagged.map fun i => b.live.getD i []).flatten ++
      ((kept b.live.length flagged).map fun i => b.live.getD i []).flatten ~ b.live.flatten := by
    rw [← List.flatten_append, ← List.map_append]
    refine ((List.perm_append_comm.trans hperm).map _).flatten.trans ?_
    rw [map_getD_range]
  have hgains : (kept b.live.length flagged).filterMap gain ~
      (List.range b.live.length).filterMap gain := by
    have hnone : flagged.filterMap gain = [] := List.filterMap_eq_nil_iff.mpr hgain
    have h := hperm.filterMap gain
    rwa [List.filterMap_append, hnone, List.append_nil] at h
  have hbirths : (births.map fun e => [e]).flatten = births := by
    rw [← List.flatMap_def, List.flatMap_singleton']
  rw [entries, round, List.flatten_append, List.flatten_append, hbirths]
  have hopen := flatten_map_gain_perm (fun i => b.live.getD i []) gain
    (kept b.live.length flagged)
  refine ((hopen.append_right births).append_left _).trans ?_
  -- the accounts closed by this round go back among the open ones
  have hsplit := (hlive.append_left b.closed.flatten).append (hgains.append_right births)
  simpa only [entries, List.append_assoc] using hsplit

end Round

end Ledger
