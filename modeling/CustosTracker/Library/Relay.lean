import Mathlib

set_option relaxedAutoImplicit false
set_option autoImplicit false

/-!
# Relays through a bounded queue

A sender appends messages to a queue that keeps the last `depth` of them, the transport may lose
any message, and a receiver takes messages from the front.  What the receiver got and what is
queued is a subsequence of what was sent; as long as nothing is dropped or lost, it is all of it.

## Main definitions

* `Relay.push` — append to a queue that keeps its last messages.
* `Relay.Relays`, `Relay.Complete` — the two conservation laws.

## Main results

* `Relay.Relays.push`, `Relay.Relays.pop`, `Relay.Relays.lose` — no message is doubled or
  reordered.
* `Relay.Complete.push`, `Relay.Complete.pop` — while there is room no message is dropped.
-/

namespace Relay

variable {α : Type}

/-- Append to a queue that keeps the last `depth` messages. -/
def push (depth : ℕ) (queue : List α) (x : α) : List α :=
  (queue ++ [x]).drop (queue.length + 1 - depth)

theorem push_sublist (depth : ℕ) (queue : List α) (x : α) :
    (push depth queue x).Sublist (queue ++ [x]) :=
  List.drop_sublist _ _

/-- With room in the queue nothing is dropped. -/
theorem push_of_lt {depth : ℕ} {queue : List α} (h : queue.length < depth) (x : α) :
    push depth queue x = queue ++ [x] := by
  have hroom : queue.length + 1 - depth = 0 := by omega
  rw [push, hroom, List.drop_zero]

theorem push_nil {depth : ℕ} (h : 1 ≤ depth) (x : α) : push depth [] x = [x] := push_of_lt h x

/-! ## Conservation -/

/-- What was received and what is queued is a subsequence of what was sent. -/
def Relays (sent received queue : List α) : Prop := (received ++ queue).Sublist sent

/-- What was received and what is queued is all that was sent. -/
def Complete (sent received queue : List α) : Prop := received ++ queue = sent

section Conservation

variable {sent received queue : List α} {x : α}

theorem Complete.relays (h : Complete sent received queue) : Relays sent received queue := by
  rw [Relays, h]

/-- The receiver has got a prefix of what was sent. -/
theorem Complete.isPrefix (h : Complete sent received queue) : received <+: sent := ⟨queue, h⟩

/-- What was received is a subsequence of what was sent. -/
theorem Relays.received_sublist (h : Relays sent received queue) : received.Sublist sent :=
  (List.sublist_append_left received queue).trans h

theorem Relays.push (h : Relays sent received queue) (depth : ℕ) (x : α) :
    Relays (sent ++ [x]) received (push depth queue x) := by
  have hqueue := (List.Sublist.refl received).append (push_sublist depth queue x)
  rw [← List.append_assoc] at hqueue
  exact hqueue.trans (List.Sublist.append h (List.Sublist.refl [x]))

theorem Relays.pop (h : Relays sent received (x :: queue)) : Relays sent (received ++ [x]) queue := by
  rw [Relays, List.append_assoc]
  exact h

theorem Relays.lose (h : Relays sent received queue) (i : ℕ) :
    Relays sent received (queue.eraseIdx i) :=
  ((List.Sublist.refl received).append (List.eraseIdx_sublist queue i)).trans h

theorem Complete.push (h : Complete sent received queue) {depth : ℕ} (hroom : queue.length < depth)
    (x : α) : Complete (sent ++ [x]) received (push depth queue x) := by
  rw [Complete, push_of_lt hroom, ← List.append_assoc, h]

theorem Complete.pop (h : Complete sent received (x :: queue)) :
    Complete sent (received ++ [x]) queue := by
  rw [Complete, List.append_assoc]
  exact h

end Conservation

end Relay
