import Mathlib.LinearAlgebra.AffineSpace.AffineMap
import Mathlib.Tactic

set_option relaxedAutoImplicit false
set_option autoImplicit false

/-!
# Motion seen by a moving camera

A point drifts with its velocity for some time, and then the frame of reference is changed by an
affine map, which carries the point along and turns the velocity by its linear part.  Over many
such moves all drifts may be done first, and all changes of frame afterwards.

## Main definitions

* `AffineMotion.move` — drift, then change the frame.
* `AffineMotion.composed` — all changes of frame in one.

## Main results

* `AffineMotion.foldl_move` — the closed form of a sequence of moves.
-/

namespace AffineMotion

variable {K V : Type} [Ring K] [AddCommGroup V] [Module K V]

/-- Drift for the time `m.1`, then change the frame by `m.2`: a position and a velocity. -/
def move (s : V × V) (m : K × (V →ᵃ[K] V)) : V × V :=
  (m.2 (s.1 + m.1 • s.2), m.2.linear s.2)

/-- The changes of frame of a sequence of moves, the first one innermost. -/
def composed (ms : List (K × (V →ᵃ[K] V))) : V →ᵃ[K] V :=
  ms.foldl (fun W m => m.2.comp W) (AffineMap.id K V)

/-- The time of a sequence of moves. -/
def elapsed (ms : List (K × (V →ᵃ[K] V))) : K := (ms.map Prod.fst).sum

theorem composed_concat (ms : List (K × (V →ᵃ[K] V))) (m : K × (V →ᵃ[K] V)) :
    composed (ms ++ [m]) = m.2.comp (composed ms) := by
  rw [composed, List.foldl_append]
  rfl

theorem elapsed_concat (ms : List (K × (V →ᵃ[K] V))) (m : K × (V →ᵃ[K] V)) :
    elapsed (ms ++ [m]) = elapsed ms + m.1 := by
  simp [elapsed]

/-- **The closed form.** A point that drifts and is carried along ends where one drift for the whole
time and all changes of frame in turn lead it; its velocity is turned by all linear parts.

**Proof sketch.** Induction from the last move.  The velocity at that time is the first one turned
by the frames so far, so the last drift is the image of a drift before them. -/
theorem foldl_move (ms : List (K × (V →ᵃ[K] V))) (p v : V) :
    ms.foldl move (p, v) = (composed ms (p + elapsed ms • v), (composed ms).linear v) := by
  induction ms using List.reverseRecOn with
  | nil => simp [composed, elapsed]
  | append_singleton ms m ih =>
    have hdrift : composed ms (p + elapsed ms • v) + m.1 • (composed ms).linear v =
        composed ms (p + (elapsed ms + m.1) • v) := by
      calc composed ms (p + elapsed ms • v) + m.1 • (composed ms).linear v
          = (composed ms).linear (m.1 • v) +ᵥ composed ms (p + elapsed ms • v) := by
            rw [map_smul, vadd_eq_add, add_comm]
        _ = composed ms (m.1 • v +ᵥ (p + elapsed ms • v)) :=
            ((composed ms).map_vadd _ _).symm
        _ = composed ms (p + (elapsed ms + m.1) • v) := by
            rw [vadd_eq_add, add_smul, add_comm (m.1 • v), add_assoc]
    rw [List.foldl_append, ih, List.foldl_cons, List.foldl_nil, move, composed_concat,
      elapsed_concat, hdrift]
    rfl

end AffineMotion
