import RemoteManagement.Library.GuardedRun
import Mathlib

/-!
# Potentials

Every step of a run costs one, and its event may bring something in. A run is
then no longer than what there was at its start and what its events brought in.
The potential of a family of threads is the sum of those of their places.
-/

namespace Potential

open GuardedRun Finset

universe u v w

section Runs

variable {State : Type u} {Event : Type v}

theorem run_length_le {step : State → Event → Option State} {guard : State → Event → Prop}
    {inv : State → Prop} {potential : State → Nat} {income : Event → Nat}
    (preserved : ∀ s e t, inv s → guard s e → step s e = some t → inv t)
    (pays : ∀ s e t, inv s → guard s e → step s e = some t →
      potential t + 1 ≤ potential s + income e)
    {s t : State} {es : List Event} (hs : inv s) (guarded : Guarded step guard s es)
    (arrives : run step s es = some t) :
    potential t + es.length ≤ potential s + (es.map income).sum := by
  induction es generalizing s with
  | nil =>
    obtain rfl := Option.some.inj arrives
    exact le_rfl
  | cons e es ih =>
    obtain ⟨u, first, rest⟩ := Option.bind_eq_some_iff.mp arrives
    have one := pays s e u hs guarded.1 first
    have all := ih (preserved s e u hs guarded.1 first) (guarded.2 u first) rest
    rw [List.length_cons, List.map_cons, List.sum_cons]
    omega

end Runs

section Threads

variable {Thread : Type v} {Place : Type w} [Fintype Thread]

def load (weight : Place → Nat) (places : Thread → Place) : Nat := ∑ t, weight (places t)

/-- One thread moves, and what the others carry stays. -/
theorem load_update [DecidableEq Thread] (weight : Place → Nat) (places : Thread → Place)
    (t : Thread) (place : Place) :
    load weight (Function.update places t place) + weight (places t) =
      load weight places + weight place := by
  have others : ∑ u ∈ univ.erase t, weight (Function.update places t place u) =
      ∑ u ∈ univ.erase t, weight (places u) :=
    sum_congr rfl fun u hu => by rw [Function.update_of_ne (ne_of_mem_erase hu)]
  simp only [load, ← add_sum_erase univ _ (mem_univ t), others, Function.update_self]
  omega

end Threads

end Potential
