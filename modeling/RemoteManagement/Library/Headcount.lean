import Mathlib.Algebra.BigOperators.Group.Finset.Basic
import Mathlib.Algebra.Order.BigOperators.Group.Finset
import Mathlib.Data.Fintype.Basic

/-!
# Counting the threads at a place

The number of threads whose place has a property, and what the move of one
thread does to it.
-/

namespace Headcount

open Finset

universe u v

variable {Thread : Type u} {Place : Type v} [Fintype Thread]

def headcount (p : Place → Bool) (places : Thread → Place) : Nat :=
  ∑ t, (p (places t)).toNat

/-- One thread moves: the count loses its old place and gains its new one. -/
theorem headcount_update [DecidableEq Thread] (p : Place → Bool) (places : Thread → Place)
    (t : Thread) (place : Place) :
    headcount p (Function.update places t place) + (p (places t)).toNat =
      headcount p places + (p place).toNat := by
  have others : ∑ u ∈ univ.erase t, (p (Function.update places t place u)).toNat =
      ∑ u ∈ univ.erase t, (p (places u)).toNat :=
    sum_congr rfl fun u hu => by rw [Function.update_of_ne (ne_of_mem_erase hu)]
  simp only [headcount, ← add_sum_erase univ _ (mem_univ t), others, Function.update_self]
  omega

theorem headcount_update_of_eq [DecidableEq Thread] {p : Place → Bool} {places : Thread → Place}
    {t : Thread} {place : Place} (same : p (places t) = p place) :
    headcount p (Function.update places t place) = headcount p places := by
  have count := headcount_update p places t place
  rw [same] at count
  omega

theorem headcount_eq_zero {p : Place → Bool} {places : Thread → Place}
    (none : ∀ t, p (places t) = false) : headcount p places = 0 := by
  simp [headcount, none]

end Headcount
