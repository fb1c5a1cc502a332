import Mathlib.Algebra.Order.Ring.Int
import Mathlib.Algebra.Order.BigOperators.Group.List

/-!
# Arithmetic on longs

A result that does not fit in 64 bits is undefined. A sum of numbers that are
not negative is defined exactly if it fits as a whole, since it only grows, and
a list of results if each of them is.
-/

namespace LongArithmetic

universe u v

def InLong (n : Int) : Prop := -2 ^ 63 ≤ n ∧ n < 2 ^ 63

instance (n : Int) : Decidable (InLong n) := inferInstanceAs (Decidable (_ ∧ _))

def checked (n : Int) : Option Int := if InLong n then some n else none

/-- The numbers are added from left to right. -/
def sumFrom (start : Int) (l : List Int) : Option Int :=
  l.foldlM (fun acc n => checked (acc + n)) start

theorem sumFrom_eq {l : List Int} (nonneg : ∀ n ∈ l, 0 ≤ n) {start : Int} (h0 : 0 ≤ start)
    (fits : start < 2 ^ 63) :
    sumFrom start l = if start + l.sum < 2 ^ 63 then some (start + l.sum) else none := by
  induction l generalizing start with
  | nil =>
    rw [List.sum_nil, add_zero, if_pos fits]
    rfl
  | cons n l ih =>
    simp only [List.forall_mem_cons] at nonneg
    have rest : 0 ≤ l.sum := List.sum_nonneg nonneg.2
    have assoc : start + (n :: l).sum = start + n + l.sum := by
      rw [List.sum_cons, add_assoc]
    have first : sumFrom start (n :: l) = (checked (start + n)).bind (sumFrom · l) := rfl
    rw [first, assoc]
    by_cases next : start + n < 2 ^ 63
    · have inside : InLong (start + n) := ⟨by omega, next⟩
      rw [checked, if_pos inside, Option.bind_some, ih nonneg.2 (by omega) next]
    · have outside : ¬ InLong (start + n) := fun inside => next inside.2
      rw [checked, if_neg outside, if_neg (by omega)]
      rfl

theorem mapM_eq_some {α : Type u} {β : Type v} {f : α → Option β} {g : α → β} {l : List α}
    (defined : ∀ a ∈ l, f a = some (g a)) : l.mapM f = some (l.map g) := by
  induction l with
  | nil => rfl
  | cons a l ih =>
    rw [List.forall_mem_cons] at defined
    rw [List.mapM_cons, defined.1, ih defined.2]
    rfl

theorem length_of_mapM_eq_some {α : Type u} {β : Type v} {f : α → Option β} {l : List α}
    {r : List β} (h : l.mapM f = some r) : r.length = l.length := by
  induction l generalizing r with
  | nil =>
    obtain rfl := Option.some.inj h
    rfl
  | cons a l ih =>
    rw [List.mapM_cons] at h
    simp only [Option.bind_eq_bind, Option.bind_eq_some_iff, pure, Option.some.injEq] at h
    obtain ⟨b, -, rest, hrest, rfl⟩ := h
    rw [List.length_cons, List.length_cons, ih hrest]

/-- Where a step is defined exactly on some elements, all steps are defined
exactly if all elements are among them. -/
theorem mapM_ite {α : Type u} {β : Type v} (P : α → Prop) [DecidablePred P] (g : α → β)
    (l : List α) :
    l.mapM (fun a => if P a then some (g a) else none) =
      if ∀ a ∈ l, P a then some (l.map g) else none := by
  induction l with
  | nil => simp
  | cons a l ih =>
    rw [List.mapM_cons, ih]
    by_cases first : P a
    · by_cases rest : ∀ a ∈ l, P a
      · have all : ∀ x ∈ a :: l, P x := List.forall_mem_cons.mpr ⟨first, rest⟩
        rw [if_pos first, if_pos rest, if_pos all]
        rfl
      · have some : ¬ ∀ x ∈ a :: l, P x := fun all => rest (List.forall_mem_cons.mp all).2
        rw [if_pos first, if_neg rest, if_neg some]
        rfl
    · have some : ¬ ∀ x ∈ a :: l, P x := fun all => first (List.forall_mem_cons.mp all).1
      rw [if_neg first, if_neg some]
      rfl

end LongArithmetic
