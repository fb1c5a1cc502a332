import Mathlib.Data.List.Forall2

/-!
# Lists that grow

A list grows into another if each of its elements has a successor in its own
place, and new elements come only behind them. Appending grows a list, and so
does a change of elements into successors, and both compose.
-/

namespace GrowingList

universe u v

variable {α : Type u} {β : Type v} {R : α → α → Prop}

/-- Each element has its successor in the same place. -/
def Grows (R : α → α → Prop) (xs ys : List α) : Prop :=
  ∃ front back, ys = front ++ back ∧ List.Forall₂ R xs front

theorem Grows.refl (same : ∀ x, R x x) (xs : List α) : Grows R xs xs :=
  ⟨xs, [], (List.append_nil xs).symm, List.forall₂_same.mpr fun x _ => same x⟩

theorem Grows.trans (compose : ∀ x y z, R x y → R y z → R x z) {xs ys zs : List α}
    (hxy : Grows R xs ys) (hyz : Grows R ys zs) : Grows R xs zs := by
  obtain ⟨front, back, rfl, first⟩ := hxy
  obtain ⟨front', back', rfl, second⟩ := hyz
  obtain ⟨front'', rest, rfl, tail⟩ :
      ∃ a b, front' = a ++ b ∧ List.Forall₂ R front a := by
    refine ⟨front'.take front.length, front'.drop front.length,
      (List.take_append_drop _ _).symm, ?_⟩
    have cut := List.forall₂_take front.length second
    rwa [List.take_left] at cut
  refine ⟨front'', rest ++ back', List.append_assoc _ _ _, ?_⟩
  clear second
  induction first generalizing front'' with
  | nil =>
    cases tail
    exact .nil
  | cons hxy _ ih =>
    cases tail with
    | cons hyz tail => exact .cons (compose _ _ _ hxy hyz) (ih _ tail)

theorem Grows.append (same : ∀ x, R x x) (xs added : List α) : Grows R xs (xs ++ added) :=
  ⟨xs, added, rfl, List.forall₂_same.mpr fun x _ => same x⟩

theorem Grows.map {f : α → α} (step : ∀ x, R x (f x)) (xs : List α) : Grows R xs (xs.map f) := by
  refine ⟨xs.map f, [], (List.append_nil _).symm, ?_⟩
  rw [List.forall₂_map_right_iff]
  exact List.forall₂_same.mpr fun x _ => step x

end GrowingList
