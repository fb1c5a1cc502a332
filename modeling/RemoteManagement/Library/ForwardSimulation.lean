import RemoteManagement.Library.GuardedRun

/-!
# Forward simulations

A relation between the states of two systems is a simulation if each step of the
first is matched by some steps of the second, or by none. Then a run of the first
is one of the second.
-/

namespace ForwardSimulation

open GuardedRun

universe u v

variable {S T : Type u} {E F : Type v} {step : S → E → Option S} {step' : T → F → Option T}
  {guard : S → E → Prop} {rel : S → T → Prop}

/-- What the guard lets through is matched. -/
def Simulates (step : S → E → Option S) (guard : S → E → Prop) (step' : T → F → Option T)
    (rel : S → T → Prop) : Prop :=
  ∀ s t e s', rel s t → guard s e → step s e = some s' →
    ∃ fs t', run step' t fs = some t' ∧ rel s' t'

/-- A step that the second system does not see. -/
theorem matched_stutter {s' : S} {t : T} (h : rel s' t) :
    ∃ fs t', run step' t fs = some t' ∧ rel s' t' := ⟨[], t, rfl, h⟩

theorem matched_step {s' : S} {t t' : T} {f : F} (moves : step' t f = some t') (h : rel s' t') :
    ∃ fs t', run step' t fs = some t' ∧ rel s' t' :=
  ⟨[f], t', by rw [run, moves, Option.bind_some, run_nil], h⟩

theorem matched_two {s' : S} {t u t' : T} {f g : F} (first : step' t f = some u)
    (second : step' u g = some t') (h : rel s' t') :
    ∃ fs t', run step' t fs = some t' ∧ rel s' t' := by
  refine ⟨[f, g], t', ?_, h⟩
  rw [run, first, Option.bind_some, run, second, Option.bind_some, run_nil]

theorem Simulates.run_matched (sim : Simulates step guard step' rel) {s s' : S} {t : T}
    {es : List E} (related : rel s t) (guarded : Guarded step guard s es)
    (arrives : run step s es = some s') : ∃ fs t', run step' t fs = some t' ∧ rel s' t' := by
  induction es generalizing s t with
  | nil => exact matched_stutter (Option.some.inj arrives ▸ related)
  | cons e es ih =>
    obtain ⟨u, first, rest⟩ := Option.bind_eq_some_iff.mp arrives
    obtain ⟨fs, w, goes, between⟩ := sim s t e u related guarded.1 first
    obtain ⟨gs, t', ends, last⟩ := ih between (guarded.2 u first) rest
    exact ⟨fs ++ gs, t', by rw [run_append, goes, Option.bind_some, ends], last⟩

end ForwardSimulation
