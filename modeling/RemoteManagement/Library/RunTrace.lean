import RemoteManagement.Library.GuardedRun

/-!
# What is observed along a run

Every step is observed in the state it is taken from. What a run observes grows
with it, so a relation between the state and what was observed so far holds at
the end of a run if every step keeps it. An observer can also see the events
alone, and have a state of its own.
-/

namespace RunTrace

open GuardedRun

universe u v w

variable {State : Type u} {Event : Type v} {α : Type w}

/-- The observations of the steps that are taken. -/
def observed (step : State → Event → Option State) (look : State → Event → List α) :
    State → List Event → List α
  | _, [] => []
  | s, e :: es => (step s e).elim [] (fun t => look s e ++ observed step look t es)

theorem guarded_run_observed {step : State → Event → Option State}
    {guard : State → Event → Prop} {look : State → Event → List α} (rel : State → List α → Prop)
    (grows : ∀ s e t seen, rel s seen → guard s e → step s e = some t → rel t (seen ++ look s e))
    {s t : State} {es : List Event} {seen : List α} (before : rel s seen)
    (guarded : Guarded step guard s es) (arrives : run step s es = some t) :
    rel t (seen ++ observed step look s es) := by
  induction es generalizing s seen with
  | nil =>
    obtain rfl := Option.some.inj arrives
    rwa [observed, List.append_nil]
  | cons e es ih =>
    obtain ⟨u, first, rest⟩ := Option.bind_eq_some_iff.mp arrives
    rw [observed, first, Option.elim_some, ← List.append_assoc]
    exact ih (grows s e u seen before guarded.1 first) (guarded.2 u first) rest

theorem run_observed {step : State → Event → Option State} {look : State → Event → List α}
    (rel : State → List α → Prop)
    (grows : ∀ s e t seen, rel s seen → step s e = some t → rel t (seen ++ look s e))
    {s t : State} {es : List Event} {seen : List α} (before : rel s seen)
    (arrives : run step s es = some t) : rel t (seen ++ observed step look s es) :=
  guarded_run_observed rel (fun s e t seen hs _ => grows s e t seen hs) before
    (guarded_of_forall (fun _ _ => trivial)) arrives

theorem run_observed_start {step : State → Event → Option State} {look : State → Event → List α}
    (rel : State → List α → Prop)
    (grows : ∀ s e t seen, rel s seen → step s e = some t → rel t (seen ++ look s e))
    {s t : State} {es : List Event} (before : rel s []) (arrives : run step s es = some t) :
    rel t (observed step look s es) := by
  have all := run_observed rel grows before arrives
  rwa [List.nil_append] at all

/-- What follows every step follows the run. -/
theorem run_followed {step : State → Event → Option State} {guard : State → Event → Prop}
    {see : α → Event → α} (rel : α → State → Prop)
    (follows : ∀ a s e t, rel a s → guard s e → step s e = some t → rel (see a e) t)
    {a : α} {s t : State} {es : List Event} (before : rel a s) (guarded : Guarded step guard s es)
    (arrives : run step s es = some t) : rel (es.foldl see a) t := by
  induction es generalizing a s with
  | nil => exact Option.some.inj arrives ▸ before
  | cons e es ih =>
    obtain ⟨u, first, rest⟩ := Option.bind_eq_some_iff.mp arrives
    exact ih (follows a s e u before guarded.1 first) (guarded.2 u first) rest

end RunTrace
