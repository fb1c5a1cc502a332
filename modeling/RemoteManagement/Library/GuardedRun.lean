import Mathlib.Logic.Basic

/-!
# Runs of a partial step function

A step may be undefined, either because the event cannot happen in the state
or because it ends the system. A guard is a condition on an event and on the
state it is taken from, and a guarded run meets it at every event. An invariant
that guarded steps keep holds wherever a guarded run arrives.
-/

namespace GuardedRun

universe u v

variable {State : Type u} {Event : Type v}

def run (step : State → Event → Option State) : State → List Event → Option State
  | s, [] => some s
  | s, e :: es => (step s e).bind (fun t => run step t es)

def Guarded (step : State → Event → Option State) (guard : State → Event → Prop) :
    State → List Event → Prop
  | _, [] => True
  | s, e :: es => guard s e ∧ ∀ t, step s e = some t → Guarded step guard t es

instance decidableGuarded (step : State → Event → Option State)
    (guard : State → Event → Prop) [∀ s e, Decidable (guard s e)] :
    ∀ s es, Decidable (Guarded step guard s es)
  | _, [] => isTrue trivial
  | s, e :: es =>
    match h : step s e with
    | none => decidable_of_iff (guard s e) (by simp [Guarded, h])
    | some t =>
      haveI := decidableGuarded step guard t es
      decidable_of_iff (guard s e ∧ Guarded step guard t es) (by simp [Guarded, h])

@[simp] theorem run_nil (step : State → Event → Option State) (s : State) :
    run step s [] = some s := rfl

theorem run_append (step : State → Event → Option State) (s : State) (es fs : List Event) :
    run step s (es ++ fs) = (run step s es).bind (fun t => run step t fs) := by
  induction es generalizing s with
  | nil => rfl
  | cons e es ih =>
    simp only [List.cons_append, run]
    cases step s e with
    | none => rfl
    | some t => exact ih t

def Reaches (step : State → Event → Option State) (s t : State) : Prop :=
  ∃ es, run step s es = some t

theorem Reaches.refl (step : State → Event → Option State) (s : State) : Reaches step s s :=
  ⟨[], rfl⟩

theorem Reaches.trans {step : State → Event → Option State} {s t u : State}
    (hst : Reaches step s t) (htu : Reaches step t u) : Reaches step s u := by
  obtain ⟨es, hes⟩ := hst
  obtain ⟨fs, hfs⟩ := htu
  exact ⟨es ++ fs, by rw [run_append, hes, Option.bind_some, hfs]⟩

theorem Reaches.head {step : State → Event → Option State} {s t u : State} {e : Event}
    (h : step s e = some t) (htu : Reaches step t u) : Reaches step s u := by
  obtain ⟨es, hes⟩ := htu
  exact ⟨e :: es, by rw [run, h, Option.bind_some, hes]⟩

/-- The rule of invariants: one lemma about a step gives one about a run. -/
theorem run_invariant {step : State → Event → Option State} {guard : State → Event → Prop}
    {inv : State → Prop}
    (preserved : ∀ s e t, inv s → guard s e → step s e = some t → inv t)
    {s t : State} {es : List Event} (hs : inv s) (guarded : Guarded step guard s es)
    (arrives : run step s es = some t) : inv t := by
  induction es generalizing s with
  | nil => exact Option.some.inj arrives ▸ hs
  | cons e es ih =>
    obtain ⟨u, hu, hrest⟩ := Option.bind_eq_some_iff.mp arrives
    exact ih (preserved s e u hs guarded.1 hu) (guarded.2 u hu) hrest

/-- If what a guard excludes breaks the invariant for good, then the invariant
holds at the end exactly if the run was guarded. -/
theorem run_invariant_iff {step : State → Event → Option State} {guard : State → Event → Prop}
    {inv : State → Prop} (exact : ∀ s e t, step s e = some t → (inv t ↔ inv s ∧ guard s e))
    {s t : State} {es : List Event} (arrives : run step s es = some t) :
    inv t ↔ inv s ∧ Guarded step guard s es := by
  induction es generalizing s with
  | nil =>
    obtain rfl := Option.some.inj arrives
    exact (and_iff_left trivial).symm
  | cons e es ih =>
    obtain ⟨u, hu, hrest⟩ := Option.bind_eq_some_iff.mp arrives
    simp only [Guarded, hu, Option.some.injEq, forall_eq', ih hrest, exact s e u hu, and_assoc]

/-- An invariant that every step keeps needs no guard. -/
theorem run_preserves {step : State → Event → Option State} {inv : State → Prop}
    (preserved : ∀ s e t, inv s → step s e = some t → inv t) {s t : State} {es : List Event}
    (hs : inv s) (arrives : run step s es = some t) : inv t := by
  induction es generalizing s with
  | nil => exact Option.some.inj arrives ▸ hs
  | cons e es ih =>
    obtain ⟨u, hu, hrest⟩ := Option.bind_eq_some_iff.mp arrives
    exact ih (preserved s e u hs hu) hrest

theorem guarded_of_forall {step : State → Event → Option State} {P : Event → Prop} {s : State}
    {es : List Event} (h : ∀ e ∈ es, P e) : Guarded step (fun _ e => P e) s es := by
  induction es generalizing s with
  | nil => exact trivial
  | cons e es ih =>
    exact ⟨h e List.mem_cons_self, fun _ _ => ih fun f hf => h f (List.mem_cons_of_mem e hf)⟩

theorem Guarded.and {step : State → Event → Option State} {P Q : State → Event → Prop} {s : State}
    {es : List Event} (hP : Guarded step P s es) (hQ : Guarded step Q s es) :
    Guarded step (fun s e => P s e ∧ Q s e) s es := by
  induction es generalizing s with
  | nil => exact trivial
  | cons e es ih => exact ⟨⟨hP.1, hQ.1⟩, fun t h => ih (hP.2 t h) (hQ.2 t h)⟩

theorem guarded_append {step : State → Event → Option State} {guard : State → Event → Prop}
    {s : State} {es fs : List Event} :
    Guarded step guard s (es ++ fs) ↔
      Guarded step guard s es ∧ ∀ t, run step s es = some t → Guarded step guard t fs := by
  induction es generalizing s with
  | nil => simp [Guarded]
  | cons e es ih =>
    simp only [List.cons_append, Guarded, run, ih, Option.bind_eq_some_iff]
    constructor
    · rintro ⟨first, rest⟩
      exact ⟨⟨first, fun u hu => (rest u hu).1⟩, fun t ⟨u, hu, ht⟩ => (rest u hu).2 t ht⟩
    · rintro ⟨⟨first, rest⟩, later⟩
      exact ⟨first, fun u hu => ⟨rest u hu, fun t ht => later t ⟨u, hu, ht⟩⟩⟩

/-- Where an invariant holds along the run, two guards that say the same of
each step say the same of the run. -/
theorem guarded_iff {step : State → Event → Option State} {P Q : State → Event → Prop}
    (inv : State → Prop)
    (preserved : ∀ s e t, inv s → P s e → step s e = some t → inv t)
    (agree : ∀ s e t, inv s → step s e = some t → (P s e ↔ Q s e))
    {s t : State} {es : List Event} (hs : inv s) (arrives : run step s es = some t) :
    Guarded step P s es ↔ Guarded step Q s es := by
  induction es generalizing s with
  | nil => exact Iff.rfl
  | cons e es ih =>
    obtain ⟨u, hu, hrest⟩ := Option.bind_eq_some_iff.mp arrives
    -- the first step meets both guards or none of them
    have later (h : P s e) : Guarded step P u es ↔ Guarded step Q u es :=
      ih (preserved s e u hs h hu) hrest
    simp only [Guarded, hu, Option.some.injEq, forall_eq', ← agree s e u hs hu]
    exact and_congr_right later

/-- A probe is an event that is fine exactly where an invariant holds. If the
guard says exactly which steps are fine and keep the invariant, then the runs
that it guards are those that are fine with a probe made at any time. -/
theorem guarded_iff_probe {step : State → Event → Option State}
    {guard fine : State → Event → Prop} {base inv : State → Prop} {probe : Event}
    (kept : ∀ s e t, base s → step s e = some t → base t)
    (probes : ∀ s, base s → (fine s probe ↔ inv s))
    (exact : ∀ s e t, base s → inv s → step s e = some t → (guard s e ↔ fine s e ∧ inv t))
    (undefined : ∀ s e, base s → inv s → step s e = none → (guard s e ↔ fine s e))
    {s : State} (es : List Event) (hbase : base s) (hs : inv s) :
    Guarded step guard s es ↔
      ∀ front back, es = front ++ back → Guarded step fine s (front ++ [probe]) := by
  have now (s : State) (hbase : base s) (hs : inv s) : Guarded step fine s [probe] :=
    ⟨(probes s hbase).mpr hs, fun _ _ => trivial⟩
  induction es generalizing s with
  | nil =>
    refine iff_of_true trivial fun front back split => ?_
    rw [(List.append_eq_nil_iff.mp split.symm).1]
    exact now s hbase hs
  | cons e es ih =>
    constructor
    · rintro ⟨first, rest⟩ front back split
      cases front with
      | nil => exact now s hbase hs
      | cons f front =>
        obtain ⟨rfl, tail⟩ := List.cons.inj split
        cases ht : step s e with
        | none =>
          refine ⟨(undefined s e hbase hs ht).mp first, fun t h => ?_⟩
          rw [ht] at h
          cases h
        | some t =>
          obtain ⟨ok, next⟩ := (exact s e t hbase hs ht).mp first
          refine ⟨ok, fun u hu => ?_⟩
          obtain rfl := Option.some.inj (ht.symm.trans hu)
          exact (ih (kept s e t hbase ht) next).mp (rest t ht) front back tail
    · intro all
      have ok : fine s e := (all [e] es rfl).1
      have later (t : State) (ht : step s e = some t) (front back : List Event)
          (split : es = front ++ back) : Guarded step fine t (front ++ [probe]) :=
        (all (e :: front) back (by rw [split, List.cons_append])).2 t ht
      have next (t : State) (ht : step s e = some t) : inv t :=
        (probes t (kept s e t hbase ht)).mp (later t ht [] es rfl).1
      refine ⟨?_, fun t ht => (ih (kept s e t hbase ht) (next t ht)).mpr (later t ht)⟩
      cases ht : step s e with
      | none => exact (undefined s e hbase hs ht).mpr ok
      | some t => exact (exact s e t hbase hs ht).mpr ⟨ok, next t ht⟩

/-- If the guard says exactly when a step is defined, a run is defined exactly
if it is guarded. -/
theorem run_isSome_iff {step : State → Event → Option State} {guard : State → Event → Prop}
    (defined : ∀ s e, (step s e).isSome ↔ guard s e) (s : State) (es : List Event) :
    (run step s es).isSome ↔ Guarded step guard s es := by
  induction es generalizing s with
  | nil => simp [Guarded]
  | cons e es ih =>
    rw [Guarded, ← defined]
    cases h : step s e with
    | none => simp [run, h]
    | some t => simp [run, h, ih t]

end GuardedRun
