import RemoteManagement.ExecuteQuery
import RemoteManagement.Library.GuardedRun
import Mathlib.Logic.Function.Basic

/-!
# Inserting callers on one connection

Every client thread calls `executeQuery` on the same connection. Each of the
three calls to the database is atomic, but an insert and the read of its id are
two of them, and the last insert rowid belongs to the connection. The history
variable `lastInserter` records whose insert that rowid comes from.
-/

namespace InsertIdRace

open ThriftTypes ExecuteQuery GuardedRun

universe u v

variable {Thread : Type u} {Table : Type v}

/-- How far a thread's call has come; a failed insert has no rowid. -/
inductive Phase (Table : Type v) where
  | idle
  | prepared (table : Table)
  | stepped (table : Table) (inserted : Option Int)
  deriving DecidableEq

/-- A call that has returned. -/
structure Call (Thread : Type u) (Table : Type v) where
  thread : Thread
  table : Table
  inserted : Option Int
  lastId : Int
  deriving DecidableEq

structure State (Thread : Type u) (Table : Type v) where
  rows : Table → List Int
  lastInsertRowid : Int
  lastInserter : Option Thread
  phase : Thread → Phase Table
  completed : List (Call Thread Table)

inductive Event (Thread : Type u) (Table : Type v) where
  | prepare (t : Thread) (table : Table) (code : ResultCode)
  | step (t : Thread) (rowid : Option Int)
  | lastInsertRowid (t : Thread)
  deriving DecidableEq

/-- No call is in progress; the tables and the rowid are whatever they are. -/
def start (rows : Table → List Int) (last : Int) : State Thread Table :=
  ⟨rows, last, none, fun _ => .idle, []⟩

/-- What a caller relies on: the id it gets is that of the row it inserted, so
no two rows of a table are known by one id. -/
def IdsAreOwn (s : State Thread Table) : Prop :=
  (∀ c ∈ s.completed, c.inserted = some c.lastId) ∧
    s.completed.Pairwise (fun c d => c.table = d.table → c.lastId ≠ d.lastId)

/-- Each rowid that a call inserted is in its table and belongs to that call alone. -/
structure Inv (s : State Thread Table) : Prop where
  latest : ∀ t table id, s.phase t = .stepped table (some id) → s.lastInserter = some t →
    s.lastInsertRowid = id
  pendingRow : ∀ t table id, s.phase t = .stepped table (some id) → id ∈ s.rows table
  pendingDistinct : ∀ t u table id, s.phase t = .stepped table (some id) →
    s.phase u = .stepped table (some id) → t = u
  pendingNew : ∀ t table id, s.phase t = .stepped table (some id) →
    ∀ c ∈ s.completed, c.table = table → c.lastId ≠ id
  completedRow : ∀ c ∈ s.completed, c.lastId ∈ s.rows c.table
  own : IdsAreOwn s

theorem inv_start (rows : Table → List Int) (last : Int) :
    Inv (start rows last : State Thread Table) where
  latest := by simp [start]
  pendingRow := by simp [start]
  pendingDistinct := by simp [start]
  pendingNew := by simp [start]
  completedRow := by simp [start]
  own := by simp [start, IdsAreOwn]

section Threads

variable [DecidableEq Thread]

def State.enter (s : State Thread Table) (t : Thread) (p : Phase Table) : State Thread Table :=
  { s with phase := Function.update s.phase t p }

theorem phase_enter (s : State Thread Table) (t u : Thread) (p : Phase Table) :
    (s.enter t p).phase u = if u = t then p else s.phase u := by
  simp [State.enter, Function.update_apply]

/-- Entering a phase without a rowid leaves fewer calls pending. -/
theorem pending_of_enter {s : State Thread Table} {t u : Thread} {p : Phase Table}
    (hp : ∀ table id, p ≠ .stepped table (some id)) {table : Table} {id : Int}
    (h : (s.enter t p).phase u = .stepped table (some id)) :
    u ≠ t ∧ s.phase u = .stepped table (some id) := by
  rw [phase_enter] at h
  by_cases hu : u = t
  · rw [if_pos hu] at h
    exact absurd h (hp table id)
  · rw [if_neg hu] at h
    exact ⟨hu, h⟩

theorem inv_enter {s : State Thread Table} (hs : Inv s) (t : Thread) {p : Phase Table}
    (hp : ∀ table id, p ≠ .stepped table (some id)) : Inv (s.enter t p) where
  latest u table id hu := hs.latest u table id (pending_of_enter hp hu).2
  pendingRow u table id hu := hs.pendingRow u table id (pending_of_enter hp hu).2
  pendingDistinct u v table id hu hv :=
    hs.pendingDistinct u v table id (pending_of_enter hp hu).2 (pending_of_enter hp hv).2
  pendingNew u table id hu := hs.pendingNew u table id (pending_of_enter hp hu).2
  completedRow := hs.completedRow
  own := hs.own

end Threads

section Steps

variable [DecidableEq Thread] [DecidableEq Table]

instance (s : State Thread Table) : Decidable (IdsAreOwn s) :=
  inferInstanceAs (Decidable (_ ∧ _))

/-- The insert of a row under a rowid that the table does not have yet. -/
def State.insert (s : State Thread Table) (t : Thread) (table : Table) (id : Int) :
    State Thread Table :=
  { s with
    rows := Function.update s.rows table (id :: s.rows table)
    lastInsertRowid := id
    lastInserter := some t }

/-- The read of the connection's rowid, with which the call returns. -/
def State.complete (s : State Thread Table) (t : Thread) (table : Table)
    (inserted : Option Int) : State Thread Table :=
  { s.enter t .idle with
    completed := ⟨t, table, inserted, toInt32 s.lastInsertRowid⟩ :: s.completed }

def step (s : State Thread Table) : Event Thread Table → Option (State Thread Table)
  | .prepare t table code =>
    match s.phase t with
    | .idle => some (if code = .ok then s.enter t (.prepared table) else s)
    | _ => none
  | .step t none =>
    match s.phase t with
    | .prepared table => some (s.enter t (.stepped table none))
    | _ => none
  | .step t (some id) =>
    match s.phase t with
    | .prepared table =>
      if id ∈ s.rows table then none
      else some ((s.insert t table id).enter t (.stepped table (some id)))
    | _ => none
  | .lastInsertRowid t =>
    match s.phase t with
    | .stepped table inserted => some (s.complete t table inserted)
    | _ => none

def Phase.inserted : Phase Table → Option Int
  | .stepped _ inserted => inserted
  | _ => none

/-- The read of an id finds the connection as the call's own insert left it. -/
def Undisturbed (s : State Thread Table) : Event Thread Table → Prop
  | .lastInsertRowid t => s.lastInserter = some t ∧ ∃ id ∈ (s.phase t).inserted, InInt id
  | _ => True

instance (s : State Thread Table) : ∀ e, Decidable (Undisturbed s e)
  | .lastInsertRowid _ => inferInstanceAs (Decidable (_ ∧ _))
  | .prepare _ _ _ => isTrue trivial
  | .step _ _ => isTrue trivial

theorem step_cases {s s' : State Thread Table} {e : Event Thread Table}
    (h : step s e = some s') :
    (∃ t table code, e = .prepare t table code ∧ s.phase t = .idle ∧
      s' = if code = .ok then s.enter t (.prepared table) else s) ∨
    (∃ t table, e = .step t none ∧ s.phase t = .prepared table ∧
      s' = s.enter t (.stepped table none)) ∨
    (∃ t table id, e = .step t (some id) ∧ s.phase t = .prepared table ∧ id ∉ s.rows table ∧
      s' = (s.insert t table id).enter t (.stepped table (some id))) ∨
    (∃ t table inserted, e = .lastInsertRowid t ∧ s.phase t = .stepped table inserted ∧
      s' = s.complete t table inserted) := by
  cases e with
  | prepare t table code =>
    simp only [step] at h
    split at h
    · rename_i hp
      exact Or.inl ⟨t, table, code, rfl, hp, (Option.some.inj h).symm⟩
    · cases h
  | step t rowid =>
    cases rowid with
    | none =>
      simp only [step] at h
      split at h
      · rename_i table hp
        exact Or.inr (Or.inl ⟨t, table, rfl, hp, (Option.some.inj h).symm⟩)
      · cases h
    | some id =>
      simp only [step] at h
      split at h
      · rename_i table hp
        split at h
        · cases h
        · rename_i fresh
          exact Or.inr (Or.inr (Or.inl ⟨t, table, id, rfl, hp, fresh, (Option.some.inj h).symm⟩))
      · cases h
  | lastInsertRowid t =>
    simp only [step] at h
    split at h
    · rename_i table inserted hp
      exact Or.inr (Or.inr (Or.inr ⟨t, table, inserted, rfl, hp, (Option.some.inj h).symm⟩))
    · cases h

omit [DecidableEq Thread] in
theorem mem_rows_insert {s : State Thread Table} {t : Thread} {table other : Table}
    {id x : Int} :
    x ∈ (s.insert t table id).rows other ↔ (other = table ∧ x = id) ∨ x ∈ s.rows other := by
  by_cases h : other = table
  · subst h
    simp [State.insert]
  · simp [State.insert, h]

/-- A fresh rowid differs from those of all calls on the table so far. -/
theorem inv_insert {s : State Thread Table} (hs : Inv s) {t : Thread} {table : Table} {id : Int}
    (fresh : id ∉ s.rows table) :
    Inv ((s.insert t table id).enter t (.stepped table (some id))) := by
  have pending : ∀ u tbl i,
      ((s.insert t table id).enter t (.stepped table (some id))).phase u =
        .stepped tbl (some i) →
      (u = t ∧ tbl = table ∧ i = id) ∨ s.phase u = .stepped tbl (some i) ∧ u ≠ t := by
    intro u tbl i hu
    rw [phase_enter] at hu
    by_cases h : u = t
    · rw [if_pos h] at hu
      cases hu
      exact Or.inl ⟨h, rfl, rfl⟩
    · rw [if_neg h] at hu
      exact Or.inr ⟨hu, h⟩
  have clash : ∀ u, s.phase u ≠ .stepped table (some id) :=
    fun u hu => fresh (hs.pendingRow u table id hu)
  refine ⟨?_, ?_, ?_, ?_, ?_, hs.own⟩
  · intro u tbl i hu hlast
    rcases pending u tbl i hu with ⟨-, -, hi⟩ | ⟨-, hne⟩
    · exact hi.symm
    · exact absurd (Option.some.inj hlast).symm hne
  · intro u tbl i hu
    apply (mem_rows_insert (t := t)).mpr
    rcases pending u tbl i hu with ⟨-, ht, hi⟩ | ⟨h, -⟩
    · exact Or.inl ⟨ht, hi⟩
    · exact Or.inr (hs.pendingRow u tbl i h)
  · intro u v tbl i hu hv
    rcases pending u tbl i hu with ⟨hut, ht, hi⟩ | ⟨hu', -⟩
    · rcases pending v tbl i hv with ⟨hvt, -, -⟩ | ⟨hv', -⟩
      · rw [hut, hvt]
      · exact absurd (ht ▸ hi ▸ hv') (clash v)
    · rcases pending v tbl i hv with ⟨-, ht, hi⟩ | ⟨hv', -⟩
      · exact absurd (ht ▸ hi ▸ hu') (clash u)
      · exact hs.pendingDistinct u v tbl i hu' hv'
  · intro u tbl i hu c hc htable he
    rcases pending u tbl i hu with ⟨-, ht, hi⟩ | ⟨h, -⟩
    · have row := hs.completedRow c hc
      rw [he, htable, ht, hi] at row
      exact fresh row
    · exact hs.pendingNew u tbl i h c hc htable he
  · intro c hc
    exact (mem_rows_insert (t := t)).mpr (Or.inr (hs.completedRow c hc))

omit [DecidableEq Table] in
/-- An undisturbed read gives the rowid of the call's own row. -/
theorem inv_complete {s : State Thread Table} (hs : Inv s) {t : Thread} {table : Table}
    {inserted : Option Int} (hp : s.phase t = .stepped table inserted)
    (undisturbed : Undisturbed s (.lastInsertRowid t)) : Inv (s.complete t table inserted) := by
  obtain ⟨hlast, id, hid, hint⟩ := undisturbed
  rw [hp] at hid
  obtain rfl : inserted = some id := hid
  have own : toInt32 s.lastInsertRowid = id := by
    rw [hs.latest t table id hp hlast, toInt32_of_inInt hint]
  have notStepped : ∀ tbl i, (.idle : Phase Table) ≠ .stepped tbl (some i) := by simp
  have idle := inv_enter hs t notStepped
  rw [State.complete]
  rw [own]
  refine ⟨idle.latest, idle.pendingRow, idle.pendingDistinct, ?_, ?_, ?_, ?_⟩
  · intro u tbl i hu c hc htable he
    rcases List.mem_cons.mp hc with rfl | hc
    · obtain ⟨hne, hu'⟩ := pending_of_enter notStepped hu
      exact hne (hs.pendingDistinct u t tbl i hu' (by rw [hp, ← htable, ← he]))
    · exact idle.pendingNew u tbl i hu c hc htable he
  · intro c hc
    rcases List.mem_cons.mp hc with rfl | hc
    · exact hs.pendingRow t table id hp
    · exact hs.completedRow c hc
  · intro c hc
    rcases List.mem_cons.mp hc with rfl | hc
    · rfl
    · exact hs.own.1 c hc
  · refine List.pairwise_cons.mpr ⟨fun c hc htable he => ?_, hs.own.2⟩
    exact hs.pendingNew t table id hp c hc htable.symm he.symm

theorem step_inv (s : State Thread Table) (e : Event Thread Table) (s' : State Thread Table)
    (hs : Inv s) (undisturbed : Undisturbed s e) (h : step s e = some s') : Inv s' := by
  rcases step_cases h with ⟨t, table, code, rfl, -, rfl⟩ | ⟨t, table, rfl, -, rfl⟩ |
    ⟨t, table, id, rfl, -, fresh, rfl⟩ | ⟨t, table, inserted, rfl, hp, rfl⟩
  · split
    · exact inv_enter hs t (by simp)
    · exact hs
  · exact inv_enter hs t (by simp)
  · exact inv_insert hs fresh
  · exact inv_complete hs hp undisturbed

theorem undisturbed_run_idsAreOwn {rows : Table → List Int} {last : Int}
    {es : List (Event Thread Table)} {s : State Thread Table}
    (undisturbed : Guarded step Undisturbed (start rows last) es)
    (arrives : run step (start rows last) es = some s) : IdsAreOwn s :=
  (run_invariant step_inv (inv_start rows last) undisturbed arrives).own

/-- A statement that inserts one row, or fails to. -/
def insertStatement (previous : Int) (rowid : Option Int) : Statement where
  prepareCode := .ok
  columnNames := []
  stepping := .ended (if rowid.isSome then .done else .constraint)
  previousRowid := previous
  inserted := rowid.toList
  noColumns_noRows := fun _ => rfl

/-- A call that nobody interrupts returns what `executeQuery` computes. -/
theorem run_alone (s : State Thread Table) {t : Thread} (idle : s.phase t = .idle)
    {table : Table} {rowid : Option Int} (fresh : ∀ id ∈ rowid, id ∉ s.rows table) :
    ∃ s' lastId,
      run step s [.prepare t table .ok, .step t rowid, .lastInsertRowid t] = some s' ∧
      (executeQuery (insertStatement s.lastInsertRowid rowid) true).lastId = some lastId ∧
      s'.completed = ⟨t, table, rowid, lastId⟩ :: s.completed := by
  have prepared : (insertStatement s.lastInsertRowid rowid).prepareCode = .ok := rfl
  rw [executeQuery_of_prepared prepared]
  cases rowid with
  | none =>
    refine ⟨((s.enter t (.prepared table)).enter t (.stepped table none)).complete t table none,
      toInt32 s.lastInsertRowid, ?_, rfl, rfl⟩
    simp [run, step, idle, phase_enter]
  | some id =>
    have new : id ∉ (s.enter t (.prepared table)).rows table := fresh id rfl
    refine ⟨(((s.enter t (.prepared table)).insert t table id).enter t
      (.stepped table (some id))).complete t table (some id), toInt32 id, ?_, rfl, rfl⟩
    simp [run, step, idle, phase_enter, new]

end Steps

/-- Two computers that add themselves one after the other. -/
def inTurn : List (Event (Fin 2) Unit) :=
  [.prepare 0 () .ok, .step 0 (some 1), .lastInsertRowid 0,
    .prepare 1 () .ok, .step 1 (some 2), .lastInsertRowid 1]

theorem undisturbed_run_idsAreOwn_inTurn :
    IdsAreOwn ((run step (start (fun _ => []) 0) inTurn).get (by decide)) :=
  undisturbed_run_idsAreOwn (by decide) (Option.some_get (by decide)).symm

/-- The same two at once: both inserts come before both reads. -/
def atOnce : List (Event (Fin 2) Unit) :=
  [.prepare 0 () .ok, .prepare 1 () .ok, .step 0 (some 1), .step 1 (some 2),
    .lastInsertRowid 0, .lastInsertRowid 1]

/-- Both computers get the id of the second. -/
theorem atOnce_not_idsAreOwn :
    ¬ IdsAreOwn ((run step (start (fun _ => []) 0) atOnce).get (by decide)) := by
  decide

end InsertIdRace
