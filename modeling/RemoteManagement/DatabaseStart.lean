import RemoteManagement.Database
import RemoteManagement.Library.GuardedRun

/-!
# The start of the database

The constructor of the database creates the tables if there was no file before
it opened the database. There is a statement for each table and nothing that
binds them together, so that a start may leave a file with some of the tables,
and the next start finds the file.
-/

namespace DatabaseStart

open ExecuteQuery Database GuardedRun

inductive TableName where
  | computer
  | storage
  | networkInfo
  | networkIp
  | usage
  | executor
  deriving DecidableEq, Repr

/-- The statements of `createTables` in their order. -/
def creates : List TableName := [.computer, .storage, .networkInfo, .networkIp, .usage, .executor]

theorem mem_creates (table : TableName) : table ∈ creates := by cases table <;> decide

/-- What becomes of a statement: it returns, or the process is killed before or
after it has been committed. -/
inductive Fate where
  | returns (fault : Option Fault)
  | killed (committed : Bool)

inductive Opening where
  | ok
  | failed (created : Bool)
  deriving DecidableEq

structure Start where
  opening : Opening
  fates : TableName → Fate

/-- How a start leaves the constructor. -/
inductive Ending where
  | passed
  | exited
  | killed
  deriving DecidableEq, Repr

/-- The statement that the code sees, and the tables after it. A table that is
there already is an error of prepare. -/
def createStatement (table : TableName) (tables : List TableName) :
    Option Fault → Statement × List TableName
  | some (.prepare code _) => (notPrepared code 0, tables)
  | some (.step _ code _) =>
    if table ∈ tables then (notPrepared .error 0, tables)
    else ({ notPrepared code 0 with prepareCode := .ok }, tables)
  | none =>
    if table ∈ tables then (notPrepared .error 0, tables)
    else ({ notPrepared .done 0 with prepareCode := .ok }, tables ++ [table])

/-- The statements up to the first that is not a success. -/
def createTables (fates : TableName → Fate) :
    List TableName → List TableName → Ending × List TableName
  | [], tables => (.passed, tables)
  | table :: rest, tables =>
    match fates table with
    | .killed committed =>
      (.killed, if committed then (createStatement table tables none).2 else tables)
    | .returns fault =>
      let (st, tables) := createStatement table tables fault
      if (executeQuery st false).success then createTables fates rest tables
      else (.exited, tables)

/-- The tables of the database file, if there is one. -/
abbrev File := Option (List TableName)

def start (e : Start) (file : File) : Ending × File :=
  let createTable := file.isNone
  match e.opening with
  | .failed created => (.exited, if created then some (file.getD []) else file)
  | .ok =>
    if createTable then
      let (ending, tables) := createTables e.fates creates []
      (ending, some tables)
    else (.passed, file)

def step (file : File) (e : Start) : Option File := some (start e file).2

/-- A start that gets past the constructor has all the tables. -/
def Sound (file : File) (e : Start) : Prop :=
  (start e file).1 = .passed → ∃ tables, (start e file).2 = some tables ∧ ∀ table, table ∈ tables

/-- No start makes a file without making all the tables. Once the last one is
there, it does not matter whether the process is killed. -/
def Clean (file : File) (e : Start) : Prop :=
  file = none →
    match e.opening with
    | .failed created => created = false
    | .ok => ∀ table, e.fates table = .returns none ∨
      creates.getLast? = some table ∧ e.fates table = .killed true

/-- Nothing goes wrong. -/
def ordinary : Start := ⟨.ok, fun _ => .returns none⟩

/-- If there is a file, it has all the tables. -/
def Whole (file : File) : Prop := ∀ tables, file = some tables → ∀ table, table ∈ tables

section Statements

variable (fates : TableName → Fate)

/-- The tables that the statements make, up to the one that ends the start. -/
def written : List TableName → List TableName
  | [] => []
  | table :: rest =>
    match fates table with
    | .killed committed => if committed then [table] else []
    | .returns none => table :: written rest
    | .returns (some (.step _ _ _)) => written rest
    | .returns (some (.prepare _ _)) => []

theorem tables_createTables {rest tables : List TableName} (fresh : ∀ table ∈ rest, table ∉ tables)
    (distinct : rest.Nodup) :
    (createTables fates rest tables).2 = tables ++ written fates rest := by
  induction rest generalizing tables with
  | nil => simp [createTables, written]
  | cons table rest ih =>
    rw [List.nodup_cons] at distinct
    simp only [List.forall_mem_cons] at fresh
    obtain ⟨new, fresh⟩ := fresh
    cases fate : fates table with
    | killed committed =>
      simp only [createTables, written, fate, createStatement, if_neg new]
      cases committed <;> simp
    | returns fault =>
      cases fault with
      | none =>
        have later : ∀ t ∈ rest, t ∉ tables ++ [table] := by
          intro t ht mem
          rcases List.mem_append.mp mem with old | own
          · exact fresh t ht old
          · exact distinct.1 (List.mem_singleton.mp own ▸ ht)
        simp [createTables, written, fate, createStatement, new, notPrepared, executeQuery,
          RmsQueryResult.withLastId, ih later distinct.2]
      | some fault =>
        cases fault with
        | prepare code failed =>
          have unprepared : (executeQuery (notPrepared code 0) false).success = false := by
            rw [executeQuery_of_prepare_failed failed]
          simp [createTables, written, fate, createStatement, unprepared]
        | step rows code failed =>
          simp [createTables, written, fate, createStatement, new, notPrepared, executeQuery,
            RmsQueryResult.withLastId, ih fresh distinct.2]

theorem written_subset (rest : List TableName) : written fates rest ⊆ rest := by
  induction rest with
  | nil => exact List.Subset.refl _
  | cons table rest ih =>
    rw [written]
    split
    · split
      · exact List.cons_subset_cons table (List.nil_subset rest)
      · exact List.nil_subset _
    · exact List.cons_subset_cons table ih
    · exact List.subset_cons_of_subset table ih
    · exact List.nil_subset _

/-- Everything is written if each statement is done and returns; after the last
one the process may be killed. -/
theorem written_all_iff {rest : List TableName} (distinct : rest.Nodup) :
    (∀ table ∈ rest, table ∈ written fates rest) ↔
      ∀ table ∈ rest, fates table = .returns none ∨
        rest.getLast? = some table ∧ fates table = .killed true := by
  induction rest with
  | nil => simp
  | cons table rest ih =>
    rw [List.nodup_cons] at distinct
    have unwritten : table ∉ written fates rest :=
      fun mem => distinct.1 (written_subset fates rest mem)
    cases rest with
    | nil =>
      cases fate : fates table with
      | killed committed => cases committed <;> simp [written, fate]
      | returns fault =>
        cases fault with
        | none => simp [written, fate]
        | some fault => cases fault <;> simp [written, fate]
    | cons next rest =>
      have notLast : (next :: rest).getLast? ≠ some table :=
        fun last => distinct.1 (List.mem_of_getLast? last)
      rw [List.getLast?_cons_cons, List.forall_mem_cons (a := table),
        List.forall_mem_cons (a := table), ← ih distinct.2]
      simp only [notLast, false_and, or_false]
      cases fate : fates table with
      | killed committed =>
        refine iff_of_false (fun all => ?_) fun h => by simp at h
        have second := all.2 next List.mem_cons_self
        cases committed
        · simp [written, fate] at second
        · simp only [written, fate, if_true, List.mem_singleton] at second
          exact distinct.1 (second ▸ List.mem_cons_self)
      | returns fault =>
        cases fault with
        | none =>
          have other (t : TableName) (ht : t ∈ next :: rest) : t ≠ table :=
            fun own => distinct.1 (own ▸ ht)
          have made : written fates (table :: next :: rest) =
              table :: written fates (next :: rest) := by rw [written, fate]
          simp only [made, List.mem_cons_self, true_and]
          exact forall₂_congr fun t ht => by rw [List.mem_cons, or_iff_right (other t ht)]
        | some fault =>
          cases fault with
          | prepare code failed => simp [written, fate]
          | step rows code failed =>
            refine iff_of_false (fun all => unwritten ?_) fun h => by simp at h
            simpa [written, fate] using all.1

end Statements

section Starts

theorem createTables_all_iff (fates : TableName → Fate) :
    (∀ table, table ∈ (createTables fates creates []).2) ↔
      ∀ table, fates table = .returns none ∨
        creates.getLast? = some table ∧ fates table = .killed true := by
  have distinct : creates.Nodup := by decide
  have all := written_all_iff fates distinct
  simp only [mem_creates, true_imp_iff] at all
  rw [tables_createTables fates (fun _ _ => List.not_mem_nil) distinct, List.nil_append]
  exact all

/-- A start is clean exactly if it is sound and leaves a file that is whole. -/
theorem clean_iff (file : File) (e : Start) (whole : Whole file) :
    Clean file e ↔ Sound file e ∧ Whole (start e file).2 := by
  cases file with
  | some tables =>
    have all := whole tables rfl
    refine iff_of_true (fun absent => by cases absent) ?_
    cases opening : e.opening with
    | ok =>
      simp only [Sound, start, opening]
      exact ⟨fun _ => ⟨tables, rfl, all⟩, whole⟩
    | failed created =>
      simp only [Sound, start, opening]
      refine ⟨?_, ?_⟩
      · intro passed
        cases passed
      · cases created <;> exact whole
  | none =>
    cases opening : e.opening with
    | ok =>
      have all := createTables_all_iff e.fates
      simp only [Clean, Sound, start, opening, true_imp_iff, Whole, Option.isNone_none, if_true,
        Option.some.injEq, forall_eq', exists_eq_left', ← all]
      exact ⟨fun made => ⟨fun _ => made, made⟩, And.right⟩
    | failed created =>
      simp only [Clean, Sound, start, opening, true_imp_iff]
      cases created with
      | false => simp [Whole]
      | true =>
        refine iff_of_false (by simp) fun h => ?_
        exact absurd (h.2 [] rfl .computer) List.not_mem_nil

theorem sound_ordinary_iff (file : File) : Sound file ordinary ↔ Whole file := by
  cases file with
  | none =>
    refine iff_of_true (fun _ => ?_) fun tables there => by cases there
    have all := (createTables_all_iff ordinary.fates).mpr fun _ => Or.inl rfl
    exact ⟨_, rfl, all⟩
  | some tables => simp [Sound, start, ordinary, Whole]

/-- Over any number of starts on one path, that no start makes a file without
all the tables is what makes every start that passes, and an ordinary one at any
time, have all of them. -/
theorem clean_iff_sound (es : List Start) :
    Guarded step Clean none es ↔
      ∀ front back, es = front ++ back → Guarded step Sound none (front ++ [ordinary]) := by
  refine guarded_iff_probe (fun _ _ _ _ _ => trivial) (fun file _ => sound_ordinary_iff file) ?_ ?_
    es trivial fun tables there => by cases there
  · intro file e after _ whole made
    obtain rfl := Option.some.inj made
    exact clean_iff file e whole
  · intro file e _ _ undefined
    cases undefined

end Starts

/-- The start that is to create the second table ends, and the next one finds a
database file. -/
def stopped : List Start :=
  [⟨.ok, fun table => if table = .storage then .returns (some (.prepare .full (by decide)))
      else .returns none⟩, ordinary]

theorem stopped_not_sound : ¬ ∀ es, Guarded step Sound none es := by
  intro all
  obtain ⟨-, second⟩ := all stopped
  obtain ⟨tables, made, whole⟩ := (second (some [.computer]) rfl).1 rfl
  obtain rfl := Option.some.inj made
  exact absurd (whole .storage) (by decide)

end DatabaseStart
