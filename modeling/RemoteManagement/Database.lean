import RemoteManagement.SqlStatements
import RemoteManagement.ExecuteQuery
import RemoteManagement.Library.RowTable
import Mathlib.Logic.Function.Basic

/-!
# The four tables

The tables that the server writes, and what each statement does to them when
its text is read as it was meant. Text that reads otherwise has an outcome too,
which is left open: `misread` stands for whatever the database makes of it. The
usage table has no identifier of its own; its rows are told apart by their
rowid. A statement may meet a fault, after which the tables are as before.
-/

namespace Database

open ThriftTypes SqlStatements ExecuteQuery RowTable

structure ComputerRow where
  computerId : Int
  systemName : String
  hostName : String
  osVersion : String
  clientVersion : String
  cpuName : String
  cpuVendor : String
  cpuCoreCount : Int
  cpuCacheSize : Int
  cpuArch : String
  deriving DecidableEq, Repr

structure StorageRow where
  storageInfoId : Int
  computerId : Int
  devPath : String
  fsType : String
  mountPoint : String
  free : Int
  total : Int
  connected : Int
  deriving DecidableEq, Repr

structure UsageRow where
  rowid : Int
  date : Date
  dataType : Int
  dataId : Option Int
  ticks : Fin 24 → Option ℚ

structure ExecutorRow where
  executorId : Int
  computerId : Int
  returnCode : Option Int
  returnType : Option Int
  startTime : Int
  endTime : Option Int
  name : String
  deriving DecidableEq, Repr

structure Db where
  computers : Table ComputerRow ComputerRow.computerId
  storages : Table StorageRow StorageRow.storageInfoId
  usages : Table UsageRow UsageRow.rowid
  executors : Table ExecutorRow ExecutorRow.executorId

def emptyDb : Db := ⟨.empty, .empty, .empty, .empty⟩

/-- One more than the largest rowid in use. -/
def newRowid (ids : List Int) : Int := ids.foldr max 0 + 1

theorem le_foldr_max {ids : List Int} {i : Int} (h : i ∈ ids) : i ≤ ids.foldr max 0 := by
  induction ids with
  | nil => cases h
  | cons j ids ih =>
    rw [List.foldr_cons]
    rcases List.mem_cons.mp h with rfl | h
    · exact le_max_left _ _
    · exact (ih h).trans (le_max_right _ _)

theorem newRowid_notMem (ids : List Int) : newRowid ids ∉ ids := by
  intro h
  have := le_foldr_max h
  rw [newRowid] at this
  omega

theorem newRowid_pos (ids : List Int) : 0 < newRowid ids := by
  have nonneg : 0 ≤ ids.foldr max 0 := by
    induction ids with
    | nil => exact le_rfl
    | cons j ids ih => exact ih.trans (le_max_right _ _)
  rw [newRowid]
  omega

/-- What a statement comes to when it is run to its end. -/
structure Outcome where
  columnNames : List String
  rows : List (List (Option String))
  db : Db
  inserted : List Int
  noColumns_noRows : columnNames = [] → rows = []

def Outcome.write (db : Db) (inserted : List Int) : Outcome := ⟨[], [], db, inserted, fun _ => rfl⟩

def Outcome.select (db : Db) (name : String) (names : List String)
    (rows : List (List (Option String))) : Outcome :=
  ⟨name :: names, rows, db, [], fun h => by simp at h⟩

def computerRow (a : ComputerArgs) (computerId : Int) : ComputerRow where
  computerId := computerId
  systemName := a.systemName
  hostName := a.hostName
  osVersion := String.ofList a.osVersion.text
  clientVersion := String.ofList a.clientVersion.text
  cpuName := a.cpuName
  cpuVendor := a.cpuVendor
  cpuCoreCount := a.cpuCoreCount
  cpuCacheSize := a.cpuCacheSize
  cpuArch := a.cpuArch

/-- The column that `tick{:d}` names, if there is one. -/
def tickColumn (tick : Int) : Option (Fin 24) :=
  if h : 0 ≤ tick ∧ tick < 24 then some ⟨tick.toNat, by omega⟩ else none

/-- The number that the text of `{:f}` denotes. -/
def storedFloat (q : ℚ) : ℚ :=
  if q < 0 then -((millionths q : ℚ) / 1000000) else (millionths q : ℚ) / 1000000

/-- The `WHERE` clause of the usage templates; a NULL data_id equals no number. -/
def usageMatches (date : Date) (dataType : Int) (dataId : Option Int) (r : UsageRow) : Bool :=
  r.date = date ∧ r.dataType = dataType ∧ (dataId = none ∨ r.dataId = dataId)

def computerCells (r : ComputerRow) : List (Option String) :=
  [some r.computerId.repr, some r.systemName, some r.hostName, some r.osVersion,
    some r.clientVersion, some r.cpuName, some r.cpuVendor, some r.cpuCoreCount.repr,
    some r.cpuCacheSize.repr, some r.cpuArch]

def storageCells (r : StorageRow) : List (Option String) :=
  [some r.storageInfoId.repr, some r.computerId.repr, some r.devPath, some r.fsType,
    some r.mountPoint, some r.free.repr, some r.total.repr, some r.connected.repr]

/-- What a statement does when it is read as meant; none if it does not
prepare, because there is no such column or no such number. -/
def execute : Query → Db → Option Outcome
  | .insertComputer a, db =>
    let id := newRowid db.computers.ids
    some (.write { db with
      computers := db.computers.insert (computerRow a id) (newRowid_notMem _)
        (newRowid_pos _) } [id])
  | .updateComputer a id, db =>
    some (.write { db with
      computers := db.computers.update (fun r => if r.computerId = id then computerRow a id else r)
        (by intro r; split <;> simp_all [computerRow]) } [])
  | .fetchComputerById id, db =>
    some (.select db "computer_id" ["system_name", "host_name", "os_version", "client_version",
      "cpu_name", "cpu_vendor", "cpu_core_count", "cpu_cache_size", "cpu_arch"]
      ((db.computers.rows.filter (fun r => r.computerId = id)).map computerCells))
  | .fetchStorageByComputerId id, db =>
    some (.select db "storage_info_id" ["computer_id", "dev_path", "fs_type", "mount_point",
      "free", "total", "connected"]
      ((db.storages.rows.filter (fun r => r.computerId = id)).map storageCells))
  | .insertStorage computerId devPath fsType mountPoint free total, db =>
    let id := newRowid db.storages.ids
    some (.write { db with
      storages := db.storages.insert ⟨id, computerId, devPath, fsType, mountPoint, free, total, 1⟩
        (newRowid_notMem _) (newRowid_pos _) } [id])
  | .updateStorage free total connected mountPoint fsType id, db =>
    some (.write { db with
      storages := db.storages.update
        (fun r => if r.storageInfoId = id then
          { r with
            free := free, total := total, connected := connected.toNat
            mountPoint := mountPoint, fsType := fsType } else r)
        (by intro r; split <;> rfl) } [])
  | .insertUsage date dataType dataId, db =>
    let id := newRowid db.usages.ids
    some (.write { db with
      usages := db.usages.insert ⟨id, date, dataType, dataId, fun _ => none⟩
        (newRowid_notMem _) (newRowid_pos _) } [id])
  | .updateUsage tick value date dataType dataId, db =>
    match tickColumn tick, value with
    | some k, some q => some (.write { db with
        usages := db.usages.update
          (fun r => if usageMatches date dataType dataId r then
            { r with ticks := Function.update r.ticks k (some (storedFloat q)) } else r)
          (by intro r; split <;> rfl) } [])
    | _, _ => none
  | .doesUsageEntryExist date dataType dataId, db =>
    some (.select db "COUNT(*)" []
      [[some (Nat.repr (db.usages.rows.countP (usageMatches date dataType dataId)))]])
  | .insertExecutor computerId startTime name, db =>
    let id := newRowid db.executors.ids
    some (.write { db with
      executors := db.executors.insert ⟨id, computerId, none, none, startTime, none, name⟩
        (newRowid_notMem _) (newRowid_pos _) } [id])
  | .updateExecutor endTime returnCode returnType id, db =>
    some (.write { db with
      executors := db.executors.update
        (fun r => if r.executorId = id then
          { r with
            endTime := some endTime, returnCode := some returnCode
            returnType := some returnType } else r)
        (by intro r; split <;> rfl) } [])

/-- Larger unsigned numbers do not fit into an integer column. -/
def Fits : Query → Prop
  | .insertStorage _ _ _ _ free total => free < 2 ^ 63 ∧ total < 2 ^ 63
  | .updateStorage free total _ _ _ _ => free < 2 ^ 63 ∧ total < 2 ^ 63
  | _ => True

instance : ∀ q, Decidable (Fits q) := by
  intro q
  unfold Fits
  split <;> infer_instance

/-- The database takes the statement for what it was meant to be. -/
def Readable (q : Query) : Prop := SqlLiteral.read q.text = some q.tokens ∧ Fits q

instance (q : Query) : Decidable (Readable q) := inferInstanceAs (Decidable (_ ∧ _))

/-- A fault stops a statement at prepare, or after some of its rows. -/
inductive Fault where
  | prepare (code : ResultCode) (failed : code ≠ .ok)
  | step (rows : Nat) (code : ResultCode) (failed : code ≠ .done)

theorem busy_ne_ok : ResultCode.busy ≠ .ok := by decide

theorem busy_ne_done : ResultCode.busy ≠ .done := by decide

/-- The database is locked when the statement is prepared. -/
def Fault.busy : Fault := .prepare .busy busy_ne_ok

/-- The connection with the faults that its next statements meet. -/
structure Connection where
  db : Db
  lastRowid : Int
  faults : List (Option Fault)

section Answers

variable (misread : List Char → Db → Option Outcome)

def outcome (q : Query) (db : Db) : Option Outcome :=
  if Readable q then execute q db else misread q.text db

def rowsSteps (code : ResultCode) : List (List (Option String)) → Stepping
  | [] => .ended code
  | row :: rows => .row row (rowsSteps code rows)

def notPrepared (code : ResultCode) (lastRowid : Int) : Statement :=
  ⟨code, [], .ended code, lastRowid, [], fun _ => rfl⟩

theorem executeQuery_notPrepared {code : ResultCode} (failed : code ≠ .ok) (lastRowid : Int)
    (returnInsertId : Bool) :
    executeQuery (notPrepared code lastRowid) returnInsertId = { success := false } :=
  executeQuery_of_prepare_failed failed returnInsertId

theorem rows_rowsSteps (code : ResultCode) (rows : List (List (Option String))) :
    (rowsSteps code rows).rows = rows.map (List.map columnText) := by
  induction rows with
  | nil => rfl
  | cons row rows ih => simp [rowsSteps, Stepping.rows, ih]

/-- The statement that the code sees, and the tables after it. -/
def statement (q : Query) (conn : Connection) : Statement × Db :=
  match conn.faults.head?.join, outcome misread q conn.db with
  | some (.prepare code _), _ => (notPrepared code conn.lastRowid, conn.db)
  | _, none => (notPrepared .error conn.lastRowid, conn.db)
  | some (.step n code _), some o =>
    (⟨.ok, o.columnNames, rowsSteps code (o.rows.take n), conn.lastRowid, [], fun h => by
      simp [rows_rowsSteps, o.noColumns_noRows h]⟩, conn.db)
  | none, some o =>
    (⟨.ok, o.columnNames, rowsSteps .done o.rows, conn.lastRowid, o.inserted, fun h => by
      simp [rows_rowsSteps, o.noColumns_noRows h]⟩, o.db)

/-- `RmsDatabase::executeQuery` on the connection. -/
def answer (ask : Query × Bool) (conn : Connection) : RmsQueryResult × Connection :=
  let (st, db) := statement misread ask.1 conn
  (executeQuery st ask.2, ⟨db, st.lastInsertRowid, conn.faults.tail⟩)

/-- Whatever happens to a statement, the tables are the old or the new ones. -/
theorem answer_db (q : Query) (asked : Bool) (conn : Connection) :
    (answer misread (q, asked) conn).2.db = conn.db ∨
      ∃ o, outcome misread q conn.db = some o ∧
        (answer misread (q, asked) conn).2.db = o.db := by
  change (statement misread q conn).2 = conn.db ∨
    ∃ o, outcome misread q conn.db = some o ∧ (statement misread q conn).2 = o.db
  rw [statement]
  split
  · exact Or.inl rfl
  · exact Or.inl rfl
  · exact Or.inl rfl
  · rename_i o _ ho
    exact Or.inr ⟨o, ho, rfl⟩

theorem answer_db_of_readable {q : Query} (asked : Bool) (readable : Readable q)
    (conn : Connection) :
    (answer misread (q, asked) conn).2.db = conn.db ∨
      ∃ o, execute q conn.db = some o ∧ (answer misread (q, asked) conn).2.db = o.db := by
  have meant : outcome misread q conn.db = execute q conn.db := if_pos readable
  rw [← meant]
  exact answer_db misread q asked conn

theorem answer_of_prepare_fault (q : Query) (asked : Bool) {conn : Connection} {code : ResultCode}
    {failed : code ≠ .ok} (h : conn.faults.head?.join = some (.prepare code failed)) :
    answer misread (q, asked) conn =
      ({ success := false }, ⟨conn.db, conn.lastRowid, conn.faults.tail⟩) := by
  simp only [answer, statement, h, executeQuery_notPrepared failed]
  rfl

theorem answer_db_of_fault {q : Query} (asked : Bool) {conn : Connection} {fault : Fault}
    (h : conn.faults.head?.join = some fault) : (answer misread (q, asked) conn).2.db = conn.db := by
  change (statement misread q conn).2 = conn.db
  rw [statement, h]
  cases fault <;> cases outcome misread q conn.db <;> rfl

/-- No fault stops a statement after it was prepared. -/
def Connection.NoStepFault (conn : Connection) : Prop :=
  ∀ f ∈ conn.faults, ∀ n code failed, f ≠ some (.step n code failed)

@[simp] theorem answer_faults (ask : Query × Bool) (conn : Connection) :
    (answer misread ask conn).2.faults = conn.faults.tail := rfl

theorem Connection.NoStepFault.of_quiet {conn : Connection} (quiet : conn.faults = []) :
    conn.NoStepFault := by
  intro f hf
  rw [quiet] at hf
  cases hf

theorem Connection.NoStepFault.answer {conn : Connection} (h : conn.NoStepFault) (ask : Query × Bool) :
    (Database.answer misread ask conn).2.NoStepFault :=
  fun f hf => h f (List.mem_of_mem_tail hf)

theorem answer_quiet {conn : Connection} (h : conn.faults = []) (ask : Query × Bool) :
    (answer misread ask conn).2.faults = [] := by
  rw [answer_faults, h, List.tail_nil]

/-- Nothing stands in the way of a statement that reads as meant. -/
theorem answer_of_no_fault {q : Query} (asked : Bool) {conn : Connection} {o : Outcome}
    (noFault : conn.faults.head?.join = none) (readable : Readable q)
    (ho : execute q conn.db = some o) :
    answer misread (q, asked) conn =
      ({ success := true
         lastId := if asked then some (toInt32 (o.inserted.getLastD conn.lastRowid)) else none
         columnNames := o.columnNames
         tableRows := o.rows.map (List.map columnText) },
        ⟨o.db, o.inserted.getLastD conn.lastRowid, conn.faults.tail⟩) := by
  have result : outcome misread q conn.db = some o := by rw [outcome, if_pos readable, ho]
  simp only [answer, statement, noFault, result]
  rw [executeQuery_of_prepared rfl, rows_rowsSteps]
  rfl

theorem noFault_of_quiet {conn : Connection} (h : conn.faults = []) :
    conn.faults.head?.join = none := by
  rw [h]
  rfl

/-- Without step faults, a fault is one at prepare. -/
theorem Connection.NoStepFault.prepare {conn : Connection} (h : conn.NoStepFault) {fault : Fault}
    (hf : conn.faults.head?.join = some fault) : ∃ code failed, fault = .prepare code failed := by
  have mem : some fault ∈ conn.faults := List.mem_of_mem_head? (Option.join_eq_some_iff.mp hf)
  cases fault with
  | prepare code failed => exact ⟨code, failed, rfl⟩
  | step n code failed => exact absurd rfl (h _ mem n code failed)

theorem noFault_of_success {q : Query} (asked : Bool) {conn : Connection}
    (noStep : conn.NoStepFault) (success : (answer misread (q, asked) conn).1.success = true) :
    conn.faults.head?.join = none := by
  cases hf : conn.faults.head?.join with
  | none => rfl
  | some fault =>
    obtain ⟨code, failed, rfl⟩ := noStep.prepare hf
    simp [answer_of_prepare_fault misread q asked hf] at success

/-- Without step faults, a query that reports success has done its work, and
one that reports failure has done nothing. -/
theorem answer_cases {q : Query} (asked : Bool) {conn : Connection} {o : Outcome}
    (noStep : conn.NoStepFault) (readable : Readable q) (ho : execute q conn.db = some o) :
    ((answer misread (q, asked) conn).1.success = true ∧
        (answer misread (q, asked) conn).2.db = o.db) ∨
      ((answer misread (q, asked) conn).1.success = false ∧
        (answer misread (q, asked) conn).2.db = conn.db) := by
  cases hf : conn.faults.head?.join with
  | none => exact Or.inl (by simp [answer_of_no_fault misread asked hf readable ho])
  | some fault =>
    obtain ⟨code, failed, rfl⟩ := noStep.prepare hf
    exact Or.inr (by simp [answer_of_prepare_fault misread q asked hf])

end Answers

theorem readable_of_plain {q : Query} (plain : ∀ s ∈ q.strings, SqlLiteral.Plain s.toList)
    (fits : Fits q) : Readable q := ⟨Query.read_text plain, fits⟩

end Database
