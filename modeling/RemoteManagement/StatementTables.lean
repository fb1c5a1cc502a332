import RemoteManagement.Server

/-!
# The tables of the statements

Every statement is about one table, and leaves the others as they are. A program
asks statements about a few tables, which says what its run can change.
-/

namespace StatementTables

open ThriftTypes SqlStatements ExecuteQuery Database QueryProgram Program
open Computer Usage Ingestor Server

inductive TableName where
  | computer
  | storage
  | usage
  | executor
  deriving DecidableEq

def tableOf : Query → TableName
  | .insertComputer _ | .updateComputer _ _ | .fetchComputerById _ => .computer
  | .insertStorage .. | .updateStorage .. | .fetchStorageByComputerId _ => .storage
  | .insertUsage .. | .updateUsage .. | .doesUsageEntryExist .. => .usage
  | .insertExecutor .. | .updateExecutor .. => .executor

/-- The databases agree in all tables but the named one. -/
structure AgreeBut (name : TableName) (db db' : Db) : Prop where
  computers : name ≠ .computer → db'.computers = db.computers
  storages : name ≠ .storage → db'.storages = db.storages
  usages : name ≠ .usage → db'.usages = db.usages
  executors : name ≠ .executor → db'.executors = db.executors

theorem AgreeBut.refl (name : TableName) (db : Db) : AgreeBut name db db :=
  ⟨fun _ => rfl, fun _ => rfl, fun _ => rfl, fun _ => rfl⟩

/-- Of a text only the first statement is prepared, and it is about the table
that the template names, whatever becomes of the strings behind it. -/
def FirstStatement (misread : List Char → Db → Option Outcome) : Prop :=
  ∀ q db o, ¬ Readable q → misread q.text db = some o → AgreeBut (tableOf q) db o.db

theorem firstStatement_none : FirstStatement (fun _ _ => none) := by
  intro q db o unreadable misreads
  cases misreads

theorem execute_agreeBut {q : Query} {db : Db} {o : Outcome} (h : execute q db = some o) :
    AgreeBut (tableOf q) db o.db := by
  cases q with
  | updateUsage =>
    simp only [execute] at h
    split at h
    · obtain rfl := Option.some.inj h
      exact ⟨fun _ => rfl, fun _ => rfl, fun own => absurd rfl own, fun _ => rfl⟩
    · cases h
  | insertComputer | updateComputer =>
    obtain rfl := Option.some.inj h
    exact ⟨fun own => absurd rfl own, fun _ => rfl, fun _ => rfl, fun _ => rfl⟩
  | insertStorage | updateStorage =>
    obtain rfl := Option.some.inj h
    exact ⟨fun _ => rfl, fun own => absurd rfl own, fun _ => rfl, fun _ => rfl⟩
  | insertUsage =>
    obtain rfl := Option.some.inj h
    exact ⟨fun _ => rfl, fun _ => rfl, fun own => absurd rfl own, fun _ => rfl⟩
  | insertExecutor | updateExecutor =>
    obtain rfl := Option.some.inj h
    exact ⟨fun _ => rfl, fun _ => rfl, fun _ => rfl, fun own => absurd rfl own⟩
  | fetchComputerById | fetchStorageByComputerId | doesUsageEntryExist =>
    obtain rfl := Option.some.inj h
    exact .refl _ db

section Runs

variable {misread : List Char → Db → Option Outcome} {α : Type} {p : DbProgram α}
  {names : List TableName}

theorem answer_agreeBut (first : FirstStatement misread) (ask : Query × Bool) (conn : Connection) :
    AgreeBut (tableOf ask.1) conn.db (answer misread ask conn).2.db := by
  rcases answer_db misread ask.1 ask.2 conn with same | ⟨o, outcome, same⟩
  · rw [same]
    exact .refl _ conn.db
  · rw [same]
    rw [Database.outcome] at outcome
    split at outcome
    · exact execute_agreeBut outcome
    · rename_i unreadable
      exact first ask.1 conn.db o unreadable outcome

/-- The statement is about one of the tables. -/
def About (names : List TableName) (ask : Query × Bool) : Prop := tableOf ask.1 ∈ names

theorem computers_run (first : FirstStatement misread) (about : p.Only (About names))
    (off : .computer ∉ names) (conn : Connection) :
    (p.run (answer misread) conn).2.db.computers = conn.db.computers := by
  refine run_only (answer misread) (fun s t => t.db.computers = s.db.computers) (fun _ => rfl)
    (fun _ _ _ first second => second.trans first) (fun ask conn h => ?_) about conn
  exact (answer_agreeBut first ask conn).computers fun own => off (own ▸ h)

theorem usages_run (first : FirstStatement misread) (about : p.Only (About names))
    (off : .usage ∉ names) (conn : Connection) :
    (p.run (answer misread) conn).2.db.usages = conn.db.usages := by
  refine run_only (answer misread) (fun s t => t.db.usages = s.db.usages) (fun _ => rfl)
    (fun _ _ _ first second => second.trans first) (fun ask conn h => ?_) about conn
  exact (answer_agreeBut first ask conn).usages fun own => off (own ▸ h)

variable (misread) in
theorem quiet_run (p : DbProgram α) {conn : Connection} (quiet : conn.faults = []) :
    (p.run (answer misread) conn).2.faults = [] := by
  induction p generalizing conn with
  | ret a => exact quiet
  | query q next ih => exact ih _ (answer_quiet misread quiet q)

end Runs

section Programs

theorem about_mono {names names' : List TableName} (sub : names ⊆ names') {α : Type}
    {p : DbProgram α} (about : p.Only (About names)) : p.Only (About names') :=
  only_mono (fun _ h => sub h) about

theorem addStorages_about (computerId : Int) (devs : List RmsStorageInfo) :
    (addStorages computerId devs).Only (About [.storage]) := by
  induction devs with
  | nil => trivial
  | cons dev devs ih => exact only_bind (only_ask (.head _)) fun _ => only_bind ih fun _ => trivial

theorem updateStorages_about (success : Bool) (devs : List RmsStorageInfo) :
    (updateStorages success devs).Only (About [.storage]) := by
  induction devs generalizing success with
  | nil => trivial
  | cons dev devs ih =>
    rw [updateStorages]
    split
    · exact only_bind (only_ask (.head _)) fun _ => only_bind (ih _) fun _ => trivial
    · exact only_bind (ih _) fun _ => trivial

theorem getStorageFromDB_about (c : RmsComputer) : c.getStorageFromDB.Only (About [.storage]) := by
  refine only_bind (only_ask (.head _)) fun res => ?_
  split <;> trivial

/-- The tables of a computer's own records. -/
abbrev records : List TableName := [.computer, .storage]

theorem storage_records : [TableName.storage] ⊆ records := by decide

theorem addToDB_about (c : RmsComputer) : c.addToDB.Only (About records) := by
  refine only_bind (only_ask (.head _)) fun res => ?_
  split
  · exact only_bind (about_mono storage_records (addStorages_about _ _)) fun _ => trivial
  · trivial

theorem updateDB_about (c : RmsComputer) : c.updateDB.Only (About records) := by
  rw [RmsComputer.updateDB]
  split
  · trivial
  · refine only_bind ?_ fun _ =>
      only_bind (about_mono storage_records (updateStorages_about _ _)) fun _ => trivial
    rw [RmsComputer.updateSysInfo]
    split
    · exact only_bind (only_ask (.head _)) fun _ => trivial
    · trivial

theorem getFromDB_about (junk : VersionData) (c : RmsComputer) :
    (c.getFromDB junk).Only (About records) := by
  rw [RmsComputer.getFromDB]
  split
  · trivial
  · refine only_bind (only_ask (.head _)) fun res => ?_
    split
    · split
      · trivial
      · exact about_mono storage_records (getStorageFromDB_about _)
    · exact only_bind (addToDB_about c) fun _ => trivial
    · trivial

theorem handshake_about (junk : VersionData) (id : Int) (sysInfo : SystemInfo) :
    (Handshake.handshake junk id sysInfo).Only (About records) := by
  rw [Handshake.handshake]
  split
  · refine only_bind (getFromDB_about junk _) fun out => ?_
    obtain ⟨loaded | _, c⟩ := out
    · trivial
    · exact only_bind (updateDB_about _) fun _ => trivial
  · exact only_bind (addToDB_about _) fun _ => trivial

theorem runCommand_about (computerId timestamp : Int) (cmd : String) :
    (runCommand computerId timestamp cmd).Only (About [.executor]) := by
  refine only_bind (only_ask (.head _)) fun res => ?_
  split <;> trivial

theorem updateExecutor_about (computer : Option RmsComputer) (data : RmsRequestData) :
    (updateExecutor computer data).Only (About [.executor]) := by
  rw [updateExecutor]
  split
  · exact only_bind (only_ask (.head _)) fun _ => trivial
  · trivial

theorem pushUsages_about (tick : Int) (date : Date) (us : List UsageContainer) :
    (pushUsages tick date us).Only (About [.usage]) := by
  induction us with
  | nil => trivial
  | cons u us ih =>
    refine only_bind ?_ fun _ => only_bind (only_ask (.head _)) fun _ => ih
    rw [ensureEntry]
    split
    · refine only_bind (only_ask (.head _)) fun res => ?_
      rw [insertEntry]
      split
      · exact only_bind (only_ask (.head _)) fun _ => trivial
      · trivial
    · trivial

theorem ingestRequestData_about (clock : Clock) (data : RmsRequestData) (ing : DbRequestIngestor)
    (computer : Option RmsComputer) :
    (ingestRequestData clock data ing computer).Only (About [.usage, .executor]) := by
  rw [ingestRequestData]
  split
  · trivial
  · refine only_bind (about_mono (by decide) (updateExecutor_about _ data)) fun served => ?_
    split
    · simp only [pushIfDue]
      split
      · trivial
      · trivial
      · refine only_bind (only_bind ?_ fun _ => trivial) fun _ => trivial
        exact about_mono (by decide) (pushUsages_about _ _ _)
    · trivial

theorem ingestRequest_about (ing : DbRequestIngestor) (computer : Option RmsComputer)
    (data : List (Clock × RmsRequestData)) :
    (ingestRequest ing computer data).Only (About [.usage, .executor]) := by
  induction data generalizing ing computer with
  | nil => trivial
  | cons item data ih =>
    refine only_bind (ingestRequestData_about item.1 item.2 ing computer) fun o => ?_
    cases o with
    | none => trivial
    | some out => exact ih out.ingestor out.computer

end Programs

end StatementTables
