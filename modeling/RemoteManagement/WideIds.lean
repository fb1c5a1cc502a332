import RemoteManagement.Identity
import RemoteManagement.StorageColumns

/-!
# Ids that do not fit an int

A handshake takes an id of 64 bits and compares it with -1; the computer keeps
32 bits of it, and the load and the update compare those. What a handshake
promises is compared with what it does, over all ids.
-/

namespace WideIds

open ThriftTypes SqlStatements ExecuteQuery RowTable Database DecimalText QueryProgram Program
open Computer Handshake QuotelessStatements ComputerColumns StorageColumns Identity

section Loads

variable {misread : List Char → Db → Option Outcome} (junk : VersionData)

def InLong (n : Int) : Prop := -2 ^ 63 ≤ n ∧ n < 2 ^ 63

instance (n : Int) : Decidable (InLong n) := inferInstanceAs (Decidable (_ ∧ _))

/-- The rows of the computer can be loaded without an exception. -/
def Loadable (db : Db) (id : Int) : Prop :=
  (∀ r ∈ db.computers.rows, r.computerId = id → InLong r.cpuCoreCount ∧ InLong r.cpuCacheSize) ∧
    ∀ r ∈ storagesOf db id, Readable32 r

instance (db : Db) (id : Int) : Decidable (Loadable db id) := inferInstanceAs (Decidable (_ ∧ _))

theorem loadComputerColumns_iff (r : ComputerRow) :
    (loadColumns (loadComputerColumn junk) {}
        (computerColumns.zip ((computerCells r).map columnText))).1 = .ok () ↔
      InLong r.cpuCoreCount ∧ InLong r.cpuCacheSize := by
  have cores := stol_repr r.cpuCoreCount
  have cache := stol_repr r.cpuCacheSize
  split at cores
  · rename_i fits
    split at cache
    · rename_i fits'
      refine iff_of_true ?_ ⟨fits, fits'⟩
      by_cases arch : r.cpuArch = "kX86_64" <;>
      simp [loadColumns, loadComputerColumn, computerColumns, computerCells, columnText, cores,
        cache, arch, Bind.bind, Except.bind, pure, Except.pure]
    · rename_i large
      refine iff_of_false ?_ fun readable => large readable.2
      simp [loadColumns, loadComputerColumn, computerColumns, computerCells, columnText, cores,
        cache, Bind.bind, Except.bind, pure, Except.pure]
  · rename_i large
    refine iff_of_false ?_ fun readable => large readable.1
    simp [loadColumns, loadComputerColumn, computerColumns, computerCells, columnText, cores,
      Bind.bind, Except.bind, pure, Except.pure]

theorem ok_getStorageFromDB_iff (documented : Documented misread) (c : RmsComputer)
    {conn : Connection} (noStep : conn.NoStepFault)
    (answered : c.getStorageFromDB.AllAnswers (answer misread) (·.success = true) conn) :
    (∃ b, (c.getStorageFromDB.run (answer misread) conn).1.1 = .ok b) ↔
      ∀ r ∈ storagesOf conn.db c.computerId, Readable32 r := by
  rw [RmsComputer.getStorageFromDB, bind_eq, allAnswers_bind, allAnswers_ask] at answered
  have first := answer_of_done documented (quoteless_fetchStorage c.computerId) trivial noStep rfl
    answered.1
  rw [run_getStorageFromDB_of_answer c first rfl rfl rfl, ← loadStorages_iff]
  cases (loadStorages storageColumns (texts (storagesOf conn.db c.computerId))).1 with
  | error e => simp [Except.map]
  | ok => simp [Except.map]

/-- A known computer is loaded without an exception exactly if its rows can be. -/
theorem ok_getFromDB_iff (documented : Documented misread) {id : Int} {conn : Connection}
    (valid : id ≠ -1) (known : id ∈ conn.db.computers.ids) (noStep : conn.NoStepFault)
    (answered : ((RmsComputer.create id).getFromDB junk).AllAnswers (answer misread)
      (·.success = true) conn) :
    (∃ b, (((RmsComputer.create id).getFromDB junk).run (answer misread) conn).1.1 = .ok b) ↔
      Loadable conn.db id := by
  obtain ⟨r, one⟩ := computerRow_of_known known
  have row : (∀ s ∈ conn.db.computers.rows, s.computerId = id →
      InLong s.cpuCoreCount ∧ InLong s.cpuCacheSize) ↔
      InLong r.cpuCoreCount ∧ InLong r.cpuCacheSize := by
    have single := List.forall_mem_singleton (p := fun s : ComputerRow =>
      InLong s.cpuCoreCount ∧ InLong s.cpuCacheSize) (a := r)
    rw [← single, ← one]
    simp
  have own : ¬ (RmsComputer.create id).computerId = -1 := valid
  rw [RmsComputer.getFromDB, if_neg own, bind_eq, allAnswers_bind, allAnswers_ask] at answered
  have first := answer_of_done documented (quoteless_fetchComputer id) trivial noStep rfl answered.1
  have next := noStep.answer misread (.fetchComputerById id, false)
  simp only [Outcome.select, one, List.map_cons, List.map_nil] at first
  rw [Loadable, row, ← loadComputerColumns_iff junk r, computerColumns, RmsComputer.getFromDB,
    if_neg own]
  simp only [RmsComputer.create, bind_eq, pure_eq, run_bind, run_ask, first] at answered next ⊢
  cases load : loadColumns (loadComputerColumn junk) {} (["computer_id", "system_name", "host_name",
      "os_version", "client_version", "cpu_name", "cpu_vendor", "cpu_core_count", "cpu_cache_size",
      "cpu_arch"].zip ((computerCells r).map columnText)) with
  | mk done info =>
    simp only [load] at answered ⊢
    cases done with
    | error e => simp
    | ok => simpa using ok_getStorageFromDB_iff documented _ next answered.2

end Loads

section Handshakes

variable (misread : List Char → Db → Option Outcome) (junk : VersionData)

/-- What a handshake under an id promises. A known computer keeps its id and the
table its rows; an unknown one gets the id of a row that was not there before;
and other rows are as they were. -/
structure Lawful (db : Db) (id : Int) (r : (Except StdException Int × RmsComputer) × Connection) :
    Prop where
  known : id ∈ db.computers.ids → r.1.1 = .ok id ∧ r.2.db.computers.ids = db.computers.ids
  unknown : id ∉ db.computers.ids →
    ∃ n, r.1.1 = .ok n ∧ n ∉ db.computers.ids ∧ n ∈ r.2.db.computers.ids
  others : ∀ row ∈ db.computers.rows, row.computerId ≠ id → row ∈ r.2.db.computers.rows
  valid : r.1.1 ≠ .ok (-1)

/-- Every query of the handshake is answered with success. -/
structure Succeeding (id : Int) (info : SystemInfo) (conn : Connection) : Prop where
  noStep : conn.NoStepFault
  answered : (handshake junk id info).AllAnswers (answer misread) (·.success = true) conn

variable {misread junk} {id : Int} {info : SystemInfo} {conn : Connection}

theorem inInt_of_mem_ids {db : Db} (fits : InInt (newRowid db.computers.ids))
    (known : id ∈ db.computers.ids) : InInt id := by
  have positive := positive_of_mem_ids known
  have below := le_foldr_max known
  have largest := fits.2
  rw [newRowid] at largest
  constructor <;> omega

/-- A statement that writes at most the row of one computer. -/
def OnRow (id : Int) (ask : Query × Bool) : Prop :=
  Quoteless ask.1 ∧ ∀ a n, ask.1 = .updateComputer a n → n = id

theorem onRow_of_onStorages (id : Int) (ask : Query × Bool) (h : OnStorages ask) :
    OnRow id ask := by
  refine ⟨h.1, fun a n same => ?_⟩
  have writes := h.2
  rw [same] at writes
  exact writes.elim

theorem updateDB_onRow {c : RmsComputer} (sysInfo : Quoteless (.insertComputer c.insertArgs))
    (storage : ∀ dev ∈ c.storageInfo, dev.dirty = true → QuotelessRecord dev) :
    c.updateDB.Only (OnRow c.computerId) := by
  rw [RmsComputer.updateDB]
  split
  · exact trivial
  · refine only_bind ?_ fun r => only_bind (only_mono (onRow_of_onStorages c.computerId)
      (updateStorages_onStorages r.1 storage)) fun _ => trivial
    rw [RmsComputer.updateSysInfo]
    split
    · refine only_bind (only_ask ⟨quoteless_updateComputer sysInfo c.computerId, ?_⟩) fun _ =>
        trivial
      intro a n same
      injection same with _ own
      exact own.symm
    · exact trivial

/-- The rows of other computers stay as they are. -/
theorem rows_updateDB (documented : Documented misread) {c : RmsComputer}
    (sysInfo : Quoteless (.insertComputer c.insertArgs))
    (storage : ∀ dev ∈ c.storageInfo, dev.dirty = true → QuotelessRecord dev) (conn : Connection) :
    ∀ row ∈ conn.db.computers.rows, row.computerId ≠ c.computerId →
      row ∈ (c.updateDB.run (answer misread) conn).2.db.computers.rows := by
  refine run_only (answer misread)
    (fun s t => ∀ row ∈ s.db.computers.rows, row.computerId ≠ c.computerId →
      row ∈ t.db.computers.rows)
    (fun _ _ hrow _ => hrow)
    (fun _ _ _ first second row hrow other => second row (first row hrow other) other) ?_
    (updateDB_onRow sysInfo storage) conn
  intro ask s own row hrow other
  rcases computerRow_answered (answer_quoteless documented own.1 ask.2 s) hrow with kept | ⟨a, same⟩
  · exact kept
  · exact absurd (own.2 a row.computerId same) other

/-- The second half of a handshake with a computer that is in the table. -/
theorem report_written (documented : Documented misread) (quoteless : QuotelessReport info)
    {c : RmsComputer} (clean : ∀ dev ∈ c.storageInfo, dev.dirty = false) (conn : Connection) :
    let r := (c.setSysInfo info).updateDB.run (answer misread) conn
    r.1.2.computerId = c.computerId ∧ r.2.db.computers.ids = conn.db.computers.ids ∧
      ∀ row ∈ conn.db.computers.rows, row.computerId ≠ c.computerId →
        row ∈ r.2.db.computers.rows := by
  have sysInfo := quoteless_insertComputer quoteless (setSysInfo_sysInfo c info)
  have own := setSysInfo_computerId c info
  have storage : ∀ dev ∈ (c.setSysInfo info).storageInfo, dev.dirty = true →
      QuotelessRecord dev := by
    rw [setSysInfo_storageInfo]
    exact quotelessRecord_of_dirty quoteless fun dev hdev dirty => by simp [clean dev hdev] at dirty
  have rows := rows_updateDB documented sysInfo storage conn
  rw [own] at rows
  exact ⟨(computerId_updateDB _ _ _).trans own,
    ids_of_only documented (updateDB_only sysInfo storage) conn, rows⟩

theorem handshake_of_valid (valid : id ≠ -1) :
    handshake junk id info =
      ((RmsComputer.create (toInt32 id)).getFromDB junk).bind fun loaded =>
        match loaded.1 with
        | .error e => .ret (.error e, loaded.2)
        | .ok _ => ((loaded.2.setSysInfo info).updateDB).bind fun r =>
            .ret (.ok r.2.computerId, r.2) := by
  rw [handshake, if_pos valid]
  rfl

/-- An id that is cut to -1 asks nothing and is answered with -1. -/
theorem returns_of_cut (valid : id ≠ -1) (cut : toInt32 id = -1) :
    (runHandshake misread junk id info conn).1.1 = .ok (-1) := by
  have own : ((RmsComputer.create (-1)).setSysInfo info).computerId = -1 :=
    setSysInfo_computerId (RmsComputer.create (-1)) info
  rw [runHandshake, handshake_of_valid valid, cut]
  have unloaded : (RmsComputer.create (-1)).getFromDB junk =
      .ret (.ok false, RmsComputer.create (-1)) := rfl
  have unwritten : ((RmsComputer.create (-1)).setSysInfo info).updateDB =
      .ret (false, (RmsComputer.create (-1)).setSysInfo info) := by
    rw [RmsComputer.updateDB, if_pos own]
    rfl
  simp only [unloaded, unwritten, ret_bind, run_ret]
  exact congrArg Except.ok own

/-- Adding a computer appends its row. -/
theorem run_addToDB_done (documented : Documented misread) {c : RmsComputer}
    (sysInfo : Quoteless (.insertComputer c.insertArgs))
    (storage : ∀ dev ∈ c.storageInfo, QuotelessRecord dev) (noStep : conn.NoStepFault)
    (fits : InInt (newRowid conn.db.computers.ids))
    (answered : c.addToDB.AllAnswers (answer misread) (·.success = true) conn) :
    ∃ devs conn', c.addToDB.run (answer misread) conn =
        ((true, { c with computerId := newRowid conn.db.computers.ids, storageInfo := devs }),
          conn') ∧
      conn'.db.computers.rows =
        conn.db.computers.rows ++ [computerRow c.insertArgs (newRowid conn.db.computers.ids)] ∧
      (c.storageInfo = [] → devs = []) := by
  rw [RmsComputer.addToDB, bind_eq, allAnswers_bind, allAnswers_ask] at answered
  obtain ⟨next, -, -, run, rows⟩ :=
    run_addToDB_of_success documented sysInfo storage noStep fits answered.1
  exact ⟨_, _, run, rows, fun none => by simp [none, addStorages]⟩

theorem ids_of_rows_append {db db' : Db} {row : ComputerRow}
    (h : db'.computers.rows = db.computers.rows ++ [row]) :
    db'.computers.ids = db.computers.ids ++ [row.computerId] := by
  rw [Table.ids, h, List.map_append]
  rfl

theorem lawful_new (documented : Documented misread) (quoteless : QuotelessReport info)
    (succeeding : Succeeding misread junk (-1) info conn)
    (fits : InInt (newRowid conn.db.computers.ids)) :
    Lawful conn.db (-1) (runHandshake misread junk (-1) info conn) := by
  have new : handshake junk (-1) info = ((RmsComputer.create (-1)).setSysInfo info).addToDB.bind
      fun r => .ret (.ok r.2.computerId, r.2) := rfl
  have answered := succeeding.answered
  rw [new, allAnswers_bind] at answered
  obtain ⟨devs, conn', run, rows, -⟩ := run_addToDB_done documented
    (quoteless_insertComputer quoteless (setSysInfo_sysInfo _ info))
    (by rw [setSysInfo_storageInfo]; exact quotelessRecord_of_report quoteless)
    succeeding.noStep fits answered.1
  have ids := ids_of_rows_append rows
  have positive := newRowid_pos conn.db.computers.ids
  rw [runHandshake, new, run_bind, run, run_ret]
  refine ⟨fun known => absurd (positive_of_mem_ids known) (by decide), fun _ => ?_, ?_, ?_⟩
  · exact ⟨_, rfl, newRowid_notMem _, by rw [ids]; exact List.mem_append_right _ List.mem_cons_self⟩
  · intro row hrow _
    rw [rows]
    exact List.mem_append_left _ hrow
  · intro minus
    have : newRowid conn.db.computers.ids = -1 := Except.ok.inj minus
    omega

/-- A known computer keeps its id, whatever the report is, or it cannot be loaded. -/
theorem runHandshake_known (documented : Documented misread) (valid : toInt32 id ≠ -1)
    (known : toInt32 id ∈ conn.db.computers.ids)
    (succeeding : Succeeding misread junk id info conn) :
    (¬ Loadable conn.db (toInt32 id) ∧
        ∃ e, (runHandshake misread junk id info conn).1.1 = .error e) ∨
      Loadable conn.db (toInt32 id) ∧
        (runHandshake misread junk id info conn).1.1 = .ok (toInt32 id) ∧
        ∃ (c : RmsComputer) (conn' : Connection), conn'.db = conn.db ∧
          c.computerId = toInt32 id ∧ (∀ dev ∈ c.storageInfo, dev.dirty = false) ∧
          (runHandshake misread junk id info conn).2 =
            ((c.setSysInfo info).updateDB.run (answer misread) conn').2 := by
  have new : id ≠ -1 := by
    rintro rfl
    exact valid rfl
  have answered := succeeding.answered
  rw [handshake_of_valid new, allAnswers_bind] at answered
  have ok := ok_getFromDB_iff junk documented valid known succeeding.noStep answered.1
  have unstopped : stopsAfter conn ≠ some 0 := by
    simp [stopsAfter_of_noStepFault succeeding.noStep]
  obtain ⟨done, c, conn', run, same, own, clean⟩ :=
    run_getFromDB_known documented junk valid known unstopped
  rw [run] at ok
  rw [runHandshake, handshake_of_valid new, run_bind, run]
  cases done with
  | error e => exact Or.inl ⟨fun loadable => by simpa using ok.mpr loadable, e, rfl⟩
  | ok b =>
    refine Or.inr ⟨ok.mp ⟨b, rfl⟩, ?_, c, conn', same, own, clean, ?_⟩
    · simp only [run_bind, run_ret]
      rw [computerId_updateDB, setSysInfo_computerId, own]
    · simp only [run_bind, run_ret]

/-- The id is none, or does not come to a computer of another id or one that cannot
be loaded when it is cut to 32 bits. -/
def OwnId (db : Db) (id : Int) : Prop :=
  id = -1 ∨ toInt32 id ≠ -1 ∧
    (toInt32 id ∈ db.computers.ids → toInt32 id = id ∧ Loadable db id)

/-- An id that is cut to that of another computer is answered with that one's. -/
theorem ownId_of_lawful (documented : Documented misread)
    (succeeding : Succeeding misread junk id info conn)
    (fits : InInt (newRowid conn.db.computers.ids))
    (lawful : Lawful conn.db id (runHandshake misread junk id info conn)) :
    OwnId conn.db id := by
  by_cases new : id = -1
  · exact Or.inl new
  refine Or.inr ⟨fun cut => lawful.valid (returns_of_cut new cut), fun known => ?_⟩
  have valid : toInt32 id ≠ -1 := fun cut => lawful.valid (returns_of_cut new cut)
  rcases runHandshake_known documented valid known succeeding with
    ⟨-, e, thrown⟩ | ⟨loadable, returned, -⟩
  · by_cases there : id ∈ conn.db.computers.ids
    · have kept := (lawful.known there).1
      rw [thrown] at kept
      cases kept
    · obtain ⟨n, result, -⟩ := lawful.unknown there
      rw [thrown] at result
      cases result
  · have whole : toInt32 id = id := by
      by_contra cut
      have unknown : id ∉ conn.db.computers.ids := fun there =>
        cut (toInt32_of_inInt (inInt_of_mem_ids fits there))
      obtain ⟨n, result, fresh, -⟩ := lawful.unknown unknown
      rw [returned] at result
      exact fresh (Except.ok.inj result ▸ known)
    rw [whole] at loadable
    exact ⟨whole, loadable⟩

theorem lawful_known (documented : Documented misread) (quoteless : QuotelessReport info)
    (valid : toInt32 id ≠ -1) (known : toInt32 id ∈ conn.db.computers.ids)
    (succeeding : Succeeding misread junk id info conn) (whole : toInt32 id = id)
    (loadable : Loadable conn.db id) :
    Lawful conn.db id (runHandshake misread junk id info conn) := by
  rcases runHandshake_known documented valid known succeeding with
    ⟨broken, -⟩ | ⟨-, returned, c, conn', same, own, clean, written⟩
  · exact absurd (whole.symm ▸ loadable) broken
  · obtain ⟨-, ids, rows⟩ := report_written documented quoteless clean conn'
    rw [same, ← written] at ids
    rw [same, own, whole, ← written] at rows
    rw [whole] at known returned valid
    refine ⟨fun _ => ⟨returned, ids⟩, fun unknown => absurd known unknown, rows, fun minus => ?_⟩
    rw [returned] at minus
    exact valid (Except.ok.inj minus)

/-- An unknown computer is added while it is loaded. -/
theorem run_getFromDB_added (documented : Documented misread) (valid : id ≠ -1)
    (unknown : id ∉ conn.db.computers.ids) (noStep : conn.NoStepFault)
    (fits : InInt (newRowid conn.db.computers.ids))
    (answered : ((RmsComputer.create id).getFromDB junk).AllAnswers (answer misread)
      (·.success = true) conn) :
    ∃ c conn' row, ((RmsComputer.create id).getFromDB junk).run (answer misread) conn =
        ((.ok true, c), conn') ∧
      c.computerId = newRowid conn.db.computers.ids ∧ c.storageInfo = [] ∧
      row.computerId = newRowid conn.db.computers.ids ∧
      conn'.db.computers.rows = conn.db.computers.rows ++ [row] := by
  have none : conn.db.computers.rows.filter (fun r => r.computerId = id) = [] := by
    rw [List.filter_eq_nil_iff]
    intro r hr
    simpa using fun own => unknown (List.mem_map.mpr ⟨r, hr, own⟩)
  have own : ¬ (RmsComputer.create id).computerId = -1 := valid
  rw [RmsComputer.getFromDB, if_neg own, bind_eq, allAnswers_bind, allAnswers_ask] at answered
  have first := answer_of_done documented (quoteless_fetchComputer id) trivial noStep rfl answered.1
  have next := noStep.answer misread (.fetchComputerById id, false)
  have sysInfo : Quoteless (.insertComputer (RmsComputer.create id).insertArgs) := by
    simp only [Quoteless, Query.strings, RmsComputer.create, RmsComputer.insertArgs]
    decide
  simp only [Outcome.select, none, List.map_nil] at first
  rw [RmsComputer.getFromDB, if_neg own]
  rw [first] at next
  simp only [bind_eq, pure_eq, run_bind, run_ask, show (RmsComputer.create id).computerId = id from rfl,
    first] at answered ⊢
  obtain ⟨devs, conn', added, rows, empty⟩ := run_addToDB_done documented sysInfo
    (fun dev hdev => absurd hdev List.not_mem_nil) next fits (by simpa using answered.2)
  rw [empty rfl] at added
  refine ⟨_, conn', computerRow (RmsComputer.create id).insertArgs (newRowid conn.db.computers.ids),
    by rw [added, run_ret], rfl, rfl, rfl, rows⟩

theorem lawful_unknown (documented : Documented misread) (quoteless : QuotelessReport info)
    (valid : toInt32 id ≠ -1)
    (unknown : toInt32 id ∉ conn.db.computers.ids)
    (succeeding : Succeeding misread junk id info conn)
    (fits : InInt (newRowid conn.db.computers.ids)) :
    Lawful conn.db id (runHandshake misread junk id info conn) := by
  have new : id ≠ -1 := by
    rintro rfl
    exact valid rfl
  have absent : id ∉ conn.db.computers.ids := by
    intro there
    rw [toInt32_of_inInt (inInt_of_mem_ids fits there)] at unknown
    exact unknown there
  have answered := succeeding.answered
  rw [handshake_of_valid new, allAnswers_bind] at answered
  obtain ⟨c, conn', row, run, own, none, added, rows⟩ :=
    run_getFromDB_added documented valid unknown succeeding.noStep fits answered.1
  obtain ⟨returns, ids, kept⟩ := report_written documented quoteless
    (c := c) (by simp [none]) conn'
  have gained := ids_of_rows_append rows
  have fresh := newRowid_notMem conn.db.computers.ids
  have positive := newRowid_pos conn.db.computers.ids
  rw [runHandshake, handshake_of_valid new, run_bind, run]
  simp only [run_bind, run_ret, returns, own]
  refine ⟨fun there => absurd there absent, fun _ => ⟨_, rfl, fresh, ?_⟩, ?_, ?_⟩
  · rw [ids, gained, added]
    exact List.mem_append_right _ List.mem_cons_self
  · intro old hold _
    refine kept old (rows ▸ List.mem_append_left _ hold) fun same => fresh ?_
    exact own ▸ same ▸ List.mem_map_of_mem hold
  · intro minus
    have := Except.ok.inj minus
    omega

end Handshakes

section Reports

variable {misread : List Char → Db → Option Outcome} {info : SystemInfo}

/-- A statement that is read as meant, and that the database can do. -/
def Answerable (ask : Query × Bool) : Prop :=
  Readable ask.1 ∧ ∀ db, ∃ o, execute ask.1 db = some o

theorem addStorages_answerable (computerId : Int) {devs : List RmsStorageInfo}
    (writable : ∀ dev ∈ devs, Writable dev) : (addStorages computerId devs).Only Answerable := by
  induction devs with
  | nil => exact trivial
  | cons dev devs ih =>
    simp only [List.forall_mem_cons] at writable
    exact only_bind (only_ask ⟨writable.1.readable_insert computerId, fun _ => ⟨_, rfl⟩⟩) fun _ =>
      only_bind (ih writable.2) fun _ => trivial

theorem updateStorages_answerable (success : Bool) {devs : List RmsStorageInfo}
    (writable : ∀ dev ∈ devs, dev.dirty = true → Writable dev) :
    (updateStorages success devs).Only Answerable := by
  induction devs generalizing success with
  | nil => exact trivial
  | cons dev devs ih =>
    simp only [List.forall_mem_cons] at writable
    rw [updateStorages]
    split
    · rename_i dirty
      exact only_bind (only_ask ⟨(writable.1 dirty).readable_update, fun _ => ⟨_, rfl⟩⟩) fun res =>
        only_bind (ih res.success writable.2) fun _ => trivial
    · exact only_bind (ih success writable.2) fun _ => trivial

theorem addToDB_answerable {c : RmsComputer} (readable : Readable (.insertComputer c.insertArgs))
    (writable : ∀ dev ∈ c.storageInfo, Writable dev) : c.addToDB.Only Answerable := by
  refine only_bind (only_ask ⟨readable, fun _ => ⟨_, rfl⟩⟩) fun res => ?_
  split
  · exact only_bind (addStorages_answerable _ writable) fun _ => trivial
  · exact trivial

theorem updateDB_answerable {c : RmsComputer}
    (readable : Readable (.updateComputer c.updateArgs c.computerId))
    (writable : ∀ dev ∈ c.storageInfo, dev.dirty = true → Writable dev) :
    c.updateDB.Only Answerable := by
  rw [RmsComputer.updateDB]
  split
  · exact trivial
  · refine only_bind ?_ fun r =>
      only_bind (updateStorages_answerable r.1 writable) fun _ => trivial
    rw [RmsComputer.updateSysInfo]
    split
    · exact only_bind (only_ask ⟨readable, fun _ => ⟨_, rfl⟩⟩) fun _ => trivial
    · exact trivial

theorem readable_create (id : Int) :
    Readable (.insertComputer (RmsComputer.create id).insertArgs) := by
  refine readable_of_plain ?_ trivial
  simp only [Query.strings, RmsComputer.create, RmsComputer.insertArgs]
  decide

theorem getFromDB_answerable (junk : VersionData) (id : Int) :
    ((RmsComputer.create id).getFromDB junk).Only Answerable := by
  have fetch (q : Query) (none : q.strings = []) (fits : Fits q) : Readable q :=
    readable_of_plain (by simp [none]) fits
  rw [RmsComputer.getFromDB]
  split
  · exact trivial
  · refine only_bind (only_ask ⟨fetch _ rfl trivial, fun _ => ⟨_, rfl⟩⟩) fun res => ?_
    split
    · split
      · exact trivial
      · refine only_bind (only_ask ⟨fetch _ rfl trivial, fun _ => ⟨_, rfl⟩⟩) fun res => ?_
        split <;> exact trivial
    · exact only_bind (addToDB_answerable (readable_create id)
        fun dev hdev => absurd hdev List.not_mem_nil) fun _ => trivial
    · exact trivial

/-- Whatever has been stored, what is asked comes from the report. -/
theorem handshake_answerable (junk : VersionData) (id : Int) (plain : PlainReport info) :
    (handshake junk id info).Only Answerable := by
  by_cases new : id = -1
  · subst new
    have sysInfo := setSysInfo_sysInfo (RmsComputer.create (-1)) info
    refine only_bind (addToDB_answerable (readable_insertComputer plain sysInfo) ?_) fun _ => trivial
    rw [setSysInfo_storageInfo]
    exact writable_of_report plain
  · rw [handshake_of_valid new]
    refine only_bind_of_returns (getFromDB_answerable junk _)
      (returns_unread_getFromDB junk (toInt32 id)) fun loaded unread => ?_
    split
    · exact trivial
    · have sysInfo := setSysInfo_sysInfo loaded.2 info
      refine only_bind (updateDB_answerable (readable_updateComputer plain sysInfo _) ?_) fun _ =>
        trivial
      rw [setSysInfo_storageInfo]
      exact writable_of_dirty plain fun dev hdev => (unread dev hdev).clean

/-- Nothing stands in the way of a report of plain strings. -/
theorem succeeding_of_plain (junk : VersionData) (id : Int) (plain : PlainReport info)
    {conn : Connection} (quiet : conn.faults = []) : Succeeding misread junk id info conn where
  noStep := .of_quiet quiet
  answered := by
    refine allAnswers_of_only (answer misread) (fun conn => conn.faults = [])
      (fun q _ quiet => answer_quiet misread quiet q) ?_ (handshake_answerable junk id plain) quiet
    rintro ⟨q, asked⟩ conn ⟨readable, executes⟩ quiet
    obtain ⟨o, ho⟩ := executes conn.db
    rw [answer_of_no_fault misread asked (noFault_of_quiet quiet) readable ho]

end Reports

def otherPc (id : Int) (hostName : String) : ComputerRow :=
  ⟨id, "", hostName, "0.0.0", "0.0.0", "", "", 0, 0, "kX86_64"⟩

/-- A second computer reports a name with a quote in it. -/
def pcs : Db :=
  { emptyDb with computers := ⟨[otherPc 1 "pc", otherPc 2 "pc"], by decide, by decide⟩ }

def quotedHost : SystemInfo := { hostName := "x', computer_id=99 WHERE computer_id=1; --" }

/-- What the update with that name says to the end of its first statement. -/
def moved : Db :=
  { emptyDb with computers := ⟨[otherPc 99 "x", otherPc 2 "pc"], by decide, by decide⟩ }

def firstStatement (text : List Char) (_ : Db) : Option Outcome :=
  let c := (RmsComputer.create 2).setSysInfo quotedHost
  if text = (Query.updateComputer c.updateArgs 2).text then some (.write moved []) else none

end WideIds
