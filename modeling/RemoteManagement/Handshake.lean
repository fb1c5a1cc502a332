import RemoteManagement.Computer
import Mathlib.Data.List.Forall2

/-!
# RmsClient::handshake

A handshake takes one of three paths: a new computer is set and added; a known
one is loaded, set and updated; an unknown one is added while it is loaded,
before it is set. Only an insert gives a storage record a row, and only the
first path inserts records that come from the report. What the table holds
afterwards is computed for each path, and from it the exact condition under
which every reported device has its row.
-/

namespace Handshake

open ThriftTypes SqlStatements ExecuteQuery RowTable Database DecimalText QueryProgram Program
open Computer

/-- `RmsClient::handshake`, with the computer that the client has afterwards. -/
def handshake (junk : VersionData) (id : Int) (sysInfo : SystemInfo) :
    DbProgram (Except StdException Int × RmsComputer) := do
  let c := RmsComputer.create (toInt32 id)
  if id ≠ -1 then
    let (loaded, c) ← c.getFromDB junk
    match loaded with
    | .error e => return (.error e, c)
    | .ok _ =>
      let (_, c) ← (c.setSysInfo sysInfo).updateDB
      return (.ok c.computerId, c)
  else
    let (_, c) ← (c.setSysInfo sysInfo).addToDB
    return (.ok c.computerId, c)

section Reports

/-- The entry can be written without being misread. -/
structure PlainEntry (e : StorageInfo) : Prop where
  dev : SqlLiteral.Plain e.dev.toList
  fsType : SqlLiteral.Plain e.fsType.toList
  mountPoint : SqlLiteral.Plain e.mountPoint.toList
  free : 0 ≤ e.free ∧ e.free < 2 ^ 63
  total : 0 ≤ e.total ∧ e.total < 2 ^ 63

structure PlainReport (info : SystemInfo) : Prop where
  systemName : SqlLiteral.Plain info.systemName.toList
  hostName : SqlLiteral.Plain info.hostName.toList
  cpuName : SqlLiteral.Plain info.cpuInfo.cpuName.toList
  cpuVendorName : SqlLiteral.Plain info.cpuInfo.cpuVendorName.toList
  storage : ∀ e ∈ info.storageInfo, PlainEntry e

theorem toULong_of_entry {n : Int} (h : 0 ≤ n ∧ n < 2 ^ 63) : (toULong n : Int) = n :=
  toULong_of_nonneg h.1 (by omega)

theorem toULong_lt {n : Int} (h : 0 ≤ n ∧ n < 2 ^ 63) : toULong n < 2 ^ 63 := by
  have := toULong_of_entry h
  omega

theorem PlainEntry.writable {e : StorageInfo} (h : PlainEntry e) (o : Option RmsStorageInfo) :
    Writable (writeStorage o e) := by
  cases o <;>
    exact ⟨h.dev, h.fsType, h.mountPoint, toULong_lt h.free, toULong_lt h.total⟩

theorem readable_insertComputer {info : SystemInfo} (h : PlainReport info) {c : RmsComputer}
    (hc : c.sysInfo = { info with networkInfo := [], storageInfo := [] }) :
    Readable (.insertComputer c.insertArgs) := by
  refine readable_of_plain ?_ trivial
  simp [Query.strings, RmsComputer.insertArgs, hc, h.systemName, h.hostName, h.cpuName,
    h.cpuVendorName, plain_arch]

theorem readable_updateComputer {info : SystemInfo} (h : PlainReport info) {c : RmsComputer}
    (hc : c.sysInfo = { info with networkInfo := [], storageInfo := [] }) (id : Int) :
    Readable (.updateComputer c.updateArgs id) := by
  refine readable_of_plain ?_ trivial
  simp [Query.strings, RmsComputer.updateArgs, RmsComputer.insertArgs, hc, h.systemName,
    h.hostName, h.cpuName, h.cpuVendorName, plain_arch]

/-- Every record of a computer that started empty comes from the report. -/
theorem writable_of_report {info : SystemInfo} (h : PlainReport info) :
    ∀ dev ∈ storagesAfter [] info.storageInfo, Writable dev :=
  KeyedList.forall_mem_upsertAll (fun e he => (h.storage e he).writable none)
    (fun a e he _ _ => (h.storage e he).writable (some a)) (by simp)

/-- Only records that the report wrote to are dirty. -/
theorem writable_of_dirty {info : SystemInfo} (h : PlainReport info) {l : List RmsStorageInfo}
    (clean : ∀ dev ∈ l, dev.dirty = false) :
    ∀ dev ∈ storagesAfter l info.storageInfo, dev.dirty = true → Writable dev :=
  KeyedList.forall_mem_upsertAll (fun e he _ => (h.storage e he).writable none)
    (fun a e he _ _ _ => (h.storage e he).writable (some a))
    (fun dev hdev hd => by simp [clean dev hdev] at hd)

end Reports

section Runs

variable (misread : List Char → Db → Option Outcome)

/-- The row that the insert of a record makes. -/
structure RowOf (computerId : Int) (dev : RmsStorageInfo) (r : StorageRow) : Prop where
  computerId : r.computerId = computerId
  devPath : r.devPath = dev.devPath
  fsType : r.fsType = dev.fsType
  mountPoint : r.mountPoint = dev.mountPoint
  free : r.free = dev.free
  total : r.total = dev.total

theorem answer_insertStorage (computerId : Int) {dev : RmsStorageInfo} {conn : Connection}
    (quiet : conn.faults = []) (writable : Writable dev) :
    ∃ r, (answer misread (insertStorage computerId dev, true) conn).2.db.storages.rows =
        conn.db.storages.rows ++ [r] ∧ RowOf computerId dev r := by
  have readable := writable.readable_insert computerId
  rw [answer_of_no_fault misread true (noFault_of_quiet quiet) readable rfl]
  exact ⟨_, rfl, rfl, rfl, rfl, rfl, rfl, rfl⟩

theorem run_addStorages (computerId : Int) {devs : List RmsStorageInfo} {conn : Connection}
    (quiet : conn.faults = []) (writable : ∀ dev ∈ devs, Writable dev) :
    ∃ added, ((addStorages computerId devs).run (answer misread) conn).2.db.storages.rows =
        conn.db.storages.rows ++ added ∧ List.Forall₂ (RowOf computerId) devs added := by
  induction devs generalizing conn with
  | nil => exact ⟨[], by simp [addStorages], .nil⟩
  | cons dev devs ih =>
    simp only [List.forall_mem_cons] at writable
    obtain ⟨r, hr, hrow⟩ := answer_insertStorage misread computerId quiet writable.1
    obtain ⟨added, hadded, hrows⟩ :=
      ih (answer_quiet misread quiet (insertStorage computerId dev, true)) writable.2
    refine ⟨r :: added, ?_, .cons hrow hrows⟩
    simp only [addStorages, bind_eq, pure_eq, run_bind, run_ask, run_ret]
    rw [hadded, hr, List.append_assoc, List.singleton_append]

/-- The id that a computer is added under. -/
def newComputerId (db : Db) : Int := toInt32 (newRowid db.computers.ids)

theorem answer_insertComputer (a : ComputerArgs) {conn : Connection} (quiet : conn.faults = [])
    (readable : Readable (.insertComputer a)) :
    ∃ res conn', answer misread (.insertComputer a, true) conn = (res, conn') ∧
      res.success = true ∧ res.lastId = some (newComputerId conn.db) ∧ conn'.faults = [] ∧
      conn'.db.storages = conn.db.storages := by
  rw [answer_of_no_fault misread true (noFault_of_quiet quiet) readable rfl, quiet]
  exact ⟨_, _, rfl, rfl, rfl, rfl, rfl⟩

/-- The computer gets its id, and its records are added under it. -/
theorem run_addToDB {c : RmsComputer} {conn : Connection} (quiet : conn.faults = [])
    (readable : Readable (.insertComputer c.insertArgs)) :
    ∃ conn', conn'.faults = [] ∧ conn'.db.storages = conn.db.storages ∧
      c.addToDB.run (answer misread) conn =
        let (devs, conn'') := (addStorages (newComputerId conn.db) c.storageInfo).run
          (answer misread) conn'
        ((true, { c with computerId := newComputerId conn.db, storageInfo := devs }), conn'') := by
  obtain ⟨res, conn', first, success, lastId, quiet', same⟩ :=
    answer_insertComputer misread c.insertArgs quiet readable
  refine ⟨conn', quiet', same, ?_⟩
  simp [RmsComputer.addToDB, first, success, lastId]

/-- A row after the updates of all dirty records. -/
def finalRow (devs : List RmsStorageInfo) (r : StorageRow) : StorageRow :=
  devs.foldl (fun r dev => if dev.dirty then storedStorage dev r else r) r

theorem run_updateStorages {devs : List RmsStorageInfo} (success : Bool) {conn : Connection}
    (quiet : conn.faults = []) (writable : ∀ dev ∈ devs, dev.dirty = true → Writable dev) :
    ((updateStorages success devs).run (answer misread) conn).2.db.storages.rows =
      conn.db.storages.rows.map (finalRow devs) := by
  induction devs generalizing success conn with
  | nil =>
    have same : finalRow [] = id := rfl
    simp [updateStorages, same]
  | cons dev devs ih =>
    simp only [List.forall_mem_cons] at writable
    by_cases hd : dev.dirty = true
    · have first := answer_of_no_fault misread false (noFault_of_quiet quiet)
        (writable.1 hd).readable_update (execute_updateStorage dev conn.db)
      have final : finalRow (dev :: devs) = finalRow devs ∘ storedStorage dev := by
        funext r
        simp [finalRow, hd]
      have rest := fun success =>
        ih success (answer_quiet misread quiet (updateStorage dev, false)) writable.2
      simp only [updateStorages, if_pos hd, bind_eq, pure_eq, run_bind, run_ask, run_ret, rest]
      rw [first, final, ← List.map_map]
      rfl
    · have final : finalRow (dev :: devs) = finalRow devs := by
        funext r
        simp [finalRow, hd]
      simp only [updateStorages, if_neg hd, bind_eq, pure_eq, run_bind, run_ret, final]
      exact ih success quiet writable.2

theorem run_updateSysInfo {c : RmsComputer} {conn : Connection} (quiet : conn.faults = [])
    (readable : Readable (.updateComputer c.updateArgs c.computerId)) :
    (c.updateSysInfo.run (answer misread) conn).2.faults = [] ∧
      (c.updateSysInfo.run (answer misread) conn).2.db.storages = conn.db.storages := by
  rw [RmsComputer.updateSysInfo]
  split
  · have first := answer_of_no_fault misread false (noFault_of_quiet quiet) readable rfl
    simp only [bind_eq, pure_eq, run_bind, run_ask, run_ret]
    rw [first, quiet]
    exact ⟨rfl, rfl⟩
  · exact ⟨quiet, rfl⟩

theorem run_updateDB {c : RmsComputer} {conn : Connection} (quiet : conn.faults = [])
    (valid : c.computerId ≠ -1) (readable : Readable (.updateComputer c.updateArgs c.computerId))
    (writable : ∀ dev ∈ c.storageInfo, dev.dirty = true → Writable dev) :
    (c.updateDB.run (answer misread) conn).1.2.computerId = c.computerId ∧
      (c.updateDB.run (answer misread) conn).2.db.storages.rows =
        conn.db.storages.rows.map (finalRow c.storageInfo) := by
  obtain ⟨quiet', same⟩ := run_updateSysInfo misread quiet readable
  simp only [RmsComputer.updateDB, if_neg valid, bind_eq, pure_eq, run_bind, run_ret]
  exact ⟨trivial, by rw [run_updateStorages misread _ quiet' writable, same]⟩

end Runs

section Loads

/-- The record that a storage row is loaded into; `free` is not loaded. -/
def loadedStorage (r : StorageRow) : RmsStorageInfo where
  storageInfoId := r.storageInfoId
  devPath := r.devPath
  fsType := r.fsType
  mountPoint := r.mountPoint
  total := toULong r.total

def storageColumns : List String :=
  ["storage_info_id", "computer_id", "dev_path", "fs_type", "mount_point", "free", "total",
    "connected"]

/-- A row loads exactly if its numbers are ints. -/
theorem loadStorage_cases (r : StorageRow) :
    (InInt r.storageInfoId ∧ InInt r.total) ∧
        (∃ info, loadColumns loadStorageColumn {}
            (storageColumns.zip ((storageCells r).map columnText)) = (.ok (), info) ∧
          { info with connected := false } = loadedStorage r) ∨
      ¬ (InInt r.storageInfoId ∧ InInt r.total) ∧
        ∃ e info, loadColumns loadStorageColumn {}
          (storageColumns.zip ((storageCells r).map columnText)) = (.error e, info) := by
  have id := stoi_repr r.storageInfoId
  have total := stoi_repr r.total
  split at id
  · rename_i fits
    split at total
    · rename_i fits'
      refine Or.inl ⟨⟨fits, fits'⟩, ?_⟩
      simp [loadColumns, loadStorageColumn, storageColumns, storageCells, columnText, id, total,
        Bind.bind, Except.bind, pure, Except.pure, loadedStorage]
    · rename_i large
      refine Or.inr ⟨fun fits => large fits.2, ?_⟩
      simp [loadColumns, loadStorageColumn, storageColumns, storageCells, columnText, id, total,
        Bind.bind, Except.bind, pure, Except.pure]
  · rename_i large
    refine Or.inr ⟨fun fits => large fits.1, ?_⟩
    simp [loadColumns, loadStorageColumn, storageColumns, storageCells, columnText, id, Bind.bind,
      Except.bind]

theorem loadStorage_row {r : StorageRow} {info : RmsStorageInfo}
    (h : loadColumns loadStorageColumn {} (storageColumns.zip ((storageCells r).map columnText)) =
      (.ok (), info)) : { info with connected := false } = loadedStorage r := by
  rcases loadStorage_cases r with ⟨-, info', load, same⟩ | ⟨-, e, info', load⟩
  · rw [h] at load
    obtain ⟨-, rfl⟩ := Prod.mk.inj load
    exact same
  · rw [h] at load
    cases load

/-- Rows that load without an exception give their records. -/
theorem loadStorages_ok {rows : List StorageRow} {infos : List RmsStorageInfo}
    (h : loadStorages storageColumns ((rows.map storageCells).map (List.map columnText)) =
      (.ok (), infos)) : infos = rows.map loadedStorage := by
  induction rows generalizing infos with
  | nil => simpa [loadStorages] using h.symm
  | cons r rows ih =>
    simp only [List.map_cons, loadStorages] at h
    split at h
    · cases h
    · rename_i info hrow
      obtain ⟨hdone, rfl⟩ := Prod.mk.inj h
      rw [List.map_cons, ← loadStorage_row hrow, ← ih (Prod.ext hdone rfl)]

/-- Rows before one that throws are loaded. -/
theorem loadStorages_prefix (rows : List StorageRow) :
    ∃ k, (loadStorages storageColumns ((rows.map storageCells).map (List.map columnText))).2 =
      (rows.take k).map loadedStorage := by
  induction rows with
  | nil => exact ⟨0, rfl⟩
  | cons r rows ih =>
    obtain ⟨k, hk⟩ := ih
    simp only [List.map_cons, loadStorages]
    split
    · exact ⟨0, rfl⟩
    · rename_i info hrow
      refine ⟨k + 1, ?_⟩
      rw [List.take_succ_cons, List.map_cons, ← loadStorage_row hrow, ← hk]

/-- The row of a computer that has one. -/
theorem computerRow_of_known {db : Db} {id : Int} (known : id ∈ db.computers.ids) :
    ∃ r, db.computers.rows.filter (fun r => r.computerId = id) = [r] := by
  obtain ⟨r, hr, hid⟩ := List.mem_map.mp known
  have one : db.computers.rows.filter (fun r => r.computerId = id) =
      (KeyedList.lookup ComputerRow.computerId id db.computers.rows).toList :=
    KeyedList.filter_key_eq_lookup db.computers.distinct id
  obtain ⟨r', hr'⟩ := Option.isSome_iff_exists.mp (KeyedList.lookup_isSome_iff.mpr ⟨r, hr, hid⟩)
  exact ⟨r', by rw [one, hr']; rfl⟩

variable (misread : List Char → Db → Option Outcome) (junk : VersionData)

/-- The rows of a computer, in the order of the table. -/
def storagesOf (db : Db) (computerId : Int) : List StorageRow :=
  db.storages.rows.filter (fun r => r.computerId = computerId)

theorem answer_fetchStorage (computerId : Int) {conn : Connection} (quiet : conn.faults = []) :
    ∃ res conn', answer misread (.fetchStorageByComputerId computerId, false) conn = (res, conn') ∧
      res.success = true ∧ res.columnNames = storageColumns ∧
      res.tableRows =
        ((storagesOf conn.db computerId).map storageCells).map (List.map columnText) ∧
      conn'.db = conn.db ∧ conn'.faults = [] := by
  have readable : Readable (.fetchStorageByComputerId computerId) :=
    readable_of_plain (by simp [Query.strings]) trivial
  rw [answer_of_no_fault misread false (noFault_of_quiet quiet) readable rfl, quiet]
  exact ⟨_, _, rfl, rfl, rfl, rfl, rfl, rfl⟩

theorem run_getStorageFromDB (c : RmsComputer) {conn : Connection} (quiet : conn.faults = []) :
    ∃ done c' conn', c.getStorageFromDB.run (answer misread) conn = ((done, c'), conn') ∧
      conn'.db = conn.db ∧ conn'.faults = [] ∧
      ∀ b, done = .ok b → c' = { c with
        storageInfo := c.storageInfo ++ (storagesOf conn.db c.computerId).map loadedStorage } := by
  obtain ⟨res, conn', first, success, names, rows, same, quiet'⟩ :=
    answer_fetchStorage misread c.computerId quiet
  by_cases hrows : 0 < res.tableRows.length
  · cases hl : loadStorages res.columnNames res.tableRows with
    | mk done infos =>
      refine ⟨done.map (fun _ => true), { c with storageInfo := c.storageInfo ++ infos }, conn',
        ?_, same, quiet', ?_⟩
      · simp [RmsComputer.getStorageFromDB, first, success, hrows, hl]
      · intro b hb
        cases done with
        | error e => cases hb
        | ok =>
          rw [names, rows] at hl
          rw [loadStorages_ok hl]
  · refine ⟨.ok true, c, conn', ?_, same, quiet', ?_⟩
    · simp [RmsComputer.getStorageFromDB, first, success, hrows]
    · intro b _
      have none : storagesOf conn.db c.computerId = [] := by
        rw [rows] at hrows
        simpa using hrows
      simp [none]

theorem answer_fetchComputer (computerId : Int) {conn : Connection} (quiet : conn.faults = []) :
    ∃ res conn', answer misread (.fetchComputerById computerId, false) conn = (res, conn') ∧
      res.success = true ∧
      res.tableRows = ((conn.db.computers.rows.filter
        (fun r => r.computerId = computerId)).map computerCells).map (List.map columnText) ∧
      conn'.db = conn.db ∧ conn'.faults = [] := by
  have readable : Readable (.fetchComputerById computerId) :=
    readable_of_plain (by simp [Query.strings]) trivial
  rw [answer_of_no_fault misread false (noFault_of_quiet quiet) readable rfl, quiet]
  exact ⟨_, _, rfl, rfl, rfl, rfl, rfl⟩

/-- A known computer is loaded, unless a number in its rows throws. -/
theorem run_getFromDB_known {c : RmsComputer} {conn : Connection} (quiet : conn.faults = [])
    (valid : c.computerId ≠ -1) (known : c.computerId ∈ conn.db.computers.ids) :
    ∃ done c' conn', (c.getFromDB junk).run (answer misread) conn = ((done, c'), conn') ∧
      conn'.db = conn.db ∧ conn'.faults = [] ∧
      ∀ b, done = .ok b → c'.computerId = c.computerId ∧
        c'.storageInfo =
          c.storageInfo ++ (storagesOf conn.db c.computerId).map loadedStorage := by
  obtain ⟨res, conn₁, first, success, rows, same₁, quiet₁⟩ :=
    answer_fetchComputer misread c.computerId quiet
  obtain ⟨row, hrow⟩ : ∃ row, res.tableRows = [row] := by
    obtain ⟨r, one⟩ := computerRow_of_known known
    exact ⟨_, by rw [rows, one]; rfl⟩
  cases hl : loadColumns (loadComputerColumn junk) c.sysInfo (res.columnNames.zip row) with
  | mk loaded info =>
    cases loaded with
    | error e =>
      refine ⟨.error e, { c with sysInfo := info }, conn₁, ?_, same₁, quiet₁, ?_⟩
      · simp [RmsComputer.getFromDB, valid, first, success, hrow, hl]
      · intro b hb
        cases hb
    | ok =>
      obtain ⟨done, c', conn₂, second, same₂, quiet₂, result⟩ :=
        run_getStorageFromDB misread { c with sysInfo := info } quiet₁
      refine ⟨done, c', conn₂, ?_, same₂.trans same₁, quiet₂, ?_⟩
      · simp [RmsComputer.getFromDB, valid, first, success, hrow, hl, second]
      · intro b hb
        rw [result b hb, same₁]
        exact ⟨rfl, rfl⟩

/-- An unknown computer without records becomes a new one while it is loaded. -/
theorem run_getFromDB_unknown {c : RmsComputer} {conn : Connection} (quiet : conn.faults = [])
    (valid : c.computerId ≠ -1) (unknown : c.computerId ∉ conn.db.computers.ids)
    (readable : Readable (.insertComputer c.insertArgs)) (noRecords : c.storageInfo = []) :
    ∃ conn', (c.getFromDB junk).run (answer misread) conn =
        ((.ok true, { c with computerId := newComputerId conn.db }), conn') ∧
      conn'.db.storages = conn.db.storages ∧ conn'.faults = [] := by
  obtain ⟨res, conn₁, first, success, rows, same₁, quiet₁⟩ :=
    answer_fetchComputer misread c.computerId quiet
  have none : res.tableRows = [] := by
    have : conn.db.computers.rows.filter (fun r => r.computerId = c.computerId) = [] := by
      rw [List.filter_eq_nil_iff]
      intro r hr
      simpa using fun hid => unknown (List.mem_map.mpr ⟨r, hr, hid⟩)
    simp [rows, this]
  obtain ⟨conn₂, quiet₂, same₂, second⟩ := run_addToDB misread quiet₁ readable
  refine ⟨conn₂, ?_, same₂.trans (by rw [same₁]), quiet₂⟩
  simp [RmsComputer.getFromDB, valid, first, success, none, second, noRecords, addStorages, same₁]

end Loads

section Rows

def rowsOf (db : Db) (computerId : Int) (dev : String) : List StorageRow :=
  (storagesOf db computerId).filter (fun r => r.devPath = dev)

theorem samePlace_finalRow (devs : List RmsStorageInfo) (r : StorageRow) :
    SamePlace (finalRow devs r) r := by
  induction devs generalizing r with
  | nil => exact ⟨rfl, rfl, rfl⟩
  | cons dev devs ih =>
    simp only [finalRow, List.foldl_cons]
    split
    · have first := samePlace_storedStorage dev r
      have rest := ih (storedStorage dev r)
      exact ⟨rest.storageInfoId.trans first.storageInfoId,
        rest.computerId.trans first.computerId, rest.devPath.trans first.devPath⟩
    · exact ih r

/-- Updates move no row to another computer or device. -/
theorem rowsOf_updated {db db' : Db} {devs : List RmsStorageInfo}
    (h : db'.storages.rows = db.storages.rows.map (finalRow devs)) (n : Int) (dev : String) :
    rowsOf db' n dev = (rowsOf db n dev).map (finalRow devs) := by
  simp only [rowsOf, storagesOf, h, List.filter_filter, List.filter_map]
  congr 1
  apply List.filter_congr
  intro r _
  simp [(samePlace_finalRow devs r).computerId, (samePlace_finalRow devs r).devPath]

/-- Only records with the row's id write to it. -/
theorem finalRow_filter (devs : List RmsStorageInfo) (r : StorageRow) :
    finalRow devs r =
      finalRow (devs.filter (fun dev => dev.storageInfoId = r.storageInfoId)) r := by
  induction devs generalizing r with
  | nil => rfl
  | cons dev devs ih =>
    have same := (samePlace_storedStorage dev r).storageInfoId
    by_cases hid : dev.storageInfoId = r.storageInfoId
    · rw [List.filter_cons_of_pos (by simpa using hid)]
      simp only [finalRow, List.foldl_cons]
      split
      · have rest := ih (storedStorage dev r)
        rw [same] at rest
        exact rest
      · exact ih r
    · rw [List.filter_cons_of_neg (by simpa using hid), ← ih]
      have untouched : storedStorage dev r = r := if_neg (Ne.symm hid)
      simp [finalRow, untouched]

/-- The id of a record that has no row belongs to no row. -/
theorem finalRow_of_new {devs : List RmsStorageInfo} (new : ∀ dev ∈ devs, dev.storageInfoId = -1)
    {r : StorageRow} (positive : 0 < r.storageInfoId) : finalRow devs r = r := by
  have none : devs.filter (fun dev => dev.storageInfoId = r.storageInfoId) = [] := by
    rw [List.filter_eq_nil_iff]
    intro dev hdev
    have := new dev hdev
    simp only [decide_eq_true_eq]
    omega
  rw [finalRow_filter, none]
  rfl

def Carries (r : StorageRow) (e : StorageInfo) : Prop :=
  r.fsType = e.fsType ∧ r.mountPoint = e.mountPoint ∧ r.free = e.free ∧ r.total = e.total

instance (r : StorageRow) (e : StorageInfo) : Decidable (Carries r e) :=
  inferInstanceAs (Decidable (_ ∧ _))

/-- There is one row, and it carries the entry. -/
def OneRow (rows : List StorageRow) (e : StorageInfo) : Prop :=
  match rows with
  | [r] => Carries r e
  | _ => False

theorem oneRow_iff {rows : List StorageRow} {e : StorageInfo} :
    OneRow rows e ↔ ∃ r, rows = [r] ∧ Carries r e := by
  simp only [OneRow]
  split
  · simp
  · rename_i h
    simp only [false_iff, not_exists, not_and]
    exact fun r hr => absurd hr (h r)

/-- The entries of a report for one device. -/
abbrev entriesFor (info : SystemInfo) (dev : String) : List StorageInfo :=
  KeyedList.entriesOf StorageInfo.dev dev info.storageInfo

theorem mem_of_lastEntry {info : SystemInfo} {dev : String} {last : StorageInfo}
    (h : (entriesFor info dev).getLast? = some last) : last ∈ info.storageInfo ∧ last.dev = dev := by
  have mem := List.mem_filter.mp (List.mem_of_getLast? h)
  exact ⟨mem.1, by simpa using mem.2⟩

theorem exists_lastEntry {info : SystemInfo} {e : StorageInfo} (he : e ∈ info.storageInfo) :
    ∃ last, (entriesFor info e.dev).getLast? = some last := by
  have mem : e ∈ entriesFor info e.dev := by simp [KeyedList.entriesOf, he]
  exact ⟨_, List.getLast?_eq_some_getLast (List.ne_nil_of_mem mem)⟩

/-- The last entry for a device is written to its record last. -/
theorem lookup_storagesAfter (l : List RmsStorageInfo) {info : SystemInfo} {dev : String}
    {last : StorageInfo} (h : (entriesFor info dev).getLast? = some last) :
    KeyedList.lookup RmsStorageInfo.devPath dev (storagesAfter l info.storageInfo) =
      some (writeStorage (KeyedList.amend writeStorage
        (KeyedList.lookup RmsStorageInfo.devPath dev l) (entriesFor info dev).dropLast) last) := by
  rw [KeyedList.lookup_upsertAll keyed_writeStorage, ← KeyedList.amend_concat,
    List.dropLast_append_getLast? last h]

theorem carries_of_rowOf {n : Int} {o : Option RmsStorageInfo} {e : StorageInfo} {r : StorageRow}
    (plain : PlainEntry e) (row : RowOf n (writeStorage o e) r) : Carries r e := by
  have free := row.free
  have total := row.total
  have fsType := row.fsType
  have mountPoint := row.mountPoint
  cases o <;> exact ⟨fsType, mountPoint, free.trans (toULong_of_entry plain.free),
    total.trans (toULong_of_entry plain.total)⟩

theorem carries_storedStorage {o : Option RmsStorageInfo} {e : StorageInfo} {r : StorageRow}
    (plain : PlainEntry e) (h : r.storageInfoId = (writeStorage o e).storageInfoId) :
    Carries (storedStorage (writeStorage o e) r) e := by
  rw [storedStorage, if_pos h]
  cases o <;> exact ⟨rfl, rfl, toULong_of_entry plain.free, toULong_of_entry plain.total⟩

/-- Every reported device has one row, with the values of its last entry. -/
def Persisted (db : Db) (computerId : Int) (info : SystemInfo) : Prop :=
  ∀ e ∈ info.storageInfo, ∀ last, (entriesFor info e.dev).getLast? = some last →
    OneRow (rowsOf db computerId e.dev) last

/-- What the record of a loaded row holds when the last entry reaches it. -/
def heldBefore (r : StorageRow) (es : List StorageInfo) : RmsStorageInfo :=
  es.dropLast.foldl storageInfoToRmsStorageInfo (loadedStorage r)

theorem storageInfoId_foldl (a : RmsStorageInfo) (es : List StorageInfo) :
    (es.foldl storageInfoToRmsStorageInfo a).storageInfoId = a.storageInfoId := by
  induction es generalizing a with
  | nil => rfl
  | cons e es ih => exact ih (storageInfoToRmsStorageInfo a e)

/-- The one record with a row's id is the one that the device's entries go to. -/
theorem record_of_row {db : Db} {id : Int} {info : SystemInfo} {dev : String}
    {last : StorageInfo} {r : StorageRow} (one : rowsOf db id dev = [r])
    (hlast : (entriesFor info dev).getLast? = some last) :
    (storagesAfter ((storagesOf db id).map loadedStorage) info.storageInfo).filter
        (fun d => d.storageInfoId = r.storageInfoId) =
      [storageInfoToRmsStorageInfo (heldBefore r (entriesFor info dev)) last] := by
  have mem : r ∈ storagesOf db id := by
    have : r ∈ rowsOf db id dev := by simp [one]
    exact (List.mem_filter.mp this).1
  have first : KeyedList.lookup RmsStorageInfo.devPath dev
      ((storagesOf db id).map loadedStorage) = some (loadedStorage r) := by
    have head : (storagesOf db id).find? (fun r => decide (r.devPath = dev)) = some r := by
      rw [← List.head?_filter]
      exact congrArg List.head? one
    rw [KeyedList.lookup, List.find?_map]
    exact congrArg (Option.map loadedStorage) head
  have record := lookup_storagesAfter ((storagesOf db id).map loadedStorage) hlast
  rw [first, KeyedList.amend_some] at record
  obtain ⟨k, ids⟩ :=
    storageInfoIds_storagesAfter ((storagesOf db id).map loadedStorage) info.storageInfo
  obtain ⟨front, back, hsplit, hfront, hback⟩ := List.map_eq_append_iff.mp ids
  have distinct : (front.map RmsStorageInfo.storageInfoId).Nodup := by
    have kept : RmsStorageInfo.storageInfoId ∘ loadedStorage = StorageRow.storageInfoId := rfl
    rw [hfront, List.map_map, kept]
    exact db.storages.distinct.sublist (List.filter_sublist.map _)
  have none : back.filter (fun d => d.storageInfoId = r.storageInfoId) = [] := by
    rw [List.filter_eq_nil_iff]
    intro d hd
    have new : d.storageInfoId = -1 :=
      List.eq_of_mem_replicate (hback ▸ List.mem_map_of_mem hd)
    have positive := db.storages.positive r (List.mem_filter.mp mem).1
    simp only [decide_eq_true_eq]
    omega
  have found := KeyedList.filter_key_eq_lookup distinct r.storageInfoId
  have inFilter := (List.mem_filter (p := fun d => d.storageInfoId = r.storageInfoId)).mpr
    ⟨KeyedList.mem_of_lookup record, decide_eq_true (storageInfoId_foldl (loadedStorage r) _)⟩
  rw [hsplit, List.filter_append, none, List.append_nil] at inFilter ⊢
  rw [found] at inFilter ⊢
  rw [Option.mem_toList.mp inFilter]
  rfl

theorem carries_finalRow_iff {db : Db} {id : Int} {info : SystemInfo} (plain : PlainReport info)
    {dev : String} {last : StorageInfo} {r : StorageRow} (one : rowsOf db id dev = [r])
    (hlast : (entriesFor info dev).getLast? = some last) :
    Carries (finalRow
        (storagesAfter ((storagesOf db id).map loadedStorage) info.storageInfo) r) last ↔
      ¬ SameStorage (heldBefore r (entriesFor info dev)) last ∨ Carries r last := by
  have entry := plain.storage last (mem_of_lastEntry hlast).1
  have own : r.storageInfoId =
      (storageInfoToRmsStorageInfo (heldBefore r (entriesFor info dev)) last).storageInfoId :=
    (storageInfoId_foldl (loadedStorage r) _).symm
  rw [finalRow_filter, record_of_row one hlast]
  by_cases same : SameStorage (heldBefore r (entriesFor info dev)) last
  · simp [finalRow, storageInfoToRmsStorageInfo, same]
  · have stored := carries_storedStorage (o := some _) entry own
    simp only [finalRow, List.foldl_cons, List.foldl_nil, same, not_false_eq_true, true_or,
      iff_true]
    rw [if_pos (by simp [storageInfoToRmsStorageInfo, same])]
    exact stored

theorem persisted_of_updated {db db' : Db} {id : Int} {info : SystemInfo}
    (plain : PlainReport info)
    (rows : db'.storages.rows = db.storages.rows.map (finalRow
      (storagesAfter ((storagesOf db id).map loadedStorage) info.storageInfo))) :
    Persisted db' id info ↔
      ∀ e ∈ info.storageInfo, ∀ last, (entriesFor info e.dev).getLast? = some last →
        ∃ r, rowsOf db id e.dev = [r] ∧
          (¬ SameStorage (heldBefore r (entriesFor info e.dev)) last ∨ Carries r last) := by
  refine forall₂_congr fun e _ => forall₂_congr fun last hlast => ?_
  rw [oneRow_iff, rowsOf_updated rows]
  constructor
  · rintro ⟨r', hr', carries⟩
    obtain ⟨r, hr, rfl⟩ := List.map_eq_singleton_iff.mp hr'
    exact ⟨r, hr, (carries_finalRow_iff plain hr hlast).mp carries⟩
  · rintro ⟨r, hr, held⟩
    exact ⟨_, by rw [hr]; rfl, (carries_finalRow_iff plain hr hlast).mpr held⟩

theorem persisted_congr {db db' : Db} (rows : db'.storages.rows = db.storages.rows) (n : Int)
    (info : SystemInfo) : Persisted db' n info ↔ Persisted db n info := by
  simp only [Persisted, rowsOf, storagesOf, rows]

/-- The tables before the handshake have, or will get, the rows that it needs:
a new computer's id is on no row of a reported device; a known computer has a
row for each device, and it either carries the last entry or is sent it because
the record differs; an unknown computer's new id already has all the rows. -/
def Prepared (db : Db) (id : Int) (info : SystemInfo) : Prop :=
  if id = -1 then ∀ e ∈ info.storageInfo, rowsOf db (newComputerId db) e.dev = []
  else if id ∈ db.computers.ids then
    ∀ e ∈ info.storageInfo, ∀ last, (entriesFor info e.dev).getLast? = some last →
      ∃ r, rowsOf db id e.dev = [r] ∧
        (¬ SameStorage (heldBefore r (entriesFor info e.dev)) last ∨ Carries r last)
  else Persisted db (newComputerId db) info

end Rows

section Paths

variable (misread : List Char → Db → Option Outcome) (junk : VersionData)

/-- The rows that a new computer adds: one for each reported device. -/
theorem added_oneRow {info : SystemInfo} (plain : PlainReport info) {n : Int}
    {added : List StorageRow}
    (h : List.Forall₂ (RowOf n) (storagesAfter [] info.storageInfo) added) {dev : String}
    {last : StorageInfo} (hlast : (entriesFor info dev).getLast? = some last) :
    ∃ r, (added.filter (fun r => r.computerId = n)).filter (fun r => r.devPath = dev) = [r] ∧
      Carries r last := by
  have distinct : ((storagesAfter [] info.storageInfo).map RmsStorageInfo.devPath).Nodup :=
    KeyedList.nodup_upsertAll keyed_writeStorage _ List.nodup_nil
  have record := KeyedList.filter_key_eq_lookup distinct dev
  rw [lookup_storagesAfter [] hlast, Option.toList_some] at record
  have rows := List.rel_filter (p := fun d => decide (d.devPath = dev))
    (q := fun r => decide (r.computerId = n) && decide (r.devPath = dev))
    (fun d r row => by simp [row.computerId, row.devPath]) h
  rw [record] at rows
  obtain ⟨r, tail, hrow, hnil, hrows⟩ := List.forall₂_cons_left_iff.mp rows
  obtain rfl := List.forall₂_nil_left_iff.mp hnil
  refine ⟨r, ?_, carries_of_rowOf (plain.storage last (mem_of_lastEntry hlast).1) hrow⟩
  rw [List.filter_filter, ← hrows]
  apply List.filter_congr
  intro x _
  rw [Bool.and_comm]

/-- `handshake` and the return of the id. -/
def runHandshake (id : Int) (info : SystemInfo) (conn : Connection) :=
  (handshake junk id info).run (answer misread) conn

theorem rows_handshake_new {info : SystemInfo} (plain : PlainReport info) {conn : Connection}
    (quiet : conn.faults = []) :
    (runHandshake misread junk (-1) info conn).1.1 = .ok (newComputerId conn.db) ∧
      ∃ added, (runHandshake misread junk (-1) info conn).2.db.storages.rows =
          conn.db.storages.rows ++ added ∧
        List.Forall₂ (RowOf (newComputerId conn.db)) (storagesAfter [] info.storageInfo) added := by
  have sysInfo := setSysInfo_sysInfo (RmsComputer.create (toInt32 (-1))) info
  obtain ⟨conn₁, quiet₁, same₁, first⟩ :=
    run_addToDB misread quiet (readable_insertComputer plain sysInfo)
  obtain ⟨added, hadded, hrows⟩ :=
    run_addStorages misread (newComputerId conn.db) quiet₁ (writable_of_report plain)
  rw [same₁] at hadded
  simp only [runHandshake, handshake, ne_eq, not_true_eq_false, if_false, bind_eq, pure_eq,
    run_bind, run_ret]
  rw [first, setSysInfo_storageInfo]
  exact ⟨rfl, added, hadded, hrows⟩

theorem persisted_of_added {info : SystemInfo} (plain : PlainReport info) {n : Int} {db db' : Db}
    {added : List StorageRow} (rows : db'.storages.rows = db.storages.rows ++ added)
    (h : List.Forall₂ (RowOf n) (storagesAfter [] info.storageInfo) added) :
    Persisted db' n info ↔ ∀ e ∈ info.storageInfo, rowsOf db n e.dev = [] := by
  have split (e) (he : e ∈ info.storageInfo) :
      ∃ last r, (entriesFor info e.dev).getLast? = some last ∧
        rowsOf db' n e.dev = rowsOf db n e.dev ++ [r] ∧ Carries r last := by
    obtain ⟨last, hlast⟩ := exists_lastEntry he
    obtain ⟨r, hr, carries⟩ := added_oneRow plain h hlast
    exact ⟨last, r, hlast, by simp only [rowsOf, storagesOf, rows, List.filter_append, hr], carries⟩
  constructor
  · intro persisted e he
    obtain ⟨last, r, hlast, hrows, -⟩ := split e he
    obtain ⟨r', hone, -⟩ := oneRow_iff.mp (persisted e he last hlast)
    rw [hrows] at hone
    simpa using congrArg List.dropLast hone
  · intro none e he last hlast
    obtain ⟨last', r, hlast', hrows, carries⟩ := split e he
    rw [hlast] at hlast'
    cases hlast'
    rw [hrows, none e he]
    exact carries

/-- The updates that end the second and the third path. -/
theorem rows_handshake_update {id : Int} (hid : id ≠ -1) {info : SystemInfo}
    (plain : PlainReport info) {conn conn₁ : Connection} {b : Bool} {c : RmsComputer}
    (loaded : ((RmsComputer.create (toInt32 id)).getFromDB junk).run (answer misread) conn =
      ((.ok b, c), conn₁)) (quiet₁ : conn₁.faults = []) (valid : c.computerId ≠ -1)
    (clean : ∀ dev ∈ c.storageInfo, dev.dirty = false) :
    (runHandshake misread junk id info conn).1.1 = .ok c.computerId ∧
      (runHandshake misread junk id info conn).2.db.storages.rows =
        conn₁.db.storages.rows.map (finalRow (storagesAfter c.storageInfo info.storageInfo)) := by
  have sysInfo := setSysInfo_sysInfo c info
  have same := setSysInfo_computerId c info
  obtain ⟨computerId, rows⟩ := run_updateDB misread quiet₁ (same ▸ valid)
    (readable_updateComputer plain sysInfo (c.setSysInfo info).computerId)
    (by rw [setSysInfo_storageInfo]; exact writable_of_dirty plain clean)
  rw [setSysInfo_storageInfo] at rows
  simp only [runHandshake, handshake, ne_eq, hid, not_false_eq_true, if_true, bind_eq, pure_eq,
    run_bind, loaded, run_ret]
  exact ⟨by rw [computerId, same], rows⟩

theorem rows_handshake_known {id : Int} (hid : id ≠ -1) (inInt : InInt id) {info : SystemInfo}
    (plain : PlainReport info) {conn : Connection} (quiet : conn.faults = [])
    (known : id ∈ conn.db.computers.ids) {n : Int}
    (returns : (runHandshake misread junk id info conn).1.1 = .ok n) :
    n = id ∧ (runHandshake misread junk id info conn).2.db.storages.rows =
      conn.db.storages.rows.map (finalRow
        (storagesAfter ((storagesOf conn.db id).map loadedStorage) info.storageInfo)) := by
  have cut := toInt32_of_inInt inInt
  obtain ⟨done, c, conn₁, loaded, same₁, quiet₁, result⟩ := run_getFromDB_known misread junk quiet
    (c := RmsComputer.create (toInt32 id)) (cut.symm ▸ hid) (cut.symm ▸ known)
  cases done with
  | error e =>
    simp only [runHandshake, handshake, ne_eq, hid, not_false_eq_true, if_true, bind_eq, pure_eq,
      run_bind, loaded, run_ret] at returns
    cases returns
  | ok b =>
    obtain ⟨computerId, storageInfo⟩ := result b rfl
    have own : c.computerId = id := computerId.trans cut
    have records : c.storageInfo = (storagesOf conn.db id).map loadedStorage := by
      rw [storageInfo]
      simp [RmsComputer.create, cut]
    have clean : ∀ dev ∈ c.storageInfo, dev.dirty = false := by
      rw [records]
      intro dev hdev
      obtain ⟨r, -, rfl⟩ := List.mem_map.mp hdev
      rfl
    obtain ⟨hn, rows⟩ := rows_handshake_update misread junk hid plain loaded quiet₁
      (own.symm ▸ hid) clean
    rw [returns, own] at hn
    rw [records, same₁] at rows
    exact ⟨Except.ok.inj hn, rows⟩

/-- No record of an unknown computer has a row to be updated. -/
theorem rows_handshake_unknown {id : Int} (hid : id ≠ -1) (inInt : InInt id) {info : SystemInfo}
    (plain : PlainReport info) {conn : Connection} (quiet : conn.faults = [])
    (unknown : id ∉ conn.db.computers.ids) :
    (runHandshake misread junk id info conn).1.1 = .ok (newComputerId conn.db) ∧
      (runHandshake misread junk id info conn).2.db.storages.rows = conn.db.storages.rows := by
  have cut := toInt32_of_inInt inInt
  have readable : Readable (.insertComputer (RmsComputer.create (toInt32 id)).insertArgs) :=
    readable_of_plain (q := .insertComputer (RmsComputer.create 0).insertArgs) (by decide) trivial
  obtain ⟨conn₁, loaded, same₁, quiet₁⟩ := run_getFromDB_unknown misread junk quiet
    (c := RmsComputer.create (toInt32 id)) (cut.symm ▸ hid) (cut.symm ▸ unknown) readable rfl
  by_cases valid : newComputerId conn.db = -1
  · simp only [runHandshake, handshake, ne_eq, hid, not_false_eq_true, if_true, bind_eq, pure_eq,
      run_bind, loaded, run_ret, RmsComputer.updateDB, setSysInfo_computerId, valid]
    exact ⟨trivial, by rw [same₁]⟩
  · obtain ⟨hn, rows⟩ := rows_handshake_update misread junk hid plain loaded quiet₁ valid (by
      simp [RmsComputer.create])
    have new : ∀ dev ∈ storagesAfter [] info.storageInfo, dev.storageInfoId = -1 :=
      KeyedList.forall_mem_upsertAll (fun _ _ => rfl) (fun _ _ _ _ h => h) (by simp)
    refine ⟨hn, ?_⟩
    rw [rows, same₁]
    refine (List.map_congr_left fun r hr => ?_).trans (List.map_id _)
    exact finalRow_of_new new (conn.db.storages.positive r hr)

/-- For ids and reports as a client sends them and a database that runs every
query, a handshake persists the report exactly if the tables were prepared. -/
theorem handshake_persists_iff {id n : Int} (inInt : InInt id) {info : SystemInfo}
    (plain : PlainReport info) {conn : Connection} (quiet : conn.faults = [])
    (returns : (runHandshake misread junk id info conn).1.1 = .ok n) :
    Persisted (runHandshake misread junk id info conn).2.db n info ↔
      Prepared conn.db id info := by
  rw [Prepared]
  split
  · rename_i hid
    subst hid
    obtain ⟨hn, added, rows, hadded⟩ := rows_handshake_new misread junk plain quiet
    obtain rfl : n = newComputerId conn.db := Except.ok.inj (returns.symm.trans hn)
    exact persisted_of_added plain rows hadded
  · rename_i hid
    split
    · rename_i known
      obtain ⟨rfl, rows⟩ := rows_handshake_known misread junk hid inInt plain quiet known returns
      exact persisted_of_updated plain rows
    · rename_i unknown
      obtain ⟨hn, rows⟩ := rows_handshake_unknown misread junk hid inInt plain quiet unknown
      obtain rfl : n = newComputerId conn.db := Except.ok.inj (returns.symm.trans hn)
      exact persisted_congr rows _ info

end Paths

def sda1 : StorageInfo := ⟨"/dev/sda1", "ext4", 500, 1000, "/"⟩

def oneDrive : SystemInfo := { hostName := "pc", storageInfo := [sda1] }

theorem plainReport_oneDrive : PlainReport oneDrive where
  systemName := by decide
  hostName := by decide
  cpuName := by decide
  cpuVendorName := by decide
  storage := by
    intro e he
    obtain rfl := List.mem_singleton.mp he
    exact ⟨by decide, by decide, by decide, by decide, by decide⟩

/-- The drive of a computer that the server has never seen. -/
theorem handshake_persists_oneDrive :
    Persisted (runHandshake (fun _ _ => none) {} (-1) oneDrive ⟨emptyDb, 0, []⟩).2.db 1
      oneDrive := by
  refine (handshake_persists_iff _ _ (by decide) plainReport_oneDrive rfl
    (rows_handshake_new _ _ plainReport_oneDrive rfl).1).mpr ?_
  intro e _
  rfl

/-- A computer that was stored before it had a drive. -/
def knownPc : Db :=
  { emptyDb with
    computers := ⟨[⟨1, "", "pc", "0.0.0", "0.0.0", "", "", 0, 0, "kX86_64"⟩], by decide, by decide⟩ }

theorem knownPc_returns :
    (runHandshake (fun _ _ => none) {} 1 oneDrive ⟨knownPc, 0, []⟩).1.1 = .ok 1 := by
  decide +kernel

/-- The drive is in the report of a later handshake and never in the table. -/
theorem knownPc_not_persisted :
    (runHandshake (fun _ _ => none) {} 1 oneDrive ⟨knownPc, 0, []⟩).1.1 = .ok 1 ∧
      ¬ Persisted (runHandshake (fun _ _ => none) {} 1 oneDrive ⟨knownPc, 0, []⟩).2.db 1
        oneDrive := by
  refine ⟨knownPc_returns, fun persisted => ?_⟩
  obtain ⟨-, rows⟩ := rows_handshake_known _ _ (by decide) (by decide) plainReport_oneDrive rfl
    (by decide) knownPc_returns
  rw [persisted_of_updated plainReport_oneDrive rows] at persisted
  obtain ⟨r, hr, -⟩ := persisted sda1 (by decide) sda1 (by decide)
  cases hr

end Handshake
