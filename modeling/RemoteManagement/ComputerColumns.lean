import RemoteManagement.QuotelessStatements

/-!
# The computer row

A computer's row is written by an insert or by an update, which have templates
and argument lists of their own, and it is read back column by column. The two
ways to write it are compared, and what is read with what was written.
-/

namespace ComputerColumns

open ThriftTypes SqlStatements ExecuteQuery Database DecimalText QueryProgram Program
open Computer Handshake QuotelessStatements

section Rows

variable (misread : List Char → Db → Option Outcome)

/-- `addToDB` has written the row, from quoteless strings. -/
structure RowInserted (c : RmsComputer) (conn : Connection) (r : ComputerRow) : Prop where
  sysInfo : Quoteless (.insertComputer c.insertArgs)
  storage : ∀ dev ∈ c.storageInfo, QuotelessRecord dev
  unstopped : stopsAfter conn = none
  success : (c.addToDB.run (answer misread) conn).1.1 = true
  new : r.computerId ∉ conn.db.computers.ids
  mem : r ∈ (c.addToDB.run (answer misread) conn).2.db.computers.rows

/-- `updateDB` has written the row of a dirty computer, from quoteless strings. -/
structure RowUpdated (c : RmsComputer) (conn : Connection) (r : ComputerRow) : Prop where
  sysInfo : Quoteless (.insertComputer c.insertArgs)
  storage : ∀ dev ∈ c.storageInfo, dev.dirty = true → QuotelessRecord dev
  unstopped : stopsAfter conn = none
  valid : c.computerId ≠ -1
  dirty : c.sysInfoDirty = true
  written : (c.updateDB.run (answer misread) conn).1.2.sysInfoDirty = false
  own : r.computerId = c.computerId
  mem : r ∈ (c.updateDB.run (answer misread) conn).2.db.computers.rows

variable {misread} {c d : RmsComputer} {conn connC connD : Connection}

theorem RowInserted.eq (documented : Documented misread) {r : ComputerRow}
    (h : RowInserted misread c conn r) : r = computerRow c.insertArgs r.computerId := by
  obtain ⟨sysInfo, storage, unstopped, success, new, mem⟩ := h
  have first := answer_quoteless documented sysInfo true conn
  simp only [RmsComputer.addToDB, bind_eq, pure_eq, run_bind, run_ask] at success mem
  by_cases done : (answer misread (.insertComputer c.insertArgs, true) conn).1.success = true
  · simp only [done, if_true, run_bind, run_ret] at mem
    rw [computers_of_onStorages documented (addStorages_onStorages _ storage),
      rows_insertComputer first unstopped done, List.mem_append, List.mem_singleton] at mem
    rcases mem with old | rfl
    · exact absurd (List.mem_map_of_mem old) new
    · rfl
  · simp [done] at success

theorem RowUpdated.eq (documented : Documented misread) {r : ComputerRow}
    (h : RowUpdated misread c conn r) : r = computerRow c.updateArgs c.computerId := by
  obtain ⟨sysInfo, storage, unstopped, valid, dirty, written, own, mem⟩ := h
  have first := answer_quoteless documented (quoteless_updateComputer sysInfo c.computerId) false conn
  simp only [RmsComputer.updateDB, RmsComputer.updateSysInfo, if_neg valid, dirty, if_true, bind_eq,
    pure_eq, run_bind, run_ask, run_ret, Bool.not_eq_false'] at written mem
  rw [computers_of_onStorages documented (updateStorages_onStorages _ storage),
    rows_updateComputer first unstopped written] at mem
  obtain ⟨old, -, rfl⟩ := List.mem_map.mp mem
  split at own
  · rename_i found
    rw [if_pos found]
  · contradiction

/-- Nothing stands in the way of the row of a readable insert. -/
theorem rowInserted_of_readable (documented : Documented misread) (quiet : conn.faults = [])
    (readable : Readable (.insertComputer c.insertArgs))
    (sysInfo : Quoteless (.insertComputer c.insertArgs))
    (storage : ∀ dev ∈ c.storageInfo, QuotelessRecord dev) :
    RowInserted misread c conn (computerRow c.insertArgs (newRowid conn.db.computers.ids)) := by
  have first := answer_of_no_fault misread true (noFault_of_quiet quiet) readable rfl
  have run : (answer misread (.insertComputer c.insertArgs, true) conn).1.success = true := by
    rw [first]
  refine ⟨sysInfo, storage, by simp [stopsAfter, quiet], ?_, newRowid_notMem _, ?_⟩
  · simp [RmsComputer.addToDB, run]
  · simp only [RmsComputer.addToDB, bind_eq, pure_eq, run_bind, run_ask, run, if_true, run_ret]
    rw [computers_of_onStorages documented (addStorages_onStorages _ storage), first]
    exact List.mem_append_right _ (List.mem_singleton_self _)

theorem rowUpdated_of_readable (documented : Documented misread) (quiet : conn.faults = [])
    (readable : Readable (.updateComputer c.updateArgs c.computerId))
    (sysInfo : Quoteless (.insertComputer c.insertArgs))
    (storage : ∀ dev ∈ c.storageInfo, dev.dirty = true → QuotelessRecord dev)
    (valid : c.computerId ≠ -1) (dirty : c.sysInfoDirty = true)
    (known : c.computerId ∈ conn.db.computers.ids) :
    RowUpdated misread c conn (computerRow c.updateArgs c.computerId) := by
  have first := answer_of_no_fault misread false (noFault_of_quiet quiet) readable rfl
  have run : (answer misread (.updateComputer c.updateArgs c.computerId, false) conn).1.success =
      true := by
    rw [first]
  refine ⟨sysInfo, storage, by simp [stopsAfter, quiet], valid, dirty, ?_, rfl, ?_⟩
  · simp [RmsComputer.updateDB, RmsComputer.updateSysInfo, valid, dirty, run]
  · simp only [RmsComputer.updateDB, RmsComputer.updateSysInfo, if_neg valid, dirty, if_true,
      bind_eq, pure_eq, run_bind, run_ask, run_ret]
    rw [computers_of_onStorages documented (updateStorages_onStorages _ storage), first]
    obtain ⟨r, hr, own⟩ := List.mem_map.mp known
    exact List.mem_map.mpr ⟨r, hr, if_pos own⟩

theorem quotelessReport_of_plain {info : SystemInfo} (plain : PlainReport info) :
    QuotelessReport info := by
  simp only [QuotelessReport, reportStrings, List.forall_mem_append, List.forall_mem_cons,
    List.forall_mem_flatMap]
  refine ⟨⟨plain.systemName.1, plain.hostName.1, plain.cpuName.1, plain.cpuVendorName.1, by simp⟩,
    fun e he => ?_⟩
  have entry := plain.storage e he
  exact ⟨entry.dev.1, entry.fsType.1, entry.mountPoint.1, by simp⟩

/-- A new computer that reports plain strings gets its row. -/
theorem rowInserted_of_report (documented : Documented misread) (quiet : conn.faults = [])
    {info : SystemInfo} (plain : PlainReport info) :
    RowInserted misread ((RmsComputer.create (-1)).setSysInfo info) conn
      (computerRow ((RmsComputer.create (-1)).setSysInfo info).insertArgs
        (newRowid conn.db.computers.ids)) := by
  have sysInfo := setSysInfo_sysInfo (RmsComputer.create (-1)) info
  refine rowInserted_of_readable documented quiet (readable_insertComputer plain sysInfo)
    (quoteless_insertComputer (quotelessReport_of_plain plain) sysInfo) ?_
  rw [setSysInfo_storageInfo]
  exact quotelessRecord_of_report (quotelessReport_of_plain plain)

/-- A known computer that reports plain strings, and something new, has its row
updated. -/
theorem rowUpdated_of_report (documented : Documented misread) (quiet : conn.faults = [])
    {info : SystemInfo} (plain : PlainReport info) {id : Int} (valid : id ≠ -1)
    (dirty : isSysInfoDirty {} info = true) (known : id ∈ conn.db.computers.ids) :
    RowUpdated misread ((RmsComputer.create id).setSysInfo info) conn
      (computerRow ((RmsComputer.create id).setSysInfo info).updateArgs id) := by
  have sysInfo := setSysInfo_sysInfo (RmsComputer.create id) info
  have own := setSysInfo_computerId (RmsComputer.create id) info
  have flag : ((RmsComputer.create id).setSysInfo info).sysInfoDirty = true := by
    rw [setSysInfo_eq]
    exact dirty
  have storage : ∀ dev ∈ ((RmsComputer.create id).setSysInfo info).storageInfo,
      dev.dirty = true → QuotelessRecord dev := by
    rw [setSysInfo_storageInfo]
    exact quotelessRecord_of_dirty (quotelessReport_of_plain plain) (by simp [RmsComputer.create])
  have updated := rowUpdated_of_readable documented quiet
    (readable_updateComputer plain sysInfo _)
    (quoteless_insertComputer (quotelessReport_of_plain plain) sysInfo) storage (own ▸ valid) flag
    (own ▸ known)
  rw [own] at updated
  exact updated

end Rows

section Versions

theorem repr_injective {m n : Int} (h : m.repr.toList = n.repr.toList) : m = n := by
  have read := strtol_repr m
  rw [h, strtol_repr] at read
  exact (Option.some.inj read).symm

/-- Texts that differ in the middle number at most differ if it does. -/
theorem text_eq_iff {first second second' third : Int} :
    Triple.text ⟨first, second, third⟩ = Triple.text ⟨first, second', third⟩ ↔
      second = second' := by
  constructor
  · intro h
    simp only [Triple.text, List.append_assoc, List.cons_append] at h
    have rest := List.append_cancel_left h
    rw [List.cons.injEq] at rest
    exact repr_injective (List.append_cancel_right rest.2)
  · rintro rfl
    rfl

variable {misread : List Char → Db → Option Outcome} {c d : RmsComputer}
  {connC connD : Connection}

/-- The row that is inserted and the row that an update leaves agree in every
other column exactly if the client's major and minor numbers are the same. -/
theorem inserted_eq_updated_iff (documented : Documented misread) (same : d.sysInfo = c.sysInfo)
    {a b : ComputerRow} (inserted : RowInserted misread c connC a)
    (updated : RowUpdated misread d connD b) :
    { a with computerId := b.computerId } = b ↔
      c.sysInfo.clientVersion.major = c.sysInfo.clientVersion.minor := by
  rw [inserted.eq documented, updated.eq documented]
  simp only [computerRow, RmsComputer.updateArgs, RmsComputer.insertArgs, same,
    ComputerRow.mk.injEq, true_and, and_true]
  rw [← text_eq_iff, String.ofList_inj]

/-- The three numbers are read back whatever the integers held before, since each
separator ends the number in front of it. -/
theorem loadVersion_text (junk : VersionData) {major minor release : Int} (hmajor : InInt major)
    (hminor : InInt minor) (hrelease : InInt release) :
    loadVersion junk (String.ofList (Triple.text ⟨major, minor, release⟩)) =
      { release := release, major := major, minor := minor } := by
  have separator := fun cs => endsNumber_cons (c := '.') (by decide) cs
  have point := fun cs => skipSpace_of_head (c := '.') (by decide) cs
  have last := extractInt_repr hrelease.1 hrelease.2 endsNumber_nil junk.release
  rw [List.append_nil] at last
  simp only [loadVersion, Triple.text, String.toList_ofList, List.append_assoc, List.cons_append,
    extractInt_repr hmajor.1 hmajor.2 (separator _), extractInt_repr hminor.1 hminor.2 (separator _),
    Stream.extractChar, point, last]

theorem loadVersion_text_ends :
    loadVersion ⟨7, 7, 7⟩ (String.ofList (Triple.text ⟨-2147483648, 0, 2147483647⟩)) =
      { release := 2147483647, major := -2147483648, minor := 0 } :=
  loadVersion_text ⟨7, 7, 7⟩ (by decide) (by decide) (by decide)

end Versions

section Loads

variable {misread : List Char → Db → Option Outcome} (junk : VersionData) {c : RmsComputer}
  {conn later : Connection}

def computerColumns : List String :=
  ["computer_id", "system_name", "host_name", "os_version", "client_version", "cpu_name",
    "cpu_vendor", "cpu_core_count", "cpu_cache_size", "cpu_arch"]

/-- The numbers of a report have the widths of the wire. -/
structure WireWidths (info : SystemInfo) : Prop where
  cpuCores : InInt info.cpuInfo.cpuCores
  cacheSize : -2 ^ 15 ≤ info.cpuInfo.cacheSize ∧ info.cpuInfo.cacheSize < 2 ^ 15

/-- What a fresh computer loads from a row; every architecture is the default. -/
def loadedInfo (a : ComputerArgs) : SystemInfo where
  systemName := a.systemName
  hostName := a.hostName
  osVersion := loadVersion junk (String.ofList a.osVersion.text)
  clientVersion := loadVersion junk (String.ofList a.clientVersion.text)
  cpuInfo := {
    cpuCores := a.cpuCoreCount, cacheSize := a.cpuCacheSize
    cpuName := a.cpuName, cpuVendorName := a.cpuVendor }

theorem stol_of_inInt {n : Int} (h : InInt n) : stol n.repr.toList = .ok n := by
  obtain ⟨low, high⟩ := h
  rw [stol_repr, if_pos (by omega)]

theorem loadColumns_computerRow (a : ComputerArgs) (id : Int) (cores : InInt a.cpuCoreCount)
    (cache : -2 ^ 15 ≤ a.cpuCacheSize ∧ a.cpuCacheSize < 2 ^ 15) :
    loadColumns (loadComputerColumn junk) {}
        (computerColumns.zip ((computerCells (computerRow a id)).map columnText)) =
      (.ok (), loadedInfo junk a) := by
  have cacheInt : InInt a.cpuCacheSize := by
    constructor <;> omega
  have cut : toInt16 a.cpuCacheSize = a.cpuCacheSize := by
    rw [toInt16]
    omega
  simp [loadColumns, loadComputerColumn, computerColumns, computerCells, computerRow, columnText,
    stol_of_inInt cores, stol_of_inInt cacheInt, toInt32_of_inInt cores, cut, Bind.bind,
    Except.bind, pure, Except.pure, loadedInfo]

theorem returns_getStorageFromDB (c : RmsComputer) :
    c.getStorageFromDB.Returns (fun out => out.2.sysInfo = c.sysInfo) := by
  simp only [RmsComputer.getStorageFromDB, ask, bind_eq, query_bind, ret_bind, returns_query]
  intro res
  split <;> rfl

/-- A fresh computer loads its row and goes on to its storage rows. -/
theorem run_getFromDB_row {a : ComputerArgs} {id : Int} (valid : id ≠ -1)
    (row : computerRow a id ∈ later.db.computers.rows)
    (noFault : later.faults.head?.join = none) (cores : InInt a.cpuCoreCount)
    (cache : -2 ^ 15 ≤ a.cpuCacheSize ∧ a.cpuCacheSize < 2 ^ 15) :
    ∃ next, next.db = later.db ∧ next.faults = later.faults.tail ∧
      ((RmsComputer.create id).getFromDB junk).run (answer misread) later =
        (RmsComputer.getStorageFromDB { computerId := id, sysInfo := loadedInfo junk a }).run
          (answer misread) next := by
  have readable : Readable (.fetchComputerById id) :=
    readable_of_plain (by simp [Query.strings]) trivial
  have first := answer_of_no_fault misread false noFault readable rfl
  have one : later.db.computers.rows.filter (fun r => r.computerId = id) = [computerRow a id] := by
    have found := KeyedList.lookup_eq_some_of_mem later.db.computers.distinct row
    exact (KeyedList.filter_key_eq_lookup later.db.computers.distinct id).trans
      (congrArg Option.toList found)
  simp only [Outcome.select, one, List.map_cons, List.map_nil] at first
  have load := loadColumns_computerRow junk a id cores cache
  rw [computerColumns] at load
  have own : ¬ (RmsComputer.create id).computerId = -1 := valid
  refine ⟨⟨later.db, later.lastRowid, later.faults.tail⟩, rfl, rfl, ?_⟩
  rw [RmsComputer.getFromDB, if_neg own]
  simp only [RmsComputer.create, bind_eq, pure_eq, run_bind, run_ask, first, load]
  rfl

/-- Whatever becomes of its storage rows. -/
theorem sysInfo_getFromDB {a : ComputerArgs} {id : Int} (valid : id ≠ -1)
    (row : computerRow a id ∈ later.db.computers.rows)
    (noFault : later.faults.head?.join = none) (cores : InInt a.cpuCoreCount)
    (cache : -2 ^ 15 ≤ a.cpuCacheSize ∧ a.cpuCacheSize < 2 ^ 15) :
    (((RmsComputer.create id).getFromDB junk).run (answer misread) later).1.2.sysInfo =
      loadedInfo junk a := by
  obtain ⟨next, -, -, run⟩ := run_getFromDB_row junk valid row noFault cores cache
  rw [run]
  exact run_returns (answer misread) (returns_getStorageFromDB _) next

/-- The fields that are written as they are. -/
structure SameFields (a b : SystemInfo) : Prop where
  systemName : a.systemName = b.systemName
  hostName : a.hostName = b.hostName
  cpuName : a.cpuInfo.cpuName = b.cpuInfo.cpuName
  cpuVendorName : a.cpuInfo.cpuVendorName = b.cpuInfo.cpuVendorName
  cpuCores : a.cpuInfo.cpuCores = b.cpuInfo.cpuCores
  cacheSize : a.cpuInfo.cacheSize = b.cpuInfo.cacheSize
  arch : a.cpuInfo.arch = b.cpuInfo.arch

/-- What was written is loaded again exactly if the architecture is the one that
is looked for, which is the default as well. -/
theorem updated_loaded_iff (documented : Documented misread) {r : ComputerRow}
    (updated : RowUpdated misread c conn r) (widths : WireWidths c.sysInfo)
    (same : later.db.computers = (c.updateDB.run (answer misread) conn).2.db.computers)
    (noFault : later.faults.head?.join = none) :
    SameFields (((RmsComputer.create c.computerId).getFromDB junk).run (answer misread)
        later).1.2.sysInfo c.sysInfo ↔ c.sysInfo.cpuInfo.arch = .kX86_64 := by
  have row : computerRow c.updateArgs c.computerId ∈ later.db.computers.rows := by
    rw [same, ← updated.eq documented]
    exact updated.mem
  rw [sysInfo_getFromDB junk updated.valid row noFault widths.cpuCores widths.cacheSize]
  constructor
  · exact fun loaded => loaded.arch.symm
  · exact fun arch => ⟨rfl, rfl, rfl, rfl, rfl, rfl, arch.symm⟩

end Loads

/-- A computer that is new to one database and known to another. -/
theorem inserted_eq_updated_oneDrive :
    { computerRow ((RmsComputer.create (-1)).setSysInfo oneDrive).insertArgs 1 with
      computerId := 1 } =
    computerRow ((RmsComputer.create 1).setSysInfo oneDrive).updateArgs 1 := by
  have inserted : RowInserted (fun _ _ => none) ((RmsComputer.create (-1)).setSysInfo oneDrive)
      ⟨emptyDb, 0, []⟩ _ := rowInserted_of_report documented_none rfl plainReport_oneDrive
  have updated : RowUpdated (fun _ _ => none) ((RmsComputer.create 1).setSysInfo oneDrive)
      ⟨knownPc, 0, []⟩ _ := rowUpdated_of_report documented_none rfl plainReport_oneDrive
    (by decide) (by decide) (by decide)
  have same : ((RmsComputer.create 1).setSysInfo oneDrive).sysInfo =
      ((RmsComputer.create (-1)).setSysInfo oneDrive).sysInfo := rfl
  exact (inserted_eq_updated_iff documented_none same inserted updated).mpr rfl

/-- A client of version 1.2 on another architecture. -/
def armPc : SystemInfo where
  hostName := "pi"
  clientVersion := ⟨0, 1, 2⟩
  cpuInfo := { cpuCores := 4, arch := .kArm64 }

theorem plainReport_armPc : PlainReport armPc where
  systemName := by decide
  hostName := by decide
  cpuName := by decide
  cpuVendorName := by decide
  storage := by simp [armPc]

/-- The inserted row says 1.1.0 and the updated one 1.2.0. -/
theorem armPc_inserted_ne_updated :
    ¬ ∀ a b, RowInserted (fun _ _ => none) ((RmsComputer.create (-1)).setSysInfo armPc)
        ⟨emptyDb, 0, []⟩ a →
      RowUpdated (fun _ _ => none) ((RmsComputer.create 1).setSysInfo armPc) ⟨knownPc, 0, []⟩ b →
      { a with computerId := b.computerId } = b := by
  intro agree
  have same := agree _ _ (rowInserted_of_report documented_none rfl plainReport_armPc)
    (rowUpdated_of_report documented_none rfl plainReport_armPc (by decide) (by decide) (by decide))
  exact absurd (congrArg ComputerRow.clientVersion same) (by decide)

/-- The database after a known computer has stored its report. -/
def afterUpdate (info : SystemInfo) : Connection where
  db := (((RmsComputer.create 1).setSysInfo info).updateDB.run (answer fun _ _ => none)
    ⟨knownPc, 0, []⟩).2.db
  lastRowid := 0
  faults := []

theorem db_afterUpdate (info : SystemInfo) :
    (afterUpdate info).db = (((RmsComputer.create 1).setSysInfo info).updateDB.run
      (answer fun _ _ => none) ⟨knownPc, 0, []⟩).2.db := rfl

theorem updated_loaded_oneDrive :
    SameFields (((RmsComputer.create 1).getFromDB {}).run (answer fun _ _ => none)
      (afterUpdate oneDrive)).1.2.sysInfo ((RmsComputer.create 1).setSysInfo oneDrive).sysInfo := by
  have updated : RowUpdated (fun _ _ => none) ((RmsComputer.create 1).setSysInfo oneDrive)
      ⟨knownPc, 0, []⟩ _ := rowUpdated_of_report documented_none rfl plainReport_oneDrive
    (by decide) (by decide) (by decide)
  have agree := updated_loaded_iff {} documented_none updated ⟨by decide, by decide⟩
    (congrArg Db.computers (db_afterUpdate oneDrive)) rfl
  have own : (RmsComputer.create 1).computerId = 1 := rfl
  rw [setSysInfo_computerId, own] at agree
  exact agree.mpr rfl

/-- The computer is loaded as an x86_64 one. -/
theorem armPc_not_loaded :
    ¬ SameFields (((RmsComputer.create 1).getFromDB {}).run (answer fun _ _ => none)
      (afterUpdate armPc)).1.2.sysInfo ((RmsComputer.create 1).setSysInfo armPc).sysInfo := by
  have updated : RowUpdated (fun _ _ => none) ((RmsComputer.create 1).setSysInfo armPc)
      ⟨knownPc, 0, []⟩ _ := rowUpdated_of_report documented_none rfl plainReport_armPc
    (by decide) (by decide) (by decide)
  have row : computerRow ((RmsComputer.create 1).setSysInfo armPc).updateArgs 1 ∈
      (afterUpdate armPc).db.computers.rows := by
    rw [db_afterUpdate]
    exact updated.mem
  intro loaded
  have arch := loaded.arch
  rw [sysInfo_getFromDB {} (by decide) row rfl (by decide) (by decide)] at arch
  cases arch

end ComputerColumns
