import RemoteManagement.ComputerColumns

/-!
# The storage rows

Every record of a new computer is inserted as a row with the next id, and the
rows are loaded again into the records of a fresh computer. The free space is
written and not read, and sizes and ids are read as ints.
-/

namespace StorageColumns

open ThriftTypes SqlStatements ExecuteQuery RowTable Database DecimalText QueryProgram Program
open Computer Handshake QuotelessStatements ComputerColumns

section Inserts

/-- The rows of records that are inserted one after the other. -/
def rowsFrom (computerId : Int) : Int → List RmsStorageInfo → List StorageRow
  | _, [] => []
  | n, dev :: devs =>
    ⟨n, computerId, dev.devPath, dev.fsType, dev.mountPoint, dev.free, dev.total, 1⟩ ::
      rowsFrom computerId (n + 1) devs

def recordsFrom : Int → List RmsStorageInfo → List RmsStorageInfo
  | _, [] => []
  | n, dev :: devs =>
    { dev with storageInfoId := toInt32 n, dirty := false } :: recordsFrom (n + 1) devs

theorem newRowid_append (ids : List Int) : newRowid (ids ++ [newRowid ids]) = newRowid ids + 1 := by
  have larger (n : Int) (h : ids.foldr max 0 ≤ n) : ids.foldr max n = n := by
    induction ids with
    | nil => rfl
    | cons i ids ih =>
      rw [List.foldr_cons] at h ⊢
      rw [ih ((le_max_right _ _).trans h)]
      exact max_eq_right ((le_max_left _ _).trans h)
  have positive := newRowid_pos ids
  rw [newRowid, List.foldr_append, List.foldr_cons, List.foldr_nil, max_eq_left positive.le, larger]
  rw [newRowid]
  omega

variable {misread : List Char → Db → Option Outcome}

/-- The record's values fit the columns of its row. -/
structure Storable (dev : RmsStorageInfo) : Prop where
  quoteless : QuotelessRecord dev
  free : dev.free < 2 ^ 63
  total : dev.total < 2 ^ 63

theorem stopsAfter_of_noStepFault {conn : Connection} (h : conn.NoStepFault) :
    stopsAfter conn = none := by
  rw [stopsAfter]
  split
  · rename_i n code bad hf
    exact absurd rfl (h _ (List.mem_of_mem_head? (Option.join_eq_some_iff.mp hf)) n code bad)
  · rfl

/-- The statement does what it is meant to do. -/
theorem answer_of_done (documented : Documented misread) {q : Query} (quoteless : Quoteless q)
    (fits : Fits q) {asked : Bool} {conn : Connection} (noStep : conn.NoStepFault) {o : Outcome}
    (ho : execute q conn.db = some o)
    (success : (answer misread (q, asked) conn).1.success = true) :
    answer misread (q, asked) conn =
      ({ success := true
         lastId := if asked then some (toInt32 (o.inserted.getLastD conn.lastRowid)) else none
         columnNames := o.columnNames
         tableRows := o.rows.map (List.map columnText) },
        ⟨o.db, o.inserted.getLastD conn.lastRowid, conn.faults.tail⟩) :=
  answer_of_success documented quoteless fits (stopsAfter_of_noStepFault noStep) ho success

/-- If every record ends up clean, each has been inserted under the next id. -/
theorem run_addStorages_clean (documented : Documented misread) (computerId : Int)
    {devs : List RmsStorageInfo} {conn : Connection} (noStep : conn.NoStepFault)
    (storable : ∀ dev ∈ devs, Storable dev)
    (clean : ∀ dev ∈ ((addStorages computerId devs).run (answer misread) conn).1,
      dev.dirty = false) :
    ((addStorages computerId devs).run (answer misread) conn).1 =
        recordsFrom (newRowid conn.db.storages.ids) devs ∧
      ((addStorages computerId devs).run (answer misread) conn).2.db.storages.rows =
        conn.db.storages.rows ++ rowsFrom computerId (newRowid conn.db.storages.ids) devs := by
  induction devs generalizing conn with
  | nil => exact ⟨rfl, (List.append_nil _).symm⟩
  | cons dev devs ih =>
    simp only [List.forall_mem_cons] at storable
    simp only [addStorages, bind_eq, pure_eq, run_bind, run_ask, run_ret,
      List.forall_mem_cons] at clean ⊢
    have success : (answer misread (insertStorage computerId dev, true) conn).1.success = true := by
      by_contra failed
      simp [inserted, failed] at clean
    have first := answer_of_done documented
      (quoteless_insertStorage storable.1.quoteless computerId) ⟨storable.1.free, storable.1.total⟩
      noStep rfl success
    obtain ⟨records, rows⟩ := ih
      (noStep.answer misread (insertStorage computerId dev, true)) storable.2 clean.2
    rw [records, rows, first]
    simp [Outcome.write, inserted, Table.ids_insert, newRowid_append, recordsFrom, rowsFrom]

end Inserts

section Loads

variable {misread : List Char → Db → Option Outcome}

/-- The texts of the rows, as a query returns them. -/
abbrev texts (rows : List StorageRow) : List (List String) :=
  (rows.map storageCells).map (List.map columnText)

/-- The numbers that are read as ints. -/
def Readable32 (r : StorageRow) : Prop := InInt r.storageInfoId ∧ InInt r.total

instance (r : StorageRow) : Decidable (Readable32 r) := inferInstanceAs (Decidable (_ ∧ _))

theorem loadStorageColumns_iff (r : StorageRow) :
    (loadColumns loadStorageColumn {}
      (storageColumns.zip ((storageCells r).map columnText))).1 = .ok () ↔ Readable32 r := by
  rcases loadStorage_cases r with ⟨readable, info, load, -⟩ | ⟨large, e, info, load⟩
  · exact iff_of_true (by rw [load]) readable
  · exact iff_of_false (by rw [load]; simp) large

theorem loadStorages_iff (rows : List StorageRow) :
    (loadStorages storageColumns (texts rows)).1 = .ok () ↔ ∀ r ∈ rows, Readable32 r := by
  induction rows with
  | nil => simp [loadStorages]
  | cons r rows ih =>
    have first := loadStorageColumns_iff r
    simp only [texts, List.map_cons, loadStorages, List.forall_mem_cons]
    cases load : loadColumns loadStorageColumn {}
        (storageColumns.zip ((storageCells r).map columnText)) with
    | mk done info =>
      rw [load] at first
      cases done with
      | error e => simp [← first]
      | ok => simpa [← first] using ih

/-- The load of the storage rows, once they have been fetched. -/
theorem run_getStorageFromDB_of_answer (c : RmsComputer) {conn conn' : Connection}
    {res : RmsQueryResult}
    (first : answer misread (.fetchStorageByComputerId c.computerId, false) conn = (res, conn'))
    (success : res.success = true) (names : res.columnNames = storageColumns)
    (rows : res.tableRows = texts (storagesOf conn.db c.computerId)) :
    (c.getStorageFromDB.run (answer misread) conn).1 =
      ((loadStorages storageColumns (texts (storagesOf conn.db c.computerId))).1.map fun _ => true,
        { c with storageInfo := c.storageInfo ++
          (loadStorages storageColumns (texts (storagesOf conn.db c.computerId))).2 }) := by
  by_cases found : 0 < res.tableRows.length
  · simp only [RmsComputer.getStorageFromDB, bind_eq, pure_eq, run_bind, run_ask, first]
    rw [if_pos ⟨success, found⟩, run_ret, success, names, rows]
  · have none : storagesOf conn.db c.computerId = [] := by
      rw [rows] at found
      simpa using found
    simp [RmsComputer.getStorageFromDB, first, success, found, none, loadStorages, Except.map]

theorem run_getStorageFromDB (c : RmsComputer) {conn : Connection} (quiet : conn.faults = []) :
    (c.getStorageFromDB.run (answer misread) conn).1 =
      ((loadStorages storageColumns (texts (storagesOf conn.db c.computerId))).1.map fun _ => true,
        { c with storageInfo := c.storageInfo ++
          (loadStorages storageColumns (texts (storagesOf conn.db c.computerId))).2 }) := by
  obtain ⟨res, conn', first, success, names, rows, -, -⟩ :=
    answer_fetchStorage misread c.computerId quiet
  exact run_getStorageFromDB_of_answer c first success names rows

def columns (r : RmsStorageInfo) : Int × String × String × String × Nat × Nat :=
  (r.storageInfoId, r.devPath, r.fsType, r.mountPoint, r.free, r.total)

theorem readable32_rowsFrom_iff (computerId : Int) {n : Int} (positive : 0 < n)
    (devs : List RmsStorageInfo) :
    (∀ r ∈ rowsFrom computerId n devs, Readable32 r) ↔
      (∀ dev ∈ devs, dev.total < 2 ^ 31) ∧ ∀ i < devs.length, n + i < 2 ^ 31 := by
  induction devs generalizing n with
  | nil => simp [rowsFrom]
  | cons dev devs ih =>
    have ids : (∀ i < devs.length + 1, n + (i : Int) < 2 ^ 31) ↔
        n < 2 ^ 31 ∧ ∀ i < devs.length, n + 1 + (i : Int) < 2 ^ 31 := by
      constructor
      · intro h
        refine ⟨by simpa using h 0 (by omega), fun i hi => ?_⟩
        have := h (i + 1) (by omega)
        push_cast at this
        omega
      · rintro ⟨first, rest⟩ i hi
        cases i with
        | zero => simpa using first
        | succ i =>
          have := rest i (by omega)
          push_cast
          omega
    have own : Readable32 ⟨n, computerId, dev.devPath, dev.fsType, dev.mountPoint, dev.free,
        dev.total, 1⟩ ↔ n < 2 ^ 31 ∧ dev.total < 2 ^ 31 := by
      simp only [Readable32, InInt]
      omega
    simp only [rowsFrom, List.forall_mem_cons, List.length_cons, ids, own,
      ih (show 0 < n + 1 by omega)]
    tauto

theorem columns_rowsFrom_iff (computerId : Int) {n : Int} {devs : List RmsStorageInfo}
    (readable : ∀ r ∈ rowsFrom computerId n devs, Readable32 r) :
    ((rowsFrom computerId n devs).map loadedStorage).map columns = (recordsFrom n devs).map columns ↔
      ∀ dev ∈ devs, dev.free = 0 := by
  induction devs generalizing n with
  | nil => simp [rowsFrom, recordsFrom]
  | cons dev devs ih =>
    simp only [rowsFrom, List.forall_mem_cons] at readable
    obtain ⟨⟨id, total⟩, rest⟩ := readable
    have id : InInt n := id
    have total : InInt dev.total := total
    have own : toULong (dev.total : Int) = dev.total := by
      have same := toULong_of_nonneg (n := dev.total) (by omega) (by have := total.2; omega)
      omega
    have first : columns (loadedStorage ⟨n, computerId, dev.devPath, dev.fsType, dev.mountPoint,
        dev.free, dev.total, 1⟩) = columns { dev with storageInfoId := toInt32 n, dirty := false } ↔
        dev.free = 0 := by
      simp [columns, loadedStorage, own, toInt32_of_inInt id, eq_comm]
    simp only [rowsFrom, recordsFrom, List.map_cons, List.cons.injEq, first, ih rest,
      List.forall_mem_cons]

end Loads

section RoundTrips

variable (misread : List Char → Db → Option Outcome)

/-- `addToDB` has inserted the computer and all its records. -/
structure Added (c : RmsComputer) (conn : Connection) : Prop where
  sysInfo : Quoteless (.insertComputer c.insertArgs)
  widths : WireWidths c.sysInfo
  storable : ∀ dev ∈ c.storageInfo, Storable dev
  noStep : conn.NoStepFault
  fits : InInt (newRowid conn.db.computers.ids)
  success : (c.addToDB.run (answer misread) conn).1.1 = true
  clean : ∀ dev ∈ (c.addToDB.run (answer misread) conn).1.2.storageInfo, dev.dirty = false

/-- The load returns, with records that have the values of the given ones. -/
structure Loads (result : Except StdException Bool × RmsComputer) (devs : List RmsStorageInfo) :
    Prop where
  returns : ∃ b, result.1 = .ok b
  records : result.2.storageInfo.map columns = devs.map columns

variable {misread} {c : RmsComputer} {conn later : Connection}

/-- The row of the computer is appended, and its records are inserted under its id. -/
theorem run_addToDB_of_success (documented : Documented misread)
    (sysInfo : Quoteless (.insertComputer c.insertArgs))
    (storage : ∀ dev ∈ c.storageInfo, QuotelessRecord dev) (noStep : conn.NoStepFault)
    (fits : InInt (newRowid conn.db.computers.ids))
    (success : (answer misread (.insertComputer c.insertArgs, true) conn).1.success = true) :
    ∃ next : Connection, next.NoStepFault ∧ next.db.storages = conn.db.storages ∧
      let stored := (addStorages (newRowid conn.db.computers.ids) c.storageInfo).run
        (answer misread) next
      c.addToDB.run (answer misread) conn = ((true, { c with
        computerId := newRowid conn.db.computers.ids, storageInfo := stored.1 }), stored.2) ∧
      stored.2.db.computers.rows =
        conn.db.computers.rows ++ [computerRow c.insertArgs (newRowid conn.db.computers.ids)] := by
  have first := answer_of_done documented sysInfo trivial noStep rfl success
  have lastId : (answer misread (.insertComputer c.insertArgs, true) conn).1.lastId =
      some (newRowid conn.db.computers.ids) := by
    rw [first]
    exact congrArg some (toInt32_of_inInt fits)
  refine ⟨(answer misread (.insertComputer c.insertArgs, true) conn).2, noStep.answer misread _,
    by rw [first]; rfl, by simp [RmsComputer.addToDB, success, lastId], ?_⟩
  rw [computers_of_onStorages documented (addStorages_onStorages _ storage), first]
  rfl

/-- What is there after a computer has been added. -/
theorem Added.run (documented : Documented misread) (h : Added misread c conn) :
    let after := c.addToDB.run (answer misread) conn
    after.1.2.computerId = newRowid conn.db.computers.ids ∧
      after.1.2.storageInfo = recordsFrom (newRowid conn.db.storages.ids) c.storageInfo ∧
      after.2.db.storages.rows = conn.db.storages.rows ++
        rowsFrom (newRowid conn.db.computers.ids) (newRowid conn.db.storages.ids) c.storageInfo ∧
      computerRow c.insertArgs (newRowid conn.db.computers.ids) ∈ after.2.db.computers.rows := by
  obtain ⟨sysInfo, -, storable, noStep, fits, success, clean⟩ := h
  have done : (answer misread (.insertComputer c.insertArgs, true) conn).1.success = true := by
    by_contra failed
    simp [RmsComputer.addToDB, failed] at success
  obtain ⟨next, noStep', same, run, computers⟩ := run_addToDB_of_success documented sysInfo
    (fun dev hdev => (storable dev hdev).quoteless) noStep fits done
  rw [run] at clean ⊢
  obtain ⟨records, rows⟩ := run_addStorages_clean documented _ noStep' storable clean
  rw [same] at records rows
  exact ⟨rfl, records, rows, computers ▸ List.mem_append_right _ (List.mem_singleton_self _)⟩

theorem storagesOf_rowsFrom (computerId n : Int) (devs : List RmsStorageInfo) :
    (rowsFrom computerId n devs).filter (fun r => r.computerId = computerId) =
      rowsFrom computerId n devs := by
  induction devs generalizing n with
  | nil => rfl
  | cons dev devs ih => simp [rowsFrom, ih]

theorem length_rowsFrom (computerId n : Int) (devs : List RmsStorageInfo) :
    (rowsFrom computerId n devs).length = (recordsFrom n devs).length := by
  induction devs generalizing n with
  | nil => rfl
  | cons dev devs ih => simp [rowsFrom, recordsFrom, ih]

/-- A load without records returns what it should exactly if every row is
readable and the records are those of the rows. -/
theorem loads_iff (c : RmsComputer) (noRecords : c.storageInfo = []) (rows : List StorageRow)
    (devs : List RmsStorageInfo) :
    Loads ((loadStorages storageColumns (texts rows)).1.map fun _ => true,
        { c with storageInfo := c.storageInfo ++ (loadStorages storageColumns (texts rows)).2 })
        devs ↔
      (∀ r ∈ rows, Readable32 r) ∧ (rows.map loadedStorage).map columns = devs.map columns := by
  rw [noRecords, List.nil_append, ← loadStorages_iff]
  cases load : loadStorages storageColumns (texts rows) with
  | mk done infos =>
    cases done with
    | error e =>
      refine iff_of_false (fun loads => ?_) (by simp)
      obtain ⟨b, returns⟩ := loads.returns
      cases returns
    | ok =>
      rw [← loadStorages_ok load]
      exact ⟨fun loads => ⟨rfl, loads.records⟩, fun h => ⟨⟨true, rfl⟩, h.2⟩⟩

/-- What was inserted is loaded again exactly if nothing else is stored under
the id, nothing is free, and the ids and the sizes are ints. -/
theorem added_loaded_iff (documented : Documented misread) (junk : VersionData)
    (added : Added misread c conn) (same : later.db = (c.addToDB.run (answer misread) conn).2.db)
    (quiet : later.faults = []) :
    Loads (((RmsComputer.create (c.addToDB.run (answer misread) conn).1.2.computerId).getFromDB
        junk).run (answer misread) later).1
        (c.addToDB.run (answer misread) conn).1.2.storageInfo ↔
      storagesOf conn.db (newRowid conn.db.computers.ids) = [] ∧
        (∀ dev ∈ c.storageInfo, dev.free = 0 ∧ dev.total < 2 ^ 31) ∧
        ∀ i < c.storageInfo.length, newRowid conn.db.storages.ids + i < 2 ^ 31 := by
  obtain ⟨computerId, records, rows, row⟩ := added.run documented
  rw [← same] at rows row
  have valid : newRowid conn.db.computers.ids ≠ -1 := by
    have := newRowid_pos conn.db.computers.ids
    omega
  obtain ⟨next, sameNext, quietNext, load⟩ := run_getFromDB_row junk valid row
    (noFault_of_quiet quiet) added.widths.cpuCores added.widths.cacheSize
  rw [quiet] at quietNext
  rw [computerId, records, load, run_getStorageFromDB _ quietNext, sameNext]
  have stored : storagesOf later.db (newRowid conn.db.computers.ids) =
      storagesOf conn.db (newRowid conn.db.computers.ids) ++
        rowsFrom (newRowid conn.db.computers.ids) (newRowid conn.db.storages.ids) c.storageInfo := by
    rw [storagesOf, rows, List.filter_append, storagesOf_rowsFrom, storagesOf]
  have range := readable32_rowsFrom_iff (newRowid conn.db.computers.ids)
    (newRowid_pos conn.db.storages.ids) c.storageInfo
  rw [loads_iff _ rfl, stored, List.forall_mem_append]
  constructor
  · rintro ⟨⟨-, readable⟩, records⟩
    have none : storagesOf conn.db (newRowid conn.db.computers.ids) = [] := by
      have lengths := congrArg List.length records
      simp only [List.length_map, List.length_append, length_rowsFrom] at lengths
      exact List.eq_nil_of_length_eq_zero (by omega)
    rw [none, List.nil_append, columns_rowsFrom_iff _ readable] at records
    obtain ⟨totals, ids⟩ := range.mp readable
    exact ⟨none, fun dev hdev => ⟨records dev hdev, totals dev hdev⟩, ids⟩
  · rintro ⟨none, sizes, ids⟩
    have readable := range.mpr ⟨fun dev hdev => (sizes dev hdev).2, ids⟩
    rw [none, List.nil_append, columns_rowsFrom_iff _ readable]
    exact ⟨⟨fun r hr => absurd hr List.not_mem_nil, readable⟩, fun dev hdev => (sizes dev hdev).1⟩

theorem clean_addStorages (computerId : Int) {devs : List RmsStorageInfo}
    (quiet : conn.faults = []) (writable : ∀ dev ∈ devs, Writable dev) :
    ∀ dev ∈ ((addStorages computerId devs).run (answer misread) conn).1, dev.dirty = false := by
  induction devs generalizing conn with
  | nil => exact fun dev hdev => absurd hdev List.not_mem_nil
  | cons dev devs ih =>
    simp only [List.forall_mem_cons] at writable
    have first := answer_of_no_fault misread true (noFault_of_quiet quiet)
      (writable.1.readable_insert computerId) rfl
    have rest := ih (answer_quiet misread quiet (insertStorage computerId dev, true)) writable.2
    simp only [addStorages, bind_eq, pure_eq, run_bind, run_ask, run_ret, List.forall_mem_cons]
    refine ⟨?_, rest⟩
    rw [first]
    rfl

theorem Storable.of_writable {dev : RmsStorageInfo} (h : Writable dev) : Storable dev where
  quoteless := by
    simp only [QuotelessRecord, List.forall_mem_cons]
    exact ⟨h.devPath.1, h.fsType.1, h.mountPoint.1, by simp⟩
  free := h.free
  total := h.total

/-- A new computer that reports plain strings is added with all its records. -/
theorem added_of_report (quiet : conn.faults = []) {info : SystemInfo} (plain : PlainReport info)
    (widths : WireWidths info) (fits : InInt (newRowid conn.db.computers.ids)) :
    Added misread ((RmsComputer.create (-1)).setSysInfo info) conn := by
  have sysInfo := setSysInfo_sysInfo (RmsComputer.create (-1)) info
  have storage := setSysInfo_storageInfo (RmsComputer.create (-1)) info
  have writable : ∀ dev ∈ ((RmsComputer.create (-1)).setSysInfo info).storageInfo, Writable dev :=
    storage ▸ writable_of_report plain
  obtain ⟨conn', quiet', -, run⟩ := run_addToDB misread quiet (readable_insertComputer plain sysInfo)
  refine ⟨quoteless_insertComputer (quotelessReport_of_plain plain) sysInfo, ?_,
    fun dev hdev => .of_writable (writable dev hdev), .of_quiet quiet, fits, by rw [run], ?_⟩
  · rw [sysInfo]
    exact ⟨widths.cpuCores, widths.cacheSize⟩
  · rw [run]
    exact clean_addStorages _ quiet' writable

end RoundTrips

section Unread

/-- What no column of a row is read into. -/
structure Unread (r : RmsStorageInfo) : Prop where
  free : r.free = 0
  clean : r.dirty = false

theorem Unread.loadStorageColumn {info info' : RmsStorageInfo} {name text : String}
    (unread : Unread info) (h : loadStorageColumn info name text = .ok info') : Unread info' := by
  have ⟨free, clean⟩ := unread
  unfold Computer.loadStorageColumn at h
  cases number : stoi text.toList with
  | error e =>
    rw [number] at h
    split_ifs at h <;> cases h <;> exact ⟨free, clean⟩
  | ok n =>
    rw [number] at h
    split_ifs at h <;> cases h <;> exact ⟨free, clean⟩

theorem Unread.loadColumns (columns : List (String × String)) {info : RmsStorageInfo}
    (unread : Unread info) : Unread (loadColumns Computer.loadStorageColumn info columns).2 := by
  induction columns generalizing info with
  | nil => exact unread
  | cons column columns ih =>
    rw [Computer.loadColumns]
    split
    · exact unread
    · rename_i h
      exact ih (unread.loadStorageColumn h)

theorem unread_loadStorages (columnNames : List String) (rows : List (List String)) :
    ∀ r ∈ (loadStorages columnNames rows).2, Unread r := by
  induction rows with
  | nil => exact fun r hr => absurd hr List.not_mem_nil
  | cons row rows ih =>
    rw [loadStorages]
    split
    · exact fun r hr => absurd hr List.not_mem_nil
    · rename_i info h
      simp only [List.forall_mem_cons]
      have unread : Unread (loadColumns loadStorageColumn {} (columnNames.zip row)).2 :=
        Unread.loadColumns _ ⟨rfl, rfl⟩
      rw [h] at unread
      exact ⟨⟨unread.free, unread.clean⟩, ih⟩

/-- Whatever the database answers, records are loaded without free space, and clean. -/
theorem returns_unread_getFromDB (junk : VersionData) (id : Int) :
    ((RmsComputer.create id).getFromDB junk).Returns
      (fun out => ∀ r ∈ out.2.storageInfo, Unread r) := by
  have none : ∀ r ∈ (RmsComputer.create id).storageInfo, Unread r :=
    fun r hr => absurd hr List.not_mem_nil
  rw [RmsComputer.getFromDB]
  split
  · exact none
  · simp only [ask, bind_eq, query_bind, ret_bind, returns_query]
    intro res
    split
    · split
      · exact none
      · simp only [RmsComputer.getStorageFromDB, ask, bind_eq, query_bind, ret_bind, returns_query]
        intro res
        split
        · exact unread_loadStorages res.columnNames res.tableRows
        · exact none
    · refine returns_bind (P := fun out => out.2.storageInfo = []) ?_ fun out empty => ?_
      · simp only [RmsComputer.addToDB, ask, bind_eq, query_bind, ret_bind, returns_query]
        intro res
        split <;> rfl
      · intro r hr
        rw [empty] at hr
        cases hr
    · exact none

end Unread

/-- A drive without free space. -/
def fullDrive : SystemInfo := { hostName := "pc", storageInfo := [{ sda1 with free := 0 }] }

theorem plainReport_fullDrive : PlainReport fullDrive where
  systemName := by decide
  hostName := by decide
  cpuName := by decide
  cpuVendorName := by decide
  storage := by
    intro e he
    obtain rfl := List.mem_singleton.mp he
    exact ⟨by decide, by decide, by decide, by decide, by decide⟩

/-- A new computer reports to an empty database. -/
def addReport (info : SystemInfo) : (Bool × RmsComputer) × Connection :=
  ((RmsComputer.create (-1)).setSysInfo info).addToDB.run (answer fun _ _ => none) ⟨emptyDb, 0, []⟩

/-- A fresh computer of the same id is loaded. -/
def loadReport (info : SystemInfo) : Except StdException Bool × RmsComputer :=
  (((RmsComputer.create (addReport info).1.2.computerId).getFromDB {}).run (answer fun _ _ => none)
    ⟨(addReport info).2.db, 0, []⟩).1

theorem added_loaded_fullDrive :
    Loads (loadReport fullDrive) (addReport fullDrive).1.2.storageInfo := by
  have loaded (info : SystemInfo) (added : Added (fun _ _ => none)
      ((RmsComputer.create (-1)).setSysInfo info) ⟨emptyDb, 0, []⟩)
      (sizes : ∀ dev ∈ ((RmsComputer.create (-1)).setSysInfo info).storageInfo,
        dev.free = 0 ∧ dev.total < 2 ^ 31)
      (ids : ∀ i < ((RmsComputer.create (-1)).setSysInfo info).storageInfo.length,
        newRowid emptyDb.storages.ids + i < 2 ^ 31) :
      Loads (loadReport info) (addReport info).1.2.storageInfo := by
    have same : (Connection.mk (addReport info).2.db 0 []).db = (addReport info).2.db := by simp
    rw [loadReport]
    rw [addReport] at same ⊢
    exact (added_loaded_iff documented_none {} added same rfl).mpr ⟨by decide, sizes, ids⟩
  have added : Added (fun _ _ => none) ((RmsComputer.create (-1)).setSysInfo fullDrive)
      ⟨emptyDb, 0, []⟩ :=
    added_of_report rfl plainReport_fullDrive ⟨by decide, by decide⟩ (by decide)
  exact loaded fullDrive added (by decide) (by decide)

theorem records_addReport {info : SystemInfo} (plain : PlainReport info) (widths : WireWidths info) :
    (addReport info).1.2.storageInfo =
      recordsFrom 1 ((RmsComputer.create (-1)).setSysInfo info).storageInfo := by
  have added : Added (fun _ _ => none) ((RmsComputer.create (-1)).setSysInfo info)
      ⟨emptyDb, 0, []⟩ := added_of_report rfl plain widths (by decide)
  rw [addReport, (added.run documented_none).2.1]
  rfl

theorem free_loadReport {info : SystemInfo} {r : RmsStorageInfo}
    (h : r ∈ (loadReport info).2.storageInfo) : r.free = 0 := by
  have unread (id : Int) (conn : Connection) :=
    run_returns (answer fun _ _ => none) (returns_unread_getFromDB {} id) conn
  rw [loadReport] at h
  exact (unread _ _ r h).free

/-- The drive has 500 bytes free, and is loaded without any. -/
theorem oneDrive_not_loaded :
    ¬ Loads (loadReport oneDrive) (addReport oneDrive).1.2.storageInfo := by
  have records := records_addReport plainReport_oneDrive ⟨by decide, by decide⟩
  intro loads
  have read : (1, "/dev/sda1", "ext4", "/", 500, 1000) ∈
      (recordsFrom 1 ((RmsComputer.create (-1)).setSysInfo oneDrive).storageInfo).map columns := by
    decide
  rw [← records, ← loads.records] at read
  obtain ⟨r, hr, same⟩ := List.mem_map.mp read
  have lost := free_loadReport hr
  simp [columns, lost] at same

end StorageColumns
