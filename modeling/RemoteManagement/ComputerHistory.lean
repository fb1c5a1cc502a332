import RemoteManagement.CommandLoss
import RemoteManagement.ComputerColumns
import RemoteManagement.Library.RunTrace
import RemoteManagement.StatementTables

/-!
# The history in the computer table

A client reports its system information in a handshake and with `sendSysInfo`.
As long as no two connected clients have the same id, the row of a computer
shows the last report that was accepted under its id, whoever connects, leaves
and comes back, and it shows what the server has of the computer in memory.
-/

namespace ComputerHistory

open ThriftTypes SqlStatements ExecuteQuery RowTable Database DecimalText QueryProgram Program
open GuardedRun RunTrace Computer Handshake ComputerColumns Usage Ingestor Server StatementTables
open CommandLoss (getId_of_live getId_put_self getId_put_of_ne)

/-- The row shows the report. The client version is left out, since an insert
writes another one, and so is the architecture, since it is not loaded again. -/
structure Shows (r : ComputerRow) (info : SystemInfo) : Prop where
  systemName : r.systemName = info.systemName
  hostName : r.hostName = info.hostName
  osVersion : r.osVersion = String.ofList
    (Triple.text ⟨info.osVersion.major, info.osVersion.minor, info.osVersion.release⟩)
  cpuName : r.cpuName = info.cpuInfo.cpuName
  cpuVendor : r.cpuVendor = info.cpuInfo.cpuVendorName
  cpuCoreCount : r.cpuCoreCount = info.cpuInfo.cpuCores
  cpuCacheSize : r.cpuCacheSize = info.cpuInfo.cacheSize

/-- There is a row for the computer, and it shows the report. -/
def Shown (db : Db) (id : Int) (info : SystemInfo) : Prop :=
  ∃ r ∈ db.computers.rows, r.computerId = id ∧ Shows r info

/-- A report with plain strings, and with numbers as wide as those on the wire. -/
structure Reportable (info : SystemInfo) : Prop where
  systemName : SqlLiteral.Plain info.systemName.toList
  hostName : SqlLiteral.Plain info.hostName.toList
  cpuName : SqlLiteral.Plain info.cpuInfo.cpuName.toList
  cpuVendorName : SqlLiteral.Plain info.cpuInfo.cpuVendorName.toList
  widths : WireWidths info
  osVersion : InInt info.osVersion.major ∧ InInt info.osVersion.minor ∧
    InInt info.osVersion.release

instance decidableReportable (info : SystemInfo) : Decidable (Reportable info) :=
  decidable_of_iff ((SqlLiteral.Plain info.systemName.toList ∧
      SqlLiteral.Plain info.hostName.toList ∧ SqlLiteral.Plain info.cpuInfo.cpuName.toList ∧
      SqlLiteral.Plain info.cpuInfo.cpuVendorName.toList) ∧
    (InInt info.cpuInfo.cpuCores ∧
      -2 ^ 15 ≤ info.cpuInfo.cacheSize ∧ info.cpuInfo.cacheSize < 2 ^ 15) ∧
    InInt info.osVersion.major ∧ InInt info.osVersion.minor ∧ InInt info.osVersion.release)
    ⟨fun h => ⟨h.1.1, h.1.2.1, h.1.2.2.1, h.1.2.2.2, ⟨h.2.1.1, h.2.1.2⟩, h.2.2⟩,
      fun h => ⟨⟨h.systemName, h.hostName, h.cpuName, h.cpuVendorName⟩,
        ⟨h.widths.cpuCores, h.widths.cacheSize⟩, h.osVersion⟩⟩

/-- A row that was written from such a report. -/
structure Loadable (r : ComputerRow) (a : ComputerArgs) : Prop where
  row : r = computerRow a r.computerId
  cores : InInt a.cpuCoreCount
  cache : -2 ^ 15 ≤ a.cpuCacheSize ∧ a.cpuCacheSize < 2 ^ 15
  osVersion : InInt a.osVersion.first ∧ InInt a.osVersion.second ∧ InInt a.osVersion.third

def AllLoadable (db : Db) : Prop := ∀ r ∈ db.computers.rows, ∃ a, Loadable r a

section Rows

variable {r : ComputerRow} {info : SystemInfo} {c : RmsComputer}

/-- The numbers of a version are read whatever comes behind them. -/
theorem loadVersion_append (junk : VersionData) {v : Triple} (wide : InInt v.first ∧
    InInt v.second ∧ InInt v.third) {rest : List Char} (ends : EndsNumber rest) :
    loadVersion junk (String.ofList (v.text ++ rest)) =
      { release := v.third, major := v.first, minor := v.second } := by
  obtain ⟨major, minor, release⟩ := wide
  have separator (cs : List Char) : EndsNumber ('.' :: cs) := endsNumber_cons (by decide) cs
  have point (cs : List Char) : skipSpace ('.' :: cs) = '.' :: cs :=
    skipSpace_of_head (by decide) cs
  simp only [loadVersion, Triple.text, String.toList_ofList, List.append_assoc, List.cons_append,
    extractInt_repr major.1 major.2 (separator _), extractInt_repr minor.1 minor.2 (separator _),
    extractInt_repr release.1 release.2 ends, Stream.extractChar, point]

theorem loadable_insert (report : Reportable c.sysInfo) (id : Int) :
    Loadable (computerRow c.insertArgs id) c.insertArgs :=
  ⟨rfl, report.widths.cpuCores, report.widths.cacheSize, report.osVersion⟩

theorem loadable_update (report : Reportable c.sysInfo) (id : Int) :
    Loadable (computerRow c.updateArgs id) c.updateArgs :=
  ⟨rfl, report.widths.cpuCores, report.widths.cacheSize, report.osVersion⟩

theorem shows_insert (c : RmsComputer) (id : Int) : Shows (computerRow c.insertArgs id) c.sysInfo :=
  ⟨rfl, rfl, rfl, rfl, rfl, rfl, rfl⟩

theorem shows_update (c : RmsComputer) (id : Int) : Shows (computerRow c.updateArgs id) c.sysInfo :=
  ⟨rfl, rfl, rfl, rfl, rfl, rfl, rfl⟩

/-- What is loaded from a row is what it shows. -/
theorem Loadable.shows {a : ComputerArgs} (h : Loadable r a) (junk : VersionData) :
    Shows r (loadedInfo junk a) := by
  have version := loadVersion_append junk h.osVersion endsNumber_nil
  rw [List.append_nil] at version
  rw [h.row]
  exact ⟨rfl, rfl, by rw [loadedInfo, version]; rfl, rfl, rfl, rfl, rfl⟩

theorem Shows.setSysInfo (h : Shows r info) (c : RmsComputer) :
    Shows r (c.setSysInfo info).sysInfo := by
  rw [setSysInfo_sysInfo]
  exact ⟨h.systemName, h.hostName, h.osVersion, h.cpuName, h.cpuVendor, h.cpuCoreCount,
    h.cpuCacheSize⟩

theorem Shows.of_setSysInfo (h : Shows r (c.setSysInfo info).sysInfo) : Shows r info := by
  rw [setSysInfo_sysInfo] at h
  exact ⟨h.systemName, h.hostName, h.osVersion, h.cpuName, h.cpuVendor, h.cpuCoreCount,
    h.cpuCacheSize⟩

theorem Reportable.setSysInfo (h : Reportable info) (c : RmsComputer) :
    Reportable (c.setSysInfo info).sysInfo := by
  rw [setSysInfo_sysInfo]
  exact ⟨h.systemName, h.hostName, h.cpuName, h.cpuVendorName, ⟨h.widths.cpuCores,
    h.widths.cacheSize⟩, h.osVersion⟩

/-- A report that changes nothing that is compared is shown already. -/
theorem Shows.of_clean {old : SystemInfo} (h : Shows r old)
    (clean : isSysInfoDirty old info = false) : Shows r info := by
  simp only [isSysInfoDirty, decide_not, Bool.not_eq_false', decide_eq_true_eq] at clean
  obtain ⟨host, cpu, system, -, os⟩ := clean
  exact ⟨h.systemName.trans system, h.hostName.trans host, by rw [h.osVersion, os],
    by rw [h.cpuName, cpu], by rw [h.cpuVendor, cpu], by rw [h.cpuCoreCount, cpu],
    by rw [h.cpuCacheSize, cpu]⟩

theorem readable_insert (h : Reportable c.sysInfo) : Readable (.insertComputer c.insertArgs) := by
  refine readable_of_plain ?_ trivial
  simp [Query.strings, RmsComputer.insertArgs, h.systemName, h.hostName, h.cpuName,
    h.cpuVendorName, plain_arch]

theorem readable_update (h : Reportable c.sysInfo) (id : Int) :
    Readable (.updateComputer c.updateArgs id) := by
  refine readable_of_plain ?_ trivial
  simp [Query.strings, RmsComputer.updateArgs, RmsComputer.insertArgs, h.systemName, h.hostName,
    h.cpuName, h.cpuVendorName, plain_arch]

theorem reportable_default : Reportable {} where
  systemName := by decide
  hostName := by decide
  cpuName := by decide
  cpuVendorName := by decide
  widths := ⟨by decide, by decide⟩
  osVersion := by decide

end Rows

section Programs

variable {misread : List Char → Db → Option Outcome}

/-- An insert adds the row, and gives the computer its id. -/
theorem run_addToDB_row (first : FirstStatement misread) {c : RmsComputer} {conn : Connection}
    (quiet : conn.faults = []) (report : Reportable c.sysInfo) :
    ∃ c' conn', c.addToDB.run (answer misread) conn = ((true, c'), conn') ∧
      conn'.faults = [] ∧ c'.computerId = newComputerId conn.db ∧ c'.sysInfo = c.sysInfo ∧
      conn'.db.computers.rows = conn.db.computers.rows ++
        [computerRow c.insertArgs (newRowid conn.db.computers.ids)] := by
  have insert := answer_of_no_fault misread true (noFault_of_quiet quiet) (readable_insert report)
    rfl
  simp only [RmsComputer.addToDB, bind_eq, pure_eq, run_bind, run_ask, run_ret, insert, if_true]
  refine ⟨_, _, rfl, quiet_run misread _ (by simp [quiet]), rfl, rfl, ?_⟩
  rw [computers_run first (addStorages_about _ _) (by decide)]
  rfl

/-- An update writes the row if the record is dirty. -/
theorem run_updateDB_row (first : FirstStatement misread) {c : RmsComputer} {conn : Connection}
    (quiet : conn.faults = []) (valid : c.computerId ≠ -1) (report : Reportable c.sysInfo) :
    ∃ success c' conn', c.updateDB.run (answer misread) conn = ((success, c'), conn') ∧
      conn'.faults = [] ∧ c'.computerId = c.computerId ∧ c'.sysInfo = c.sysInfo ∧
      conn'.db.computers.rows = if c.sysInfoDirty then
        conn.db.computers.rows.map (fun r =>
          if r.computerId = c.computerId then computerRow c.updateArgs c.computerId else r)
        else conn.db.computers.rows := by
  have update := answer_of_no_fault misread false (noFault_of_quiet quiet)
    (readable_update report c.computerId) rfl
  simp only [RmsComputer.updateDB, if_neg valid, bind_eq, pure_eq, run_bind, run_ret]
  refine ⟨_, _, _, rfl, quiet_run misread _ (quiet_run misread _ quiet), rfl, rfl, ?_⟩
  rw [computers_run first (updateStorages_about _ _) (by decide), RmsComputer.updateSysInfo]
  split
  · simp only [bind_eq, pure_eq, run_bind, run_ask, run_ret, update]
    rfl
  · rfl

/-- A report writes the row of its computer and no other. -/
structure Written (before after : Db) (id : Int) (info : SystemInfo) : Prop where
  shown : Shown after id info
  others : ∀ r ∈ before.computers.rows, r.computerId ≠ id → r ∈ after.computers.rows
  loadable : AllLoadable before → AllLoadable after

theorem Shown.valid {db : Db} {id : Int} {info : SystemInfo} (h : Shown db id info) : id ≠ -1 := by
  obtain ⟨r, hr, rfl, -⟩ := h
  have positive := db.computers.positive r hr
  omega

theorem updateDB_written (first : FirstStatement misread) {c : RmsComputer} {info : SystemInfo}
    {conn : Connection} (quiet : conn.faults = []) (report : Reportable info)
    (shown : Shown conn.db c.computerId c.sysInfo) :
    ∃ success c' conn', (c.setSysInfo info).updateDB.run (answer misread) conn =
        ((success, c'), conn') ∧ conn'.faults = [] ∧ c'.computerId = c.computerId ∧
      c'.sysInfo = (c.setSysInfo info).sysInfo ∧ Written conn.db conn'.db c.computerId info := by
  have own := setSysInfo_computerId c info
  obtain ⟨success, c', conn', runs, quiet', same, sysInfo, rows⟩ := run_updateDB_row first quiet
    (own ▸ shown.valid) (report.setSysInfo c)
  refine ⟨success, c', conn', runs, quiet', same.trans own, sysInfo, ?_⟩
  obtain ⟨r, hr, id, shows⟩ := shown
  have flag : (c.setSysInfo info).sysInfoDirty = isSysInfoDirty c.sysInfo info := by
    rw [setSysInfo_eq]
  rw [own, flag] at rows
  cases changed : isSysInfoDirty c.sysInfo info with
  | true =>
    rw [changed, if_pos rfl] at rows
    refine ⟨⟨computerRow (c.setSysInfo info).updateArgs c.computerId, ?_, rfl,
      (shows_update _ _).of_setSysInfo⟩, fun r hr other => ?_, fun loadable r' hr' => ?_⟩
    · rw [rows]
      exact List.mem_map.mpr ⟨r, hr, if_pos id⟩
    · rw [rows]
      exact List.mem_map.mpr ⟨r, hr, if_neg other⟩
    · rw [rows] at hr'
      obtain ⟨r, hr, rfl⟩ := List.mem_map.mp hr'
      split
      · exact ⟨_, loadable_update (report.setSysInfo c) _⟩
      · exact loadable r hr
  | false =>
    rw [changed] at rows
    have same : conn'.db.computers.rows = conn.db.computers.rows := rows
    exact ⟨⟨r, same ▸ hr, id, shows.of_clean changed⟩, fun r hr _ => same ▸ hr,
      fun loadable r hr => loadable r (same ▸ hr)⟩

end Programs

section Handshakes

variable {misread : List Char → Db → Option Outcome} (junk : VersionData)

/-- An unknown computer is added while it is loaded, before it has reported. -/
theorem run_getFromDB_added (first : FirstStatement misread) {id : Int} {conn : Connection}
    (quiet : conn.faults = []) (valid : id ≠ -1) (unknown : id ∉ conn.db.computers.ids) :
    ∃ success c conn', ((RmsComputer.create id).getFromDB junk).run (answer misread) conn =
        ((.ok success, c), conn') ∧ conn'.faults = [] ∧
      c.computerId = newComputerId conn.db ∧ c.sysInfo = {} ∧
      conn'.db.computers.rows = conn.db.computers.rows ++
        [computerRow (RmsComputer.create id).insertArgs (newRowid conn.db.computers.ids)] := by
  obtain ⟨res, conn₁, fetch, success, rows, same, quiet₁⟩ :=
    answer_fetchComputer misread id quiet
  have none : conn.db.computers.rows.filter (fun r => r.computerId = id) = [] := by
    rw [List.filter_eq_nil_iff]
    intro r hr
    rw [decide_eq_true_eq]
    exact fun own => unknown (List.mem_map.mpr ⟨r, hr, own⟩)
  have empty : res.tableRows = [] := by
    rw [rows, none]
    rfl
  have report : Reportable (RmsComputer.create id).sysInfo := reportable_default
  obtain ⟨c, conn₂, adds, quiet₂, new, sysInfo, added⟩ := run_addToDB_row first quiet₁ report
  rw [same] at new added
  have own : (RmsComputer.create id).computerId = id := rfl
  refine ⟨true, c, conn₂, ?_, quiet₂, new, sysInfo, added⟩
  simp only [RmsComputer.getFromDB, own, if_neg valid, bind_eq, pure_eq, run_bind, run_ask, run_ret,
    fetch, success, empty, adds]

theorem returns_getStorageFromDB_computerId (c : RmsComputer) :
    c.getStorageFromDB.Returns (fun out => out.2.computerId = c.computerId) := by
  simp only [RmsComputer.getStorageFromDB, ask, bind_eq, query_bind, ret_bind, returns_query]
  intro res
  split <;> rfl

/-- A known computer is loaded, whatever becomes of its storage rows. -/
theorem run_getFromDB_loaded (first : FirstStatement misread) {id : Int} {conn : Connection}
    (quiet : conn.faults = []) (loadable : AllLoadable conn.db) (valid : id ≠ -1)
    (known : id ∈ conn.db.computers.ids) :
    ∃ loaded c conn', ((RmsComputer.create id).getFromDB junk).run (answer misread) conn =
        ((loaded, c), conn') ∧ conn'.faults = [] ∧ c.computerId = id ∧
      conn'.db.computers = conn.db.computers ∧ Shown conn.db id c.sysInfo := by
  obtain ⟨r, hr, rfl⟩ := List.mem_map.mp known
  obtain ⟨a, h⟩ := loadable r hr
  obtain ⟨next, same, faults, runs⟩ : ∃ next, next.db = conn.db ∧ next.faults = conn.faults.tail ∧
      ((RmsComputer.create r.computerId).getFromDB junk).run (answer misread) conn =
        (RmsComputer.getStorageFromDB
          { computerId := r.computerId, sysInfo := loadedInfo junk a }).run (answer misread) next :=
    run_getFromDB_row junk valid (h.row ▸ hr) (noFault_of_quiet quiet) h.cores h.cache
  have quiet' : next.faults = [] := by rw [faults, quiet, List.tail_nil]
  have own := run_returns (answer misread) (returns_getStorageFromDB_computerId
    { computerId := r.computerId, sysInfo := loadedInfo junk a }) next
  have sysInfo := run_returns (answer misread) (returns_getStorageFromDB
    { computerId := r.computerId, sysInfo := loadedInfo junk a }) next
  have quiet'' := quiet_run misread (RmsComputer.getStorageFromDB
    { computerId := r.computerId, sysInfo := loadedInfo junk a }) quiet'
  have same' := computers_run first (getStorageFromDB_about
    { computerId := r.computerId, sysInfo := loadedInfo junk a }) (by decide) next
  rw [← runs] at own sysInfo quiet'' same'
  refine ⟨_, _, _, rfl, quiet'', own, same'.trans (by rw [same]), r, hr, rfl, ?_⟩
  rw [sysInfo]
  exact h.shows junk

/-- What a handshake with an id leaves: the computer that it makes has its row,
and the report is in it unless the handshake threw. -/
structure Shaken (id : Int) (info : SystemInfo) (before after : Db)
    (done : Except StdException Int) (c : RmsComputer) : Prop where
  own : c.computerId = id ∨ c.computerId ∉ before.computers.ids
  shown : Shown after c.computerId c.sysInfo
  others : ∀ r ∈ before.computers.rows, r.computerId ≠ c.computerId → r ∈ after.computers.rows
  loadable : AllLoadable after
  refused : ∀ e, done = .error e → after.computers = before.computers
  accepted : ∀ n, done = .ok n → n = c.computerId ∧ Shown after n info

theorem shaken_of_written {id : Int} {info : SystemInfo} {before loaded after : Db}
    {c c' : RmsComputer} (own : c.computerId = id ∨ c.computerId ∉ before.computers.ids)
    (kept : ∀ r ∈ before.computers.rows, r ∈ loaded.computers.rows) (loadable : AllLoadable loaded)
    (written : Written loaded after c.computerId info) (same : c'.computerId = c.computerId)
    (sysInfo : c'.sysInfo = (c.setSysInfo info).sysInfo) :
    Shaken id info before after (.ok c.computerId) c' := by
  rw [← same] at own written
  refine ⟨own, ?_, fun r hr => written.others r (kept r hr), written.loadable loadable, ?_, ?_⟩
  · rw [sysInfo]
    obtain ⟨r, hr, id, shows⟩ := written.shown
    exact ⟨r, hr, id, shows.setSysInfo c⟩
  · rintro e ⟨⟩
  · rintro n ⟨⟩
    exact ⟨same.symm, same ▸ written.shown⟩

/-- The end of a handshake that has loaded its computer. -/
theorem handshake_loaded (first : FirstStatement misread) {id : Int} (known : id ≠ -1)
    {info : SystemInfo} (report : Reportable info) {conn conn₁ : Connection} {success : Bool}
    {c : RmsComputer} (loads : ((RmsComputer.create (toInt32 id)).getFromDB junk).run
      (answer misread) conn = ((.ok success, c), conn₁))
    (quiet₁ : conn₁.faults = []) (shown : Shown conn₁.db c.computerId c.sysInfo) :
    ∃ c' conn', (handshake junk id info).run (answer misread) conn =
        ((.ok c.computerId, c'), conn') ∧ conn'.faults = [] ∧ c'.computerId = c.computerId ∧
      c'.sysInfo = (c.setSysInfo info).sysInfo ∧ Written conn₁.db conn'.db c.computerId info := by
  obtain ⟨success', c', conn', updates, quiet', own, sysInfo, written⟩ :=
    updateDB_written first quiet₁ report shown
  refine ⟨c', conn', ?_, quiet', own, sysInfo, written⟩
  simp only [handshake, ne_eq, known, not_false_eq_true, if_true, bind_eq, pure_eq, run_bind, loads,
    updates, run_ret, own]

/-- A row that is inserted is loadable, like those before it. -/
theorem allLoadable_insert {before after : Db} (loadable : AllLoadable before) {c : RmsComputer}
    (report : Reportable c.sysInfo) {id : Int}
    (rows : after.computers.rows = before.computers.rows ++ [computerRow c.insertArgs id]) :
    AllLoadable after := by
  intro r hr
  rw [rows] at hr
  rcases List.mem_append.mp hr with old | new
  · exact loadable r old
  · rw [List.mem_singleton.mp new]
    exact ⟨_, loadable_insert report id⟩

theorem shown_insert {before after : Db} {c : RmsComputer} {id : Int}
    (rows : after.computers.rows = before.computers.rows ++ [computerRow c.insertArgs id]) :
    Shown after id c.sysInfo := by
  refine ⟨computerRow c.insertArgs id, ?_, rfl, shows_insert c id⟩
  rw [rows]
  exact List.mem_append_right _ (List.mem_singleton_self _)

section Paths

variable {info : SystemInfo} {conn : Connection}

/-- A new computer is set and then inserted. -/
theorem shaken_new (first : FirstStatement misread) (report : Reportable info)
    (quiet : conn.faults = []) (loadable : AllLoadable conn.db)
    (room : InInt (newRowid conn.db.computers.ids)) :
    ∃ done c conn', (handshake junk (-1) info).run (answer misread) conn = ((done, c), conn') ∧
      conn'.faults = [] ∧ Shaken (-1) info conn.db conn'.db done c := by
  have new : newComputerId conn.db = newRowid conn.db.computers.ids := toInt32_of_inInt room
  have cut : toInt32 (-1) = -1 := by decide
  have report' := report.setSysInfo (RmsComputer.create (-1))
  obtain ⟨c, conn', adds, quiet', own, sysInfo, rows⟩ := run_addToDB_row first quiet report'
  rw [← new] at rows
  have shown := shown_insert rows
  have runs : (handshake junk (-1) info).run (answer misread) conn =
      ((.ok c.computerId, c), conn') := by
    simp only [handshake, ne_eq, not_true_eq_false, if_false, bind_eq, pure_eq, run_bind, cut, adds,
      run_ret]
  refine ⟨_, c, conn', runs, quiet', ⟨Or.inr ?_, by rwa [own, sysInfo], fun r hr _ => ?_,
    allLoadable_insert loadable report' rows, ?_, ?_⟩⟩
  · rw [own, new]
    exact newRowid_notMem _
  · rw [rows]
    exact List.mem_append_left _ hr
  · rintro e ⟨⟩
  · rintro n ⟨⟩
    obtain ⟨r, hr, id, shows⟩ := shown
    exact ⟨rfl, r, hr, id.trans own.symm, shows.of_setSysInfo⟩

/-- A known computer is loaded, and written if the report differs. -/
theorem shaken_known (first : FirstStatement misread) {id : Int} (inInt : InInt id) (some : id ≠ -1)
    (report : Reportable info) (quiet : conn.faults = []) (loadable : AllLoadable conn.db)
    (known : id ∈ conn.db.computers.ids) :
    ∃ done c conn', (handshake junk id info).run (answer misread) conn = ((done, c), conn') ∧
      conn'.faults = [] ∧ Shaken id info conn.db conn'.db done c := by
  have cut := toInt32_of_inInt inInt
  obtain ⟨loaded, c, conn₁, loads, quiet₁, own, same, shown⟩ :=
    run_getFromDB_loaded junk first quiet loadable some known
  have shown₁ : Shown conn₁.db c.computerId c.sysInfo := by
    rwa [Shown, same, own]
  have loadable₁ : AllLoadable conn₁.db := by
    rwa [AllLoadable, same]
  rw [← cut] at loads
  cases loaded with
  | error e =>
    have runs : (handshake junk id info).run (answer misread) conn = ((.error e, c), conn₁) := by
      simp only [handshake, ne_eq, some, not_false_eq_true, if_true, bind_eq, pure_eq, run_bind,
        loads, run_ret]
    refine ⟨_, c, conn₁, runs, quiet₁, Or.inl own, shown₁, fun r hr _ => same ▸ hr, loadable₁,
      fun _ _ => same, ?_⟩
    rintro n ⟨⟩
  | ok success =>
    obtain ⟨c', conn', runs, quiet', own', sysInfo, written⟩ :=
      handshake_loaded junk first some report loads quiet₁ shown₁
    exact ⟨_, c', conn', runs, quiet', shaken_of_written (Or.inl own) (fun r hr => same ▸ hr)
      loadable₁ written own' sysInfo⟩

/-- An unknown computer is added without a report, and then written. -/
theorem shaken_unknown (first : FirstStatement misread) {id : Int} (inInt : InInt id)
    (some : id ≠ -1) (report : Reportable info) (quiet : conn.faults = [])
    (loadable : AllLoadable conn.db) (room : InInt (newRowid conn.db.computers.ids))
    (unknown : id ∉ conn.db.computers.ids) :
    ∃ done c conn', (handshake junk id info).run (answer misread) conn = ((done, c), conn') ∧
      conn'.faults = [] ∧ Shaken id info conn.db conn'.db done c := by
  have cut := toInt32_of_inInt inInt
  have new : newComputerId conn.db = newRowid conn.db.computers.ids := toInt32_of_inInt room
  obtain ⟨success, c, conn₁, loads, quiet₁, own, sysInfo, rows⟩ :=
    run_getFromDB_added junk first quiet some unknown
  rw [← cut] at loads
  rw [← new] at rows
  have shown₁ : Shown conn₁.db c.computerId c.sysInfo := by
    rw [own, sysInfo]
    exact shown_insert rows
  obtain ⟨c', conn', runs, quiet', own', sysInfo', written⟩ :=
    handshake_loaded junk first some report loads quiet₁ shown₁
  refine ⟨_, c', conn', runs, quiet', shaken_of_written (Or.inr ?_) (fun r hr => ?_)
    (allLoadable_insert loadable reportable_default rows) written own' sysInfo'⟩
  · rw [own, new]
    exact newRowid_notMem _
  · rw [rows]
    exact List.mem_append_left _ hr

end Paths

theorem handshake_shaken (first : FirstStatement misread) {id : Int} (inInt : InInt id)
    {info : SystemInfo} (report : Reportable info) {conn : Connection} (quiet : conn.faults = [])
    (loadable : AllLoadable conn.db) (room : InInt (newRowid conn.db.computers.ids)) :
    ∃ done c conn', (handshake junk id info).run (answer misread) conn = ((done, c), conn') ∧
      conn'.faults = [] ∧ Shaken id info conn.db conn'.db done c := by
  by_cases none : id = -1
  · rw [none]
    exact shaken_new junk first report quiet loadable room
  by_cases known : id ∈ conn.db.computers.ids
  · exact shaken_known junk first inInt none report quiet loadable known
  · exact shaken_unknown junk first inInt none report quiet loadable room known

end Handshakes

/-- What the server has of the computer that is in the table too. -/
def said (c : RmsComputer) : Int × SystemInfo := (c.computerId, c.sysInfo)

section Runs

/-- The last report that was accepted under the id. -/
def lastReport (id : Int) (reports : List (Int × SystemInfo)) : Option SystemInfo :=
  (reports.filter (fun p => p.1 = id)).getLast?.map Prod.snd

theorem lastReport_append (id n : Int) (reports : List (Int × SystemInfo)) (info : SystemInfo) :
    lastReport id (reports ++ [(n, info)]) =
      if n = id then some info else lastReport id reports := by
  by_cases own : n = id <;> simp [lastReport, List.filter_append, own]

variable (misread : List Char → Db → Option Outcome) (junk : VersionData)

/-- The reports that a step accepts, with the ids that they are kept under. -/
def accepted (s : RmsServer) : Event → List (Int × SystemInfo)
  | .handshake k id sysInfo =>
    match s.handlers k, withDatabase misread (handshake junk id sysInfo) s.backend with
    | some _, some ((.ok n, _), _) => [(n, sysInfo)]
    | _, _ => []
  | .sendSysInfo k sysInfo => (s.getId k).toList.map (fun n => (n, sysInfo))
  | .connect _ | .report _ _ _ | .disconnect _ | .status | .clients | .infoClient _ | .getSysInfo _
  | .exec _ _ _ => []

def Reports : Event → Prop
  | .handshake _ id sysInfo => InInt id ∧ Reportable sysInfo
  | .sendSysInfo _ sysInfo => Reportable sysInfo
  | _ => True

instance decidableReports (e : Event) : Decidable (Reports e) := by
  cases e with
  | handshake k id sysInfo => exact inferInstanceAs (Decidable (_ ∧ _))
  | sendSysInfo k sysInfo => exact inferInstanceAs (Decidable (Reportable sysInfo))
  | _ => exact isTrue trivial

def Room : Backend → Prop
  | .log => True
  | .sqlite _ conn => InInt (newRowid conn.db.computers.ids)

/-- No other client in the list has the id of a handshake, and new ids are ints. -/
def Alone (s : RmsServer) : Event → Prop
  | .handshake k id _ => (∀ g ∈ s.clients, g ≠ k → s.getId g ≠ some id) ∧ Room s.backend
  | _ => True

instance decidableAlone (s : RmsServer) (e : Event) : Decidable (Alone s e) := by
  cases e with
  | handshake k id sysInfo =>
    have room : Decidable (Room s.backend) := by
      cases s.backend <;> unfold Room <;> infer_instance
    exact inferInstanceAs (Decidable (_ ∧ _))
  | _ => exact isTrue trivial

/-- The table agrees with the computers in memory and with the reports so far. -/
structure Agrees (s : RmsServer) (db : Db) (seen : List (Int × SystemInfo)) : Prop where
  loadable : AllLoadable db
  live : ∀ k client c, s.handlers k = some client → client.computer = some c →
    Shown db c.computerId c.sysInfo
  last : ∀ id info, lastReport id seen = some info → Shown db id info
  listed : ∀ k client, s.handlers k = some client → k ∈ s.clients
  apart : ∀ k g id, s.getId k = some id → s.getId g = some id → k = g

def Mirrors (s : RmsServer) (seen : List (Int × SystemInfo)) : Prop :=
  ∃ ing conn, s.backend = .sqlite ing conn ∧ conn.faults = [] ∧ Agrees s conn.db seen

variable {misread} {s t : RmsServer} {db db' : Db} {seen seen' : List (Int × SystemInfo)} {k : Nat}

theorem Shown.other {id n : Int} {info : SystemInfo} (h : Shown db id info)
    (others : ∀ r ∈ db.computers.rows, r.computerId ≠ n → r ∈ db'.computers.rows)
    (other : id ≠ n) : Shown db' id info := by
  obtain ⟨r, hr, rfl, shows⟩ := h
  exact ⟨r, others r hr other, rfl, shows⟩

theorem computer_of_getId {g : Nat} {id : Int} (h : s.getId g = some id) :
    ∃ client c, s.handlers g = some client ∧ client.computer = some c ∧ c.computerId = id := by
  simp only [RmsServer.getId, Option.bind_eq_bind, Option.bind_eq_some_iff, pure,
    Option.some.injEq] at h
  obtain ⟨client, live, c, computer, same⟩ := h
  exact ⟨client, c, live, computer, same⟩

/-- Which client is found after one was put. -/
theorem handlers_put {client client' : RmsClient} (backend : Backend) {g : Nat}
    (live : (s.put k client backend).handlers g = some client') :
    g = k ∧ client' = client ∨ g ≠ k ∧ s.handlers g = some client' := by
  simp only [RmsServer.put, Function.update_apply] at live
  split at live
  · rename_i own
    exact Or.inl ⟨own, (Option.some.inj live).symm⟩
  · rename_i other
    exact Or.inr ⟨other, live⟩

theorem Agrees.listed_put (hs : Agrees s db seen) {client client' : RmsClient}
    (here : s.handlers k = some client) (backend : Backend) :
    ∀ g client, (s.put k client' backend).handlers g = some client →
      g ∈ (s.put k client' backend).clients := by
  intro g client₂ live
  rcases handlers_put backend live with ⟨rfl, -⟩ | ⟨-, before⟩
  · exact hs.listed g client here
  · exact hs.listed g client₂ before

/-- A client writes its own row, and no other client has its id. -/
theorem Agrees.write (hs : Agrees s db seen) {client client' : RmsClient}
    (here : s.handlers k = some client) {c : RmsComputer} (computer : client'.computer = some c)
    (loadable : AllLoadable db') (shown : Shown db' c.computerId c.sysInfo)
    (others : ∀ r ∈ db.computers.rows, r.computerId ≠ c.computerId → r ∈ db'.computers.rows)
    (alone : ∀ g, g ≠ k → s.getId g ≠ some c.computerId)
    (last : ∀ id info, lastReport id seen' = some info → Shown db' id info) (backend : Backend) :
    Agrees (s.put k client' backend) db' seen' := by
  have own : (s.put k client' backend).getId k = some c.computerId := by
    rw [getId_put_self, computer, Option.map_some]
  have lone {g : Nat} (shared : (s.put k client' backend).getId g = some c.computerId) : g = k := by
    by_contra other
    rw [getId_put_of_ne s other] at shared
    exact alone g other shared
  refine ⟨loadable, fun g client₂ c₂ live computer₂ => ?_, last, hs.listed_put here backend,
    fun g g' id hg hg' => ?_⟩
  · rcases handlers_put backend live with ⟨rfl, rfl⟩ | ⟨other, before⟩
    · rw [computer] at computer₂
      exact Option.some.inj computer₂ ▸ shown
    · have id : s.getId g = some c₂.computerId := by
        rw [getId_of_live before, computer₂, Option.map_some]
      exact (hs.live g client₂ c₂ before computer₂).other others
        fun shared => alone g other (shared ▸ id)
  · by_cases mine : id = c.computerId
    · exact (lone (mine ▸ hg)).trans (lone (mine ▸ hg')).symm
    · have other {g : Nat} (hg : (s.put k client' backend).getId g = some id) :
          s.getId g = some id := by
        rw [getId_put_of_ne s ?_] at hg
        · exact hg
        · rintro rfl
          exact mine (Option.some.inj (hg.symm.trans own))
      exact hs.apart g g' id (other hg) (other hg')

/-- Nothing is written, and the client has what it had of its computer. -/
theorem Agrees.keep (hs : Agrees s db seen) {client client' : RmsClient}
    (here : s.handlers k = some client) (same : db'.computers = db.computers)
    (kept : client'.computer.map said = client.computer.map said) (backend : Backend) :
    Agrees (s.put k client' backend) db' seen := by
  have ids (g : Nat) : (s.put k client' backend).getId g = s.getId g := by
    by_cases own : g = k
    · have id := congrArg (Option.map Prod.fst) kept
      rw [Option.map_map, Option.map_map] at id
      rw [own, getId_put_self, getId_of_live here]
      exact id
    · exact getId_put_of_ne s own client' backend
  have shown {id : Int} {info : SystemInfo} (h : Shown db id info) : Shown db' id info := by
    rwa [Shown, same]
  refine ⟨?_, fun g client₂ c₂ live computer => ?_, fun id info h => shown (hs.last id info h),
    hs.listed_put here backend, fun g g' id hg hg' => hs.apart g g' id (ids g ▸ hg) (ids g' ▸ hg')⟩
  · rw [AllLoadable, same]
    exact hs.loadable
  · rcases handlers_put backend live with ⟨rfl, rfl⟩ | ⟨-, before⟩
    · rw [computer, Option.map_some] at kept
      obtain ⟨c, before, equal⟩ := Option.map_eq_some_iff.mp kept.symm
      have shows := hs.live g client c here before
      rw [said, said, Prod.mk.injEq] at equal
      rw [equal.1, equal.2] at shows
      exact shown shows
    · exact shown (hs.live g client₂ c₂ before computer)

section Steps

theorem mirrors_connect (hs : Mirrors s seen)
    (h : Server.step misread junk s (.connect k) = some t) : Mirrors t seen := by
  cases live : s.handlers k with
  | some client =>
    simp only [Server.step, live, Option.some.injEq] at h
    exact h ▸ hs
  | none =>
    simp only [Server.step, live, Option.some.injEq] at h
    obtain ⟨ing, conn, backend, quiet, agrees⟩ := hs
    rw [← h]
    refine ⟨ing, conn, backend, quiet, agrees.loadable, fun g client c found computer => ?_,
      agrees.last, fun g client found => ?_, fun g g' id hg hg' => ?_⟩
    · rcases handlers_put s.backend found with ⟨-, rfl⟩ | ⟨-, before⟩
      · cases computer
      · exact agrees.live g client c before computer
    · rcases handlers_put s.backend found with ⟨rfl, -⟩ | ⟨-, before⟩
      · exact List.mem_append_right _ (List.mem_singleton_self _)
      · exact List.mem_append_left _ (agrees.listed g client before)
    · have old {g : Nat} (hg : (s.put k {} s.backend).getId g = some id) :
          s.getId g = some id := by
        rw [getId_put_of_ne s ?_] at hg
        · exact hg
        · rintro rfl
          rw [getId_put_self] at hg
          cases hg
      exact agrees.apart g g' id (old hg) (old hg')

theorem mirrors_disconnect (hs : Mirrors s seen)
    (h : Server.step misread junk s (.disconnect k) = some t) : Mirrors t seen := by
  cases live : s.handlers k with
  | none =>
    simp only [Server.step, live, Option.some.injEq] at h
    exact h ▸ hs
  | some client =>
    obtain ⟨id, own, rfl⟩ := disconnect_eq misread junk live h
    obtain ⟨ing, conn, backend, quiet, agrees⟩ := hs
    have before {g : Nat} {client : RmsClient}
        (found : Function.update s.handlers k none g = some client) :
        g ≠ k ∧ s.handlers g = some client := by
      rw [Function.update_apply] at found
      split at found
      · cases found
      · rename_i other
        exact ⟨other, found⟩
    have old {g : Nat} {n : Int}
        (hg : RmsServer.getId { s with
          clients := s.clients.filter (fun g => s.getId g ≠ some id)
          handlers := Function.update s.handlers k none } g = some n) : s.getId g = some n := by
      simp only [RmsServer.getId, Option.bind_eq_bind, Option.bind_eq_some_iff] at hg ⊢
      obtain ⟨client, found, rest⟩ := hg
      exact ⟨client, (before found).2, rest⟩
    refine ⟨ing, conn, backend, quiet, agrees.loadable, fun g client c found computer => ?_,
      agrees.last, fun g client found => ?_,
      fun g g' n hg hg' => agrees.apart g g' n (old hg) (old hg')⟩
    · exact agrees.live g client c (before found).2 computer
    · obtain ⟨other, found⟩ := before found
      refine List.mem_filter.mpr ⟨agrees.listed g client found, ?_⟩
      rw [decide_eq_true_eq]
      exact fun shared => other (agrees.apart g k id shared own)

theorem mirrors_handshake (first : FirstStatement misread) (hs : Mirrors s seen) {id : Int}
    {sysInfo : SystemInfo} (reports : Reports (.handshake k id sysInfo))
    (alone : Alone s (.handshake k id sysInfo))
    (h : Server.step misread junk s (.handshake k id sysInfo) = some t) :
    Mirrors t (seen ++ accepted misread junk s (.handshake k id sysInfo)) := by
  cases live : s.handlers k with
  | none =>
    simp only [Server.step, live, Option.some.injEq] at h
    rw [accepted, live, List.append_nil]
    exact h ▸ hs
  | some client =>
    obtain ⟨ing, conn, backend, quiet, agrees⟩ := hs
    obtain ⟨unshared, room⟩ := alone
    rw [backend] at room
    obtain ⟨done, c, conn', runs, quiet', shaken⟩ :=
      handshake_shaken junk first reports.1 reports.2 quiet agrees.loadable room
    simp only [Server.step, live, backend, withDatabase, runs, Option.map_some,
      Option.some.injEq] at h
    have lone (g : Nat) (other : g ≠ k) : s.getId g ≠ some c.computerId := by
      intro shared
      obtain ⟨client', c', found, computer, same⟩ := computer_of_getId shared
      rcases shaken.own with own | fresh
      · exact unshared g (agrees.listed g client' found) other (own ▸ shared)
      · obtain ⟨r, hr, row, -⟩ := agrees.live g client' c' found computer
        exact fresh (List.mem_map.mpr ⟨r, hr, row.trans same⟩)
    rw [accepted, live, backend, withDatabase, runs, ← h]
    refine ⟨ing, conn', rfl, quiet', agrees.write live rfl shaken.loadable shaken.shown
      shaken.others lone (fun n info reported => ?_) _⟩
    cases done with
    | error e =>
      rw [List.append_nil] at reported
      have kept := agrees.last n info reported
      rwa [Shown, shaken.refused e rfl]
    | ok own =>
      obtain ⟨rfl, shown⟩ := shaken.accepted own rfl
      rw [lastReport_append] at reported
      split at reported
      · rename_i mine
        exact Option.some.inj reported ▸ mine ▸ shown
      · rename_i other
        exact (agrees.last n info reported).other shaken.others (Ne.symm other)

theorem mirrors_sendSysInfo (first : FirstStatement misread) (hs : Mirrors s seen)
    {sysInfo : SystemInfo} (report : Reportable sysInfo)
    (h : Server.step misread junk s (.sendSysInfo k sysInfo) = some t) :
    Mirrors t (seen ++ accepted misread junk s (.sendSysInfo k sysInfo)) := by
  cases live : s.handlers k with
  | none =>
    simp only [Server.step, live, Option.some.injEq] at h
    have nobody : s.getId k = none := by
      rw [RmsServer.getId, live]
      rfl
    rw [accepted, nobody, ← h]
    rwa [Option.toList_none, List.map_nil, List.append_nil]
  | some client =>
    obtain ⟨ing, conn, backend, quiet, agrees⟩ := hs
    simp only [Server.step, live, Option.bind_eq_some_iff, Option.map_eq_some_iff, backend] at h
    obtain ⟨c, computer, ⟨out, backend'⟩, asked, rfl⟩ := h
    have own : s.getId k = some c.computerId := by
      rw [getId_of_live live, computer, Option.map_some]
    have shown := agrees.live k client c live computer
    obtain ⟨success, c', conn', runs, quiet', same, sysInfo', written⟩ :=
      updateDB_written first quiet report shown
    simp only [withDatabase, runs, Option.some.injEq, Prod.mk.injEq] at asked
    obtain ⟨rfl, rfl⟩ := asked
    obtain ⟨r, hr, id, shows⟩ := written.shown
    have shown' : Shown conn'.db c'.computerId c'.sysInfo := by
      rw [same, sysInfo']
      exact ⟨r, hr, id, shows.setSysInfo c⟩
    rw [← same] at own written
    rw [accepted, own]
    refine ⟨ing, conn', rfl, quiet', agrees.write live rfl (written.loadable agrees.loadable)
      shown' written.others (fun g other shared => other (agrees.apart g k _ shared own))
      (fun n info reported => ?_) _⟩
    rw [Option.toList_some, List.map_singleton, lastReport_append] at reported
    split at reported
    · rename_i mine
      exact Option.some.inj reported ▸ mine ▸ written.shown
    · rename_i other
      exact (agrees.last n info reported).other written.others (Ne.symm other)

theorem mirrors_report (first : FirstStatement misread) (hs : Mirrors s seen) {timestamp : Int}
    {data : List (Clock × RmsRequestData)}
    (h : Server.step misread junk s (.report k timestamp data) = some t) : Mirrors t seen := by
  cases live : s.handlers k with
  | none =>
    simp only [Server.step, live, Option.some.injEq] at h
    exact h ▸ hs
  | some client =>
    obtain ⟨ing, conn, backend, quiet, agrees⟩ := hs
    simp only [Server.step, live, Option.map_eq_some_iff, backend, report] at h
    obtain ⟨⟨res, client', backend'⟩, reported, rfl⟩ := h
    have kept := run_returns (answer misread)
      (ingestRequest_keeps said (fun _ _ _ _ => rfl) ing client.computer data) conn
    have same := computers_run first (ingestRequest_about ing client.computer data) (by decide) conn
    have quiet' := quiet_run misread (ingestRequest ing client.computer data) quiet
    split at reported
    · cases reported
    rename_i ing' computer conn' ingested
    cases reported
    rw [ingested] at kept same quiet'
    exact ⟨ing', conn', rfl, quiet', agrees.keep live same (kept _ rfl) _⟩

theorem mirrors_exec (first : FirstStatement misread) (hs : Mirrors s seen) {id timestamp : Int}
    {cmd : String} (h : Server.step misread junk s (.exec id timestamp cmd) = some t) :
    Mirrors t seen := by
  rcases exec_eq misread junk h with ⟨-, rfl⟩ | ⟨k, client, data, backend', -, live, asked, rfl⟩
  · exact hs
  · obtain ⟨ing, conn, backend, quiet, agrees⟩ := hs
    rw [backend, withDatabase, Option.some.injEq, Prod.mk.injEq] at asked
    rw [← asked.2]
    refine ⟨ing, _, rfl, quiet_run misread _ quiet, agrees.keep live
      (computers_run first (runCommand_about id timestamp cmd) (by decide) conn) ?_ _⟩
    cases data <;> rfl

end Steps

theorem step_mirrors (first : FirstStatement misread) (s : RmsServer) (e : Event) (t : RmsServer)
    (seen : List (Int × SystemInfo)) (hs : Mirrors s seen) (guard : Reports e ∧ Alone s e)
    (h : Server.step misread junk s e = some t) :
    Mirrors t (seen ++ accepted misread junk s e) := by
  cases e with
  | handshake k id sysInfo => exact mirrors_handshake junk first hs guard.1 guard.2 h
  | sendSysInfo k sysInfo => exact mirrors_sendSysInfo junk first hs guard.1 h
  | connect k =>
    rw [accepted, List.append_nil]
    exact mirrors_connect junk hs h
  | disconnect k =>
    rw [accepted, List.append_nil]
    exact mirrors_disconnect junk hs h
  | report k timestamp data =>
    rw [accepted, List.append_nil]
    exact mirrors_report junk first hs h
  | exec id timestamp cmd =>
    rw [accepted, List.append_nil]
    exact mirrors_exec junk first hs h
  | status =>
    simp only [Server.step, Option.some.injEq] at h
    rw [accepted, List.append_nil]
    exact h ▸ hs
  | clients =>
    rw [Server.step, Option.ite_none_right_eq_some, Option.some.injEq] at h
    rw [accepted, List.append_nil]
    exact h.2 ▸ hs
  | infoClient id =>
    simp only [Server.step, Option.map_eq_some_iff] at h
    obtain ⟨_, -, rfl⟩ := h
    rwa [accepted, List.append_nil]
  | getSysInfo id =>
    rw [accepted, List.append_nil]
    rcases getSysInfo_eq misread junk h with rfl | ⟨k, client, live, rfl⟩
    · exact hs
    · obtain ⟨ing, conn, backend, quiet, agrees⟩ := hs
      have kept : (client.addResponse { dataType := .kSendSystemInfo }).computer.map said =
          client.computer.map said := rfl
      exact ⟨ing, conn, backend, quiet, agrees.keep live rfl kept _⟩

/-- In every run whose handshakes take no id of another client that is connected,
the table shows the last report accepted under each id, and what the server has
in memory of each connected computer. -/
theorem run_shown (first : FirstStatement misread) (ing : DbRequestIngestor) {conn : Connection}
    (quiet : conn.faults = []) (loadable : AllLoadable conn.db) {es : List Event} {t : RmsServer}
    (reports : ∀ e ∈ es, Reports e)
    (alone : Guarded (Server.step misread junk) Alone (Server.start (.sqlite ing conn)) es)
    (arrives : run (Server.step misread junk) (Server.start (.sqlite ing conn)) es = some t) :
    ∃ ing' conn', t.backend = .sqlite ing' conn' ∧
      (∀ id info, lastReport id (observed (Server.step misread junk) (accepted misread junk)
        (Server.start (.sqlite ing conn)) es) = some info → Shown conn'.db id info) ∧
      ∀ k client c, t.handlers k = some client → client.computer = some c →
        Shown conn'.db c.computerId c.sysInfo := by
  have before : Mirrors (Server.start (.sqlite ing conn)) [] := by
    refine ⟨ing, conn, rfl, quiet, loadable, ?_, ?_, ?_, ?_⟩
    · rintro k client c ⟨⟩
    · rintro id info ⟨⟩
    · rintro k client ⟨⟩
    · rintro k g id ⟨⟩
  have mirrors := guarded_run_observed Mirrors (step_mirrors junk first) before
    (guarded_of_forall reports |>.and alone) arrives
  obtain ⟨ing', conn', backend, -, agrees⟩ := mirrors
  exact ⟨ing', conn', backend, agrees.last, agrees.live⟩

end Runs

/-- A computer changes its name, leaves, and comes back with a system name. -/
def comesBack : List Event :=
  [.connect 0, .handshake 0 (-1) { hostName := "a" }, .connect 1,
    .handshake 1 (-1) { hostName := "b" }, .sendSysInfo 0 { hostName := "c" }, .disconnect 0,
    .connect 2, .handshake 2 1 { hostName := "c", systemName := "Linux" }]

theorem run_shown_comesBack :
    ∃ t ing' conn',
      run (Server.step (fun _ _ => none) {}) (Server.start sqlite) comesBack = some t ∧
      t.backend = .sqlite ing' conn' ∧
      (∀ id info, lastReport id (observed (Server.step (fun _ _ => none) {})
        (accepted (fun _ _ => none) {}) (Server.start sqlite) comesBack) = some info →
          Shown conn'.db id info) ∧
      ∀ k client c, t.handlers k = some client → client.computer = some c →
        Shown conn'.db c.computerId c.sysInfo := by
  have arrives : (run (Server.step (fun _ _ => none) {}) (Server.start sqlite) comesBack).isSome =
      true := by
    decide +kernel
  obtain ⟨t, arrives⟩ := Option.isSome_iff_exists.mp arrives
  have loadable : AllLoadable freshConn.db := by
    rintro r ⟨⟩
  obtain ⟨ing', conn', shown⟩ := run_shown {} firstStatement_none (.create 0) rfl loadable
    (by decide +kernel) (by decide +kernel) arrives
  exact ⟨t, ing', conn', arrives, shown⟩

end ComputerHistory
