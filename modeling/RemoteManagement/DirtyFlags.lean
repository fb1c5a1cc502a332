import RemoteManagement.Computer
import RemoteManagement.Library.GuardedRun

/-!
# Dirty flags

A computer is kept up to date by reports and by updates of the database, which
may fail. A record that is not dirty claims that its row has its values. The
flag of a record is recomputed at every report from the values in memory, so a
flag that a failed update left set can be lost; the guard names the reports and
updates at which none is.
-/

namespace DirtyFlags

open ThriftTypes SqlStatements ExecuteQuery RowTable Database QueryProgram Program GuardedRun
open Computer

structure State where
  computer : RmsComputer
  db : Db

inductive Event where
  | setSysInfo (report : SystemInfo)
  | updateDB (faults : List (Option Fault))

/-- The row has the values of the record. -/
def Holds (r : StorageRow) (dev : RmsStorageInfo) : Prop :=
  r.fsType = dev.fsType ∧ r.mountPoint = dev.mountPoint ∧ r.free = dev.free ∧ r.total = dev.total

def RecordSaved (db : Db) (dev : RmsStorageInfo) : Prop :=
  ∃ r ∈ db.storages.rows, r.storageInfoId = dev.storageInfoId ∧ Holds r dev

def ComputerSaved (db : Db) (c : RmsComputer) : Prop :=
  computerRow c.updateArgs c.computerId ∈ db.computers.rows

/-- Every clean record agrees with its row. -/
structure Agrees (s : State) : Prop where
  computer : s.computer.sysInfoDirty = false → ComputerSaved s.db s.computer
  storage : ∀ dev ∈ s.computer.storageInfo, dev.storageInfoId ≠ -1 → dev.dirty = false →
    RecordSaved s.db dev

section Reports

/-- The record that the entries of a report make of a known one. -/
def reported (dev : RmsStorageInfo) (es : List StorageInfo) : RmsStorageInfo :=
  es.foldl storageInfoToRmsStorageInfo dev

/-- The report differs from what memory holds, or the rows have it already.
Of a device that is listed twice, memory holds the entry before the last. -/
def ReportKept (s : State) (report : SystemInfo) : Prop :=
  (isSysInfoDirty s.computer.sysInfo report = true ∨ ComputerSaved s.db s.computer) ∧
    ∀ dev, KeyedList.lookup RmsStorageInfo.devPath dev.devPath s.computer.storageInfo = some dev →
      dev.storageInfoId ≠ -1 → ∀ es last,
        KeyedList.entriesOf StorageInfo.dev dev.devPath report.storageInfo = es ++ [last] →
          ¬ SameStorage (reported dev es) last ∨ RecordSaved s.db (reported dev (es ++ [last]))

theorem reported_concat (dev : RmsStorageInfo) (es : List StorageInfo) (last : StorageInfo) :
    reported dev (es ++ [last]) = storageInfoToRmsStorageInfo (reported dev es) last := by
  simp [reported]

theorem reported_storageInfoId (dev : RmsStorageInfo) (es : List StorageInfo) :
    (reported dev es).storageInfoId = dev.storageInfoId := by
  induction es generalizing dev with
  | nil => rfl
  | cons e es ih => exact ih (storageInfoToRmsStorageInfo dev e)

/-- What is compared in a report is what is written of it. -/
theorem updateArgs_of_not_dirty {c : RmsComputer} {report : SystemInfo}
    (h : isSysInfoDirty c.sysInfo report = false) :
    (c.setSysInfo report).updateArgs = c.updateArgs := by
  have same : c.sysInfo.hostName = report.hostName ∧ c.sysInfo.cpuInfo = report.cpuInfo ∧
      c.sysInfo.systemName = report.systemName ∧
      c.sysInfo.clientVersion = report.clientVersion ∧
      c.sysInfo.osVersion = report.osVersion := by
    simpa [isSysInfoDirty] using h
  obtain ⟨hostName, cpuInfo, systemName, clientVersion, osVersion⟩ := same
  simp [RmsComputer.updateArgs, RmsComputer.insertArgs, setSysInfo_sysInfo, hostName, cpuInfo,
    systemName, clientVersion, osVersion]

theorem agrees_setSysInfo {s : State} (hs : Agrees s) {report : SystemInfo}
    (kept : ReportKept s report) : Agrees ⟨s.computer.setSysInfo report, s.db⟩ where
  computer := by
    intro clean
    have same : isSysInfoDirty s.computer.sysInfo report = false := by
      rw [← clean, setSysInfo_eq]
    have saved : ComputerSaved s.db s.computer := by
      rcases kept.1 with h | h
      · rw [same] at h
        cases h
      · exact h
    rw [ComputerSaved] at saved ⊢
    rw [updateArgs_of_not_dirty same, setSysInfo_computerId]
    exact saved
  storage := by
    intro dev hdev hid clean
    rw [setSysInfo_storageInfo] at hdev
    rcases KeyedList.mem_upsertAll keyed_writeStorage hdev with ⟨fs, hnew⟩ | hold | ⟨a, ha, rfl⟩
    · -- a record that the report added has no row
      cases fs with
      | nil => cases hnew
      | cons e es =>
        have made : some (reported (writeStorage none e) es) = some dev :=
          (KeyedList.amend_some (writeStorage none e) es).symm.trans hnew
        obtain rfl := Option.some.inj made
        exact absurd (reported_storageInfoId (writeStorage none e) es) hid
    · exact hs.storage dev hold hid clean
    · rcases List.eq_nil_or_concat
          (KeyedList.entriesOf StorageInfo.dev a.devPath report.storageInfo) with hes | ⟨es, last, hes⟩
      · rw [hes] at hid clean ⊢
        exact hs.storage a (KeyedList.mem_of_lookup ha) hid clean
      · rw [List.concat_eq_append] at hes
        rw [hes] at hid clean ⊢
        change (reported a (es ++ [last])).storageInfoId ≠ -1 at hid
        change (reported a (es ++ [last])).dirty = false at clean
        rw [reported_storageInfoId] at hid
        rcases kept.2 a ha hid es last hes with differs | saved
        · rw [reported_concat] at clean
          simp [storageInfoToRmsStorageInfo, differs] at clean
        · exact saved

end Reports

section Updates

variable (misread : List Char → Db → Option Outcome)

def content (dev : RmsStorageInfo) : String × String × Nat × Nat :=
  (dev.fsType, dev.mountPoint, dev.free, dev.total)

/-- Records that have one row between them have the same values for it. -/
def SharedRowsAgree (devs : List RmsStorageInfo) : Prop :=
  ∀ a ∈ devs, ∀ b ∈ devs, a.storageInfoId = b.storageInfoId → a.storageInfoId ≠ -1 →
    content a = content b

theorem holds_of_content {r : StorageRow} {a b : RmsStorageInfo} (h : content a = content b)
    (ha : Holds r a) : Holds r b := by
  simp only [content, Prod.mk.injEq] at h
  obtain ⟨fsType, mountPoint, free, total⟩ := h
  rw [Holds] at ha ⊢
  rw [← fsType, ← mountPoint, ← free, ← total]
  exact ha

/-- Writing a record leaves saved what agrees with it. -/
theorem RecordSaved.writeBack {db : Db} {a : RmsStorageInfo} (saved : RecordSaved db a)
    {dev : RmsStorageInfo} (agree : a.storageInfoId = dev.storageInfoId → content dev = content a) :
    RecordSaved (Computer.writeBack dev db) a := by
  obtain ⟨r, hr, hid, holds⟩ := saved
  refine ⟨storedStorage dev r, List.mem_map_of_mem hr,
    (samePlace_storedStorage dev r).storageInfoId.trans hid, ?_⟩
  by_cases own : r.storageInfoId = dev.storageInfoId
  · refine holds_of_content (agree (hid.symm.trans own)) ?_
    rw [storedStorage, if_pos own]
    exact ⟨rfl, rfl, rfl, rfl⟩
  · rw [storedStorage, if_neg own]
    exact holds

theorem recordSaved_writeBack {db : Db} {dev : RmsStorageInfo}
    (row : dev.storageInfoId ∈ db.storages.ids) : RecordSaved (writeBack dev db) dev := by
  obtain ⟨r, hr, hid⟩ := List.mem_map.mp row
  refine ⟨storedStorage dev r, List.mem_map_of_mem hr,
    (samePlace_storedStorage dev r).storageInfoId.trans hid, ?_⟩
  rw [storedStorage, if_pos hid]
  exact ⟨rfl, rfl, rfl, rfl⟩

/-- What the update of a record does: nothing, or it saves the record. -/
theorem answer_updateStorage {dev : RmsStorageInfo} {conn : Connection}
    (noStep : conn.NoStepFault) (readable : Readable (updateStorage dev)) :
    ∃ res conn', answer misread (updateStorage dev, false) conn = (res, conn') ∧
      conn'.NoStepFault ∧
      (res.success = true ∧ conn'.db = writeBack dev conn.db ∨
        res.success = false ∧ conn'.db = conn.db) :=
  ⟨_, _, rfl, noStep.answer misread _,
    answer_cases misread false noStep readable (execute_updateStorage dev conn.db)⟩

/-- The conditions on a list of records under which its updates save them. -/
structure Updatable (db : Db) (devs : List RmsStorageInfo) : Prop where
  readable : ∀ dev ∈ devs, dev.dirty = true → Readable (updateStorage dev)
  row : ∀ dev ∈ devs, dev.dirty = true → dev.storageInfoId ≠ -1 →
    dev.storageInfoId ∈ db.storages.ids

theorem Updatable.tail {db : Db} {dev : RmsStorageInfo} {devs : List RmsStorageInfo}
    (h : Updatable db (dev :: devs)) : Updatable db devs :=
  ⟨fun d hd => h.readable d (List.mem_cons_of_mem dev hd),
    fun d hd => h.row d (List.mem_cons_of_mem dev hd)⟩

theorem SharedRowsAgree.tail {dev : RmsStorageInfo} {devs : List RmsStorageInfo}
    (h : SharedRowsAgree (dev :: devs)) : SharedRowsAgree devs := fun a ha b hb =>
  h a (List.mem_cons_of_mem dev ha) b (List.mem_cons_of_mem dev hb)

theorem ids_writeBack (dev : RmsStorageInfo) (db : Db) :
    (writeBack dev db).storages.ids = db.storages.ids := by
  have kept : StorageRow.storageInfoId ∘ storedStorage dev = StorageRow.storageInfoId :=
    funext fun r => (samePlace_storedStorage dev r).storageInfoId
  simp [writeBack, Table.ids, kept]

/-- Whether it is written or not, a record touches neither the computers nor the
ids, and leaves saved what agrees with it. -/
theorem frame_updateStorage {dev : RmsStorageInfo} {db db' : Db}
    (effect : db' = writeBack dev db ∨ db' = db) :
    db'.computers = db.computers ∧ db'.storages.ids = db.storages.ids ∧
      ∀ a, (a.storageInfoId = dev.storageInfoId → content dev = content a) →
        RecordSaved db a → RecordSaved db' a := by
  rcases effect with rfl | rfl
  · exact ⟨rfl, ids_writeBack dev db, fun a agree ha => ha.writeBack agree⟩
  · exact ⟨rfl, rfl, fun a _ ha => ha⟩

/-- A run of updates loses nothing that was saved and agrees with the records
it writes, and every record that is clean afterwards is saved. -/
theorem run_updateStorages_saved {devs : List RmsStorageInfo} (success : Bool) {conn : Connection}
    (noStep : conn.NoStepFault) (updatable : Updatable conn.db devs)
    (shared : SharedRowsAgree devs)
    (saved : ∀ dev ∈ devs, dev.storageInfoId ≠ -1 → dev.dirty = false → RecordSaved conn.db dev) :
    ∃ last devs' conn', (updateStorages success devs).run (answer misread) conn =
        ((last, devs'), conn') ∧
      conn'.db.computers = conn.db.computers ∧
      (∀ a, (∀ dev ∈ devs, a.storageInfoId = dev.storageInfoId → content dev = content a) →
        RecordSaved conn.db a → RecordSaved conn'.db a) ∧
      ∀ dev ∈ devs', dev.storageInfoId ≠ -1 → dev.dirty = false → RecordSaved conn'.db dev := by
  induction devs generalizing success conn with
  | nil => exact ⟨success, [], conn, rfl, rfl, fun a _ h => h, by simp⟩
  | cons dev devs ih =>
    have headAgrees : dev.storageInfoId ≠ -1 → ∀ d ∈ devs, dev.storageInfoId = d.storageInfoId →
        content d = content dev := fun hid d hd he =>
      (shared dev List.mem_cons_self d (List.mem_cons_of_mem dev hd) he hid).symm
    have savedTail := fun d hd => saved d (List.mem_cons_of_mem dev hd)
    by_cases hdirty : dev.dirty = true
    · obtain ⟨res, conn₁, first, noStep₁, effect⟩ :=
        answer_updateStorage misread noStep (updatable.readable dev List.mem_cons_self hdirty)
      obtain ⟨same₁, rows₁, kept₁⟩ := frame_updateStorage (effect.imp And.right And.right)
      obtain ⟨last, devs', conn₂, rest, same₂, kept₂, saved₂⟩ := ih res.success noStep₁
        ⟨updatable.tail.readable, rows₁ ▸ updatable.tail.row⟩ shared.tail
        (fun d hd hid clean => kept₁ d
          (fun he => (headAgrees (he ▸ hid) d hd he.symm).symm) (savedTail d hd hid clean))
      refine ⟨last, { dev with dirty := !res.success } :: devs', conn₂, ?_, same₂.trans same₁,
        ?_, ?_⟩
      · simp [updateStorages, hdirty, first, rest]
      · intro a agree ha
        exact kept₂ a (fun d hd => agree d (List.mem_cons_of_mem dev hd))
          (kept₁ a (agree dev List.mem_cons_self) ha)
      · intro d hd hid clean
        rcases List.mem_cons.mp hd with rfl | hd
        · have success : res.success = true := by simpa using clean
          rcases effect with ⟨-, h⟩ | ⟨h, -⟩
          · have row := updatable.row dev List.mem_cons_self hdirty hid
            exact kept₂ dev (headAgrees hid) (h ▸ recordSaved_writeBack row)
          · rw [success] at h
            cases h
        · exact saved₂ d hd hid clean
    · obtain ⟨last, devs', conn₂, rest, same₂, kept₂, saved₂⟩ := ih success noStep
        updatable.tail shared.tail savedTail
      refine ⟨last, dev :: devs', conn₂, ?_, same₂, ?_, ?_⟩
      · simp [updateStorages, hdirty, rest]
      · exact fun a agree => kept₂ a (fun d hd => agree d (List.mem_cons_of_mem dev hd))
      · intro d hd hid clean
        rcases List.mem_cons.mp hd with rfl | hd
        · exact kept₂ d (headAgrees hid) (saved d List.mem_cons_self hid clean)
        · exact saved₂ d hd hid clean

/-- The update of the computer row: not needed, done, or failed. -/
theorem run_updateSysInfo_saved {c : RmsComputer} {conn : Connection}
    (noStep : conn.NoStepFault)
    (updatable : c.sysInfoDirty = true →
      Readable (.updateComputer c.updateArgs c.computerId) ∧ c.computerId ∈ conn.db.computers.ids)
    (saved : c.sysInfoDirty = false → ComputerSaved conn.db c) :
    ∃ success dirty conn', c.updateSysInfo.run (answer misread) conn = ((success, dirty), conn') ∧
      conn'.NoStepFault ∧ conn'.db.storages = conn.db.storages ∧
      (dirty = false → ComputerSaved conn'.db c) := by
  by_cases hdirty : c.sysInfoDirty = true
  · obtain ⟨readable, row⟩ := updatable hdirty
    have result : ∃ res conn', answer misread (.updateComputer c.updateArgs c.computerId, false)
        conn = (res, conn') := ⟨_, _, rfl⟩
    obtain ⟨res, conn', first⟩ := result
    have noStep' := noStep.answer misread (.updateComputer c.updateArgs c.computerId, false)
    have effect := answer_cases misread false noStep readable rfl
    rw [first] at noStep' effect
    refine ⟨res.success, !res.success, conn', by simp [RmsComputer.updateSysInfo, hdirty, first],
      noStep', ?_, ?_⟩
    · rcases effect with ⟨-, h⟩ | ⟨-, h⟩ <;> rw [h]
      rfl
    · intro clean
      have success : res.success = true := by simpa using clean
      rcases effect with ⟨-, h⟩ | ⟨h, -⟩
      · obtain ⟨r, hr, hid⟩ := List.mem_map.mp row
        rw [ComputerSaved, h]
        exact List.mem_map.mpr ⟨r, hr, if_pos hid⟩
      · rw [success] at h
        cases h
  · refine ⟨true, false, conn, by simp [RmsComputer.updateSysInfo, hdirty], noStep, rfl, ?_⟩
    intro _
    exact saved (by simpa using hdirty)

/-- No statement fails unnoticed or is misread, every row that is written
exists, and no two records fight over one. -/
structure UpdateKept (s : State) (faults : List (Option Fault)) : Prop where
  noStep : Connection.NoStepFault ⟨s.db, 0, faults⟩
  computer : s.computer.computerId ≠ -1 → s.computer.sysInfoDirty = true →
    Readable (.updateComputer s.computer.updateArgs s.computer.computerId) ∧
      s.computer.computerId ∈ s.db.computers.ids
  storage : s.computer.computerId ≠ -1 → Updatable s.db s.computer.storageInfo
  shared : s.computer.computerId ≠ -1 → SharedRowsAgree s.computer.storageInfo

/-- `updateDB` inserts nothing, so the connection's rowid plays no part. -/
def updated (s : State) (faults : List (Option Fault)) : State :=
  let ((_, c), conn) := s.computer.updateDB.run (answer misread) ⟨s.db, 0, faults⟩
  ⟨c, conn.db⟩

theorem agrees_updated {s : State} (hs : Agrees s) {faults : List (Option Fault)}
    (kept : UpdateKept s faults) : Agrees (updated misread s faults) := by
  by_cases valid : s.computer.computerId = -1
  · have same : updated misread s faults = s := by
      simp [updated, RmsComputer.updateDB, valid]
    rw [same]
    exact hs
  · obtain ⟨success, dirty, conn₁, first, noStep₁, same₁, saved₁⟩ :=
      run_updateSysInfo_saved misread kept.noStep (kept.computer valid) hs.computer
    have rows : RecordSaved conn₁.db = RecordSaved s.db := by
      funext dev
      simp only [RecordSaved, same₁]
    have updatable : Updatable conn₁.db s.computer.storageInfo :=
      ⟨(kept.storage valid).readable, by rw [same₁]; exact (kept.storage valid).row⟩
    obtain ⟨last, devs, conn₂, second, same₂, -, saved₂⟩ :=
      run_updateStorages_saved misread success noStep₁ updatable (kept.shared valid)
        (by rw [rows]; exact hs.storage)
    have result : updated misread s faults =
        ⟨{ s.computer with sysInfoDirty := dirty, storageInfo := devs }, conn₂.db⟩ := by
      simp [updated, RmsComputer.updateDB, valid, first, second]
    rw [result]
    refine ⟨fun clean => ?_, saved₂⟩
    rw [ComputerSaved, same₂]
    exact saved₁ clean

end Updates

section Runs

variable (misread : List Char → Db → Option Outcome)

def step (s : State) : Event → Option State
  | .setSysInfo report => some ⟨s.computer.setSysInfo report, s.db⟩
  | .updateDB faults => some (updated misread s faults)

def Kept (s : State) : Event → Prop
  | .setSysInfo report => ReportKept s report
  | .updateDB faults => UpdateKept s faults

theorem step_agrees (s : State) (e : Event) (t : State) (hs : Agrees s) (kept : Kept s e)
    (h : step misread s e = some t) : Agrees t := by
  cases e with
  | setSysInfo report =>
    obtain rfl := Option.some.inj h
    exact agrees_setSysInfo hs kept
  | updateDB faults =>
    obtain rfl := Option.some.inj h
    exact agrees_updated misread hs kept

/-- Reports and updates in any order, with any failures, keep the agreement. -/
theorem kept_run_agrees {s t : State} {es : List Event} (hs : Agrees s)
    (kept : Guarded (step misread) Kept s es) (arrives : run (step misread) s es = some t) :
    Agrees t :=
  run_invariant (step_agrees misread) hs kept arrives

end Runs

/-- A computer without storage whose row has every value it starts with. -/
def savedPc : State where
  computer := RmsComputer.create 1
  db := { emptyDb with
    computers := ⟨[computerRow (RmsComputer.create 1).updateArgs 1], by simp,
      by simp [computerRow]⟩ }

theorem agrees_savedPc : Agrees savedPc where
  computer _ := List.mem_singleton.mpr rfl
  storage := by simp [savedPc, RmsComputer.create]

def renamed : SystemInfo := { hostName := "pc" }

/-- A changed report that is written at once. -/
theorem kept_run_agrees_renamed :
    Agrees (updated (fun _ _ => none) ⟨savedPc.computer.setSysInfo renamed, savedPc.db⟩ []) := by
  have kept : Guarded (step (fun _ _ => none)) Kept savedPc
      [.setSysInfo renamed, .updateDB []] := by
    refine ⟨⟨Or.inl (by decide), by simp [savedPc, RmsComputer.create, KeyedList.lookup]⟩, ?_⟩
    intro t ht
    obtain rfl := Option.some.inj ht
    have none : (savedPc.computer.setSysInfo renamed).storageInfo = [] := rfl
    refine ⟨⟨by simp [Connection.NoStepFault], fun _ _ => ?_, fun _ => ?_, fun _ => ?_⟩,
      fun _ _ => trivial⟩
    · exact ⟨readable_of_plain (by decide) trivial, by decide⟩
    · exact ⟨by simp [none], by simp [none]⟩
    · simp [SharedRowsAgree, none]
  exact kept_run_agrees (fun _ _ => none) agrees_savedPc kept rfl

/-- The report is repeated after its update failed. -/
def repeated : List Event :=
  [.setSysInfo renamed, .updateDB [some (.prepare .busy (by decide))], .setSysInfo renamed]

/-- The repeated report clears the flag of an update that never happened. -/
theorem repeated_not_agrees :
    Agrees savedPc ∧ ∃ s, run (step (fun _ _ => none)) savedPc repeated = some s ∧ ¬ Agrees s := by
  refine ⟨agrees_savedPc, _, rfl, fun agrees => ?_⟩
  have saved : ComputerSaved _ _ := agrees.computer (by decide)
  have hostName : "pc" = "" := congrArg ComputerRow.hostName (List.mem_singleton.mp saved)
  exact absurd hostName (by decide)

end DirtyFlags
