import RemoteManagement.Handshake

/-!
# Statements without quotes

A statement whose strings hold no quote is not always read as it was meant: a
NUL cuts the text inside a literal, and an unsigned size may be too large for
an integer. What a database does with these two kinds of text is documented,
and neither does harm. So there are three things that can become of such a
statement, whatever its strings, its sizes and the fault that it meets.
-/

namespace QuotelessStatements

open ThriftTypes SqlStatements ExecuteQuery RowTable Database QueryProgram Program
open Computer Handshake

/-- The statement with other sizes, if it carries any. -/
def resized (free total : Nat) : Query → Query
  | .insertStorage computerId devPath fsType mountPoint _ _ =>
    .insertStorage computerId devPath fsType mountPoint free total
  | .updateStorage _ _ connected mountPoint fsType id =>
    .updateStorage free total connected mountPoint fsType id
  | q => q

def Quoteless (q : Query) : Prop := ∀ s ∈ q.strings, SqlLiteral.quote ∉ s.toList

/-- What the database makes of the text of a statement without quotes that it does
not take as it was meant: it does not prepare a literal without an end, and takes
an integer of more than 64 bits for another number. -/
structure Documented (misread : List Char → Db → Option Outcome) : Prop where
  unterminated : ∀ q db, Quoteless q → SqlLiteral.read q.text = none → misread q.text db = none
  oversized : ∀ q db o, SqlLiteral.read q.text = some q.tokens → ¬ Fits q →
    misread q.text db = some o → ∃ free total, execute (resized free total q) db = some o

/-- A database that prepares nothing else. -/
theorem documented_none : Documented (fun _ _ => none) where
  unterminated := fun _ _ _ _ => rfl
  oversized := by
    intro q db o read large h
    cases h

section Statements

theorem read_quoteless {q : Query} (h : Quoteless q) :
    SqlLiteral.read q.text = some q.tokens ∨ SqlLiteral.read q.text = none :=
  SqlLiteral.read_cString_render_of_quote_free q.tidy.1 q.tidy.2
    ((q.forall_literals_iff (fun t => (plain_version t).1) fun d => (plain_date d).1).mpr h)

theorem exists_resized (q : Query) : ∃ free total, resized free total q = q := by
  cases q with
  | insertStorage _ _ _ _ free total => exact ⟨free, total, rfl⟩
  | updateStorage free total _ _ _ _ => exact ⟨free, total, rfl⟩
  | _ => exact ⟨0, 0, rfl⟩

variable {misread : List Char → Db → Option Outcome}

/-- If it comes to anything, it comes to what was meant, up to the sizes. -/
theorem outcome_quoteless (documented : Documented misread) {q : Query} (quoteless : Quoteless q)
    {db : Db} {o : Outcome} (h : outcome misread q db = some o) :
    ∃ free total, execute (resized free total q) db = some o := by
  rw [outcome] at h
  split at h
  · obtain ⟨free, total, same⟩ := exists_resized q
    exact ⟨free, total, by rw [same, h]⟩
  · rename_i unreadable
    rcases read_quoteless quoteless with read | unread
    · exact documented.oversized q db o read (fun fits => unreadable ⟨read, fits⟩) h
    · rw [documented.unterminated q db quoteless unread] at h
      cases h

/-- After how many rows the next statement is stopped, if it is. -/
def stopsAfter (conn : Connection) : Option Nat :=
  match conn.faults.head?.join with
  | some (.step n _ _) => some n
  | _ => none

/-- What a statement can come to: it fails, or it is stopped on its way and is
reported as a success, or it is done. -/
inductive Answered (q : Query) (asked : Bool) (conn : Connection) : RmsQueryResult → Db → Prop where
  | failed : Answered q asked conn { success := false } conn.db
  | stopped (n : Nat) (stops : stopsAfter conn = some n) (free total : Nat) (o : Outcome)
    (ho : execute (resized free total q) conn.db = some o) :
    Answered q asked conn
      { success := true
        lastId := if asked then some (toInt32 conn.lastRowid) else none
        columnNames := o.columnNames
        tableRows := (o.rows.take n).map (List.map columnText) } conn.db
  | done (free total : Nat) (o : Outcome)
    (ho : execute (resized free total q) conn.db = some o) :
    Answered q asked conn
      { success := true
        lastId := if asked then some (toInt32 (o.inserted.getLastD conn.lastRowid)) else none
        columnNames := o.columnNames
        tableRows := o.rows.map (List.map columnText) } o.db

theorem answer_quoteless (documented : Documented misread) {q : Query} (quoteless : Quoteless q)
    (asked : Bool) (conn : Connection) :
    Answered q asked conn (answer misread (q, asked) conn).1
      (answer misread (q, asked) conn).2.db := by
  have unprepared : ResultCode.error ≠ .ok := by decide
  cases hf : conn.faults.head?.join with
  | none =>
    cases ho : outcome misread q conn.db with
    | none =>
      simp only [answer, statement, hf, ho, executeQuery_notPrepared unprepared]
      exact .failed
    | some o =>
      obtain ⟨free, total, meant⟩ := outcome_quoteless documented quoteless ho
      simp only [answer, statement, hf, ho]
      rw [executeQuery_of_prepared rfl, rows_rowsSteps]
      exact .done free total o meant
  | some fault =>
    cases fault with
    | prepare code bad =>
      rw [answer_of_prepare_fault misread q asked hf]
      exact .failed
    | step n code bad =>
      cases ho : outcome misread q conn.db with
      | none =>
        simp only [answer, statement, hf, ho, executeQuery_notPrepared unprepared]
        exact .failed
      | some o =>
        obtain ⟨free, total, meant⟩ := outcome_quoteless documented quoteless ho
        simp only [answer, statement, hf, ho]
        rw [executeQuery_of_prepared rfl, rows_rowsSteps]
        exact .stopped n (by rw [stopsAfter, hf]) free total o meant

/-- A statement that fits and succeeds has done what was meant, if it was not
stopped on its way. -/
theorem answer_of_success (documented : Documented misread) {q : Query} (quoteless : Quoteless q)
    (fits : Fits q) {asked : Bool} {conn : Connection} (unstopped : stopsAfter conn = none)
    {o : Outcome} (ho : execute q conn.db = some o)
    (success : (answer misread (q, asked) conn).1.success = true) :
    answer misread (q, asked) conn =
      ({ success := true
         lastId := if asked then some (toInt32 (o.inserted.getLastD conn.lastRowid)) else none
         columnNames := o.columnNames
         tableRows := o.rows.map (List.map columnText) },
        ⟨o.db, o.inserted.getLastD conn.lastRowid, conn.faults.tail⟩) := by
  have unprepared : ResultCode.error ≠ .ok := by decide
  cases hf : conn.faults.head?.join with
  | some fault =>
    cases fault with
    | prepare code bad =>
      simp [answer_of_prepare_fault misread q asked hf] at success
    | step n code bad => simp [stopsAfter, hf] at unstopped
  | none =>
    rcases read_quoteless quoteless with read | unread
    · exact answer_of_no_fault misread asked hf ⟨read, fits⟩ ho
    · have none : outcome misread q conn.db = none := by
        have unreadable : ¬ Readable q := fun h => by simp [h.1] at unread
        rw [outcome, if_neg unreadable, documented.unterminated q _ quoteless unread]
      simp [answer, statement, hf, none, executeQuery_notPrepared unprepared] at success

/-- Only the insert of a computer adds to the computer table. -/
theorem computerIds_answered {q : Query} {asked : Bool} {conn : Connection} {res : RmsQueryResult}
    {db : Db} (h : Answered q asked conn res db) (other : ∀ a, q ≠ .insertComputer a) :
    db.computers.ids = conn.db.computers.ids := by
  cases h with
  | failed | stopped => rfl
  | done free total o ho =>
    cases q with
    | insertComputer a => exact absurd rfl (other a)
    | updateComputer a id =>
      obtain rfl := Option.some.inj ho
      simp [Outcome.write]
    | updateUsage tick value date dataType dataId =>
      simp only [resized, execute] at ho
      split at ho
      · exact Option.some.inj ho ▸ rfl
      · cases ho
    | _ => exact Option.some.inj ho ▸ rfl

/-- An insert that is not stopped on its way tells the id of its row. -/
theorem answered_insertComputer {a : ComputerArgs} {conn : Connection} {res : RmsQueryResult}
    {db : Db} (h : Answered (.insertComputer a) true conn res db)
    (unstopped : stopsAfter conn = none) :
    (res.success = false ∧ db = conn.db) ∨
      (res.success = true ∧ res.lastId = some (toInt32 (newRowid conn.db.computers.ids)) ∧
        db.computers.ids = conn.db.computers.ids ++ [newRowid conn.db.computers.ids] ∧
        db.storages = conn.db.storages) := by
  cases h with
  | failed => exact Or.inl ⟨rfl, rfl⟩
  | stopped n stops => rw [unstopped] at stops; cases stops
  | done free total o ho =>
    obtain rfl := Option.some.inj ho
    exact Or.inr ⟨rfl, rfl, by simp [Outcome.write, computerRow], rfl⟩

/-- An insert that succeeds and is not stopped adds the row of its values. -/
theorem rows_insertComputer {a : ComputerArgs} {asked : Bool} {conn : Connection}
    {res : RmsQueryResult} {db : Db} (h : Answered (.insertComputer a) asked conn res db)
    (unstopped : stopsAfter conn = none) (success : res.success = true) :
    db.computers.rows = conn.db.computers.rows ++
      [computerRow a (newRowid conn.db.computers.ids)] := by
  cases h with
  | failed => cases success
  | stopped n stops => rw [unstopped] at stops; cases stops
  | done free total o ho => exact Option.some.inj ho ▸ rfl

theorem rows_updateComputer {a : ComputerArgs} {id : Int} {asked : Bool} {conn : Connection}
    {res : RmsQueryResult} {db : Db} (h : Answered (.updateComputer a id) asked conn res db)
    (unstopped : stopsAfter conn = none) (success : res.success = true) :
    db.computers.rows = conn.db.computers.rows.map
      (fun r => if r.computerId = id then computerRow a id else r) := by
  cases h with
  | failed => cases success
  | stopped n stops => rw [unstopped] at stops; cases stops
  | done free total o ho => exact Option.some.inj ho ▸ rfl

theorem answered_insertExecutor {computerId startTime : Int} {name : String} {conn : Connection}
    {res : RmsQueryResult} {db : Db}
    (h : Answered (.insertExecutor computerId startTime name) true conn res db)
    (unstopped : stopsAfter conn = none) :
    (res.success = false ∧ db = conn.db) ∨
      (res.success = true ∧ res.lastId = some (toInt32 (newRowid conn.db.executors.ids)) ∧
        db.executors.rows = conn.db.executors.rows ++
          [⟨newRowid conn.db.executors.ids, computerId, none, none, startTime, none, name⟩]) := by
  cases h with
  | failed => exact Or.inl ⟨rfl, rfl⟩
  | stopped n stops => rw [unstopped] at stops; cases stops
  | done free total o ho =>
    obtain rfl := Option.some.inj ho
    exact Or.inr ⟨rfl, rfl, rfl⟩

/-- A computer with a row is found, unless the fetch fails or stops before it. -/
theorem answered_fetchComputer {id : Int} {conn : Connection} {res : RmsQueryResult} {db : Db}
    (h : Answered (.fetchComputerById id) false conn res db) (known : id ∈ conn.db.computers.ids)
    (unstopped : stopsAfter conn ≠ some 0) :
    db = conn.db ∧ (res.success = false ∨ res.success = true ∧ ∃ row, res.tableRows = [row]) := by
  obtain ⟨r, one⟩ := computerRow_of_known known
  cases h with
  | failed => exact ⟨rfl, Or.inl rfl⟩
  | stopped n stops free total o ho =>
    obtain rfl := Option.some.inj ho
    obtain ⟨n, rfl⟩ := Nat.exists_eq_succ_of_ne_zero (fun zero => unstopped (zero ▸ stops))
    exact ⟨rfl, Or.inr ⟨rfl, _, by simp [Outcome.select, one]; rfl⟩⟩
  | done free total o ho =>
    obtain rfl := Option.some.inj ho
    exact ⟨rfl, Or.inr ⟨rfl, _, by simp [Outcome.select, one]; rfl⟩⟩

def WritesStorages : Query → Prop
  | .insertStorage _ _ _ _ _ _ | .updateStorage _ _ _ _ _ _ => True
  | _ => False

theorem storages_answered {q : Query} {asked : Bool} {conn : Connection} {res : RmsQueryResult}
    {db : Db} (h : Answered q asked conn res db) (other : ¬ WritesStorages q) :
    db.storages = conn.db.storages := by
  cases h with
  | failed | stopped => rfl
  | done free total o ho =>
    cases q with
    | insertStorage | updateStorage => exact absurd trivial other
    | updateUsage tick value date dataType dataId =>
      simp only [resized, execute] at ho
      split at ho
      · exact Option.some.inj ho ▸ rfl
      · cases ho
    | _ => exact Option.some.inj ho ▸ rfl

theorem writesStorages_ne_insertComputer {q : Query} (h : WritesStorages q) (a : ComputerArgs) :
    q ≠ .insertComputer a := by
  rintro rfl
  exact h

/-- Statements about storages leave the computers alone. -/
theorem computers_answered {q : Query} {asked : Bool} {conn : Connection} {res : RmsQueryResult}
    {db : Db} (h : Answered q asked conn res db) (writes : WritesStorages q) :
    db.computers = conn.db.computers := by
  cases h with
  | failed | stopped => rfl
  | done free total o ho =>
    cases q with
    | insertStorage | updateStorage => exact Option.some.inj ho ▸ rfl
    | _ => exact absurd writes id

/-- A row is as before, or the statement is the update of this row. -/
theorem storageRow_answered {q : Query} {asked : Bool} {conn : Connection} {res : RmsQueryResult}
    {db : Db} (h : Answered q asked conn res db) {r : StorageRow}
    (hr : r ∈ conn.db.storages.rows) :
    r ∈ db.storages.rows ∨ ∃ free total connected mountPoint fsType,
      q = .updateStorage free total connected mountPoint fsType r.storageInfoId := by
  by_cases writes : WritesStorages q
  · cases h with
    | failed | stopped => exact Or.inl hr
    | done free total o ho =>
      cases q with
      | insertStorage =>
        obtain rfl := Option.some.inj ho
        exact Or.inl (List.mem_append_left _ hr)
      | updateStorage free' total' connected mountPoint fsType id =>
        obtain rfl := Option.some.inj ho
        by_cases own : r.storageInfoId = id
        · exact Or.inr ⟨free', total', connected, mountPoint, fsType, by rw [own]⟩
        · exact Or.inl (List.mem_map.mpr ⟨r, hr, if_neg own⟩)
      | _ => exact absurd writes id
  · rw [storages_answered h writes]
    exact Or.inl hr

theorem computerRow_answered {q : Query} {asked : Bool} {conn : Connection} {res : RmsQueryResult}
    {db : Db} (h : Answered q asked conn res db) {r : ComputerRow}
    (hr : r ∈ conn.db.computers.rows) :
    r ∈ db.computers.rows ∨ ∃ a, q = .updateComputer a r.computerId := by
  cases h with
  | failed | stopped => exact Or.inl hr
  | done free total o ho =>
    cases q with
    | insertComputer a =>
      obtain rfl := Option.some.inj ho
      exact Or.inl (List.mem_append_left _ hr)
    | updateComputer a id =>
      obtain rfl := Option.some.inj ho
      by_cases own : r.computerId = id
      · exact Or.inr ⟨a, by rw [own]⟩
      · exact Or.inl (List.mem_map.mpr ⟨r, hr, if_neg own⟩)
    | updateUsage tick value date dataType dataId =>
      simp only [resized, execute] at ho
      split at ho
      · exact Or.inl (Option.some.inj ho ▸ hr)
      · cases ho
    | _ => exact Or.inl (Option.some.inj ho ▸ hr)

theorem answered_insertStorage {computerId : Int} {dev : RmsStorageInfo} {conn : Connection}
    {res : RmsQueryResult} {db : Db} (h : Answered (insertStorage computerId dev) true conn res db)
    (unstopped : stopsAfter conn = none) :
    (res.success = false ∧ db = conn.db) ∨
      (res.success = true ∧ res.lastId = some (toInt32 (newRowid conn.db.storages.ids)) ∧
        db.computers = conn.db.computers ∧
        ∃ r, db.storages.rows = conn.db.storages.rows ++ [r] ∧
          r.storageInfoId = newRowid conn.db.storages.ids ∧ r.computerId = computerId ∧
          r.devPath = dev.devPath) := by
  cases h with
  | failed => exact Or.inl ⟨rfl, rfl⟩
  | stopped n stops => rw [unstopped] at stops; cases stops
  | done free total o ho =>
    obtain rfl := Option.some.inj ho
    exact Or.inr ⟨rfl, rfl, rfl, _, rfl, rfl, rfl, rfl⟩

/-- The update of a record is of the row with its id, and moves no row. -/
theorem answered_updateStorage {dev : RmsStorageInfo} {asked : Bool} {conn : Connection}
    {res : RmsQueryResult} {db : Db} (h : Answered (updateStorage dev) asked conn res db) :
    db.computers = conn.db.computers ∧ ∃ f, db.storages.rows = conn.db.storages.rows.map f ∧
      ∀ r, SamePlace (f r) r ∧ (r.storageInfoId ≠ dev.storageInfoId → f r = r) := by
  cases h with
  | failed | stopped => exact ⟨rfl, id, (List.map_id _).symm, fun r => ⟨⟨rfl, rfl, rfl⟩, fun _ => rfl⟩⟩
  | done free total o ho =>
    obtain rfl := Option.some.inj ho
    refine ⟨rfl, storedStorage { dev with free := free, total := total }, rfl, fun r => ?_⟩
    exact ⟨samePlace_storedStorage _ r, fun other => if_neg other⟩

theorem answered_fetchStorage {id : Int} {conn : Connection} {res : RmsQueryResult} {db : Db}
    (h : Answered (.fetchStorageByComputerId id) false conn res db) :
    db = conn.db ∧ (res.success = true → res.columnNames = storageColumns ∧
      ∃ k, res.tableRows =
        (((storagesOf conn.db id).take k).map storageCells).map (List.map columnText)) := by
  cases h with
  | failed => exact ⟨rfl, nofun⟩
  | stopped n stops free total o ho =>
    obtain rfl := Option.some.inj ho
    exact ⟨rfl, fun _ => ⟨rfl, n, by simp [Outcome.select, storagesOf, List.map_take]⟩⟩
  | done free total o ho =>
    obtain rfl := Option.some.inj ho
    refine ⟨rfl, fun _ => ⟨rfl, (storagesOf conn.db id).length, ?_⟩⟩
    simp [Outcome.select, storagesOf]

/-- The records that a fetch loads are those of some first rows. -/
theorem loaded_of_fetchStorage {id : Int} {conn : Connection} {res : RmsQueryResult} {db : Db}
    (h : Answered (.fetchStorageByComputerId id) false conn res db) (success : res.success = true) :
    ∃ k, (loadStorages res.columnNames res.tableRows).2 =
      ((storagesOf conn.db id).take k).map loadedStorage := by
  obtain ⟨-, result⟩ := answered_fetchStorage h
  obtain ⟨names, k, rows⟩ := result success
  obtain ⟨j, loaded⟩ := loadStorages_prefix ((storagesOf conn.db id).take k)
  exact ⟨min j k, by rw [names, rows, loaded, List.take_take]⟩

end Statements

section Reports

/-- The strings of a report that reach the database. -/
def reportStrings (info : SystemInfo) : List String :=
  [info.systemName, info.hostName, info.cpuInfo.cpuName, info.cpuInfo.cpuVendorName] ++
    info.storageInfo.flatMap (fun e => [e.dev, e.fsType, e.mountPoint])

def QuotelessReport (info : SystemInfo) : Prop :=
  ∀ s ∈ reportStrings info, SqlLiteral.quote ∉ s.toList

instance (info : SystemInfo) : Decidable (QuotelessReport info) :=
  inferInstanceAs (Decidable (∀ s ∈ reportStrings info, _))

def QuotelessRecord (dev : RmsStorageInfo) : Prop :=
  ∀ s ∈ [dev.devPath, dev.fsType, dev.mountPoint], SqlLiteral.quote ∉ s.toList

theorem quoteless_fetchComputer (id : Int) : Quoteless (.fetchComputerById id) :=
  fun _ hs => absurd hs List.not_mem_nil

theorem quoteless_fetchStorage (id : Int) : Quoteless (.fetchStorageByComputerId id) :=
  fun _ hs => absurd hs List.not_mem_nil

theorem quoteless_insertStorage {dev : RmsStorageInfo} (h : QuotelessRecord dev)
    (computerId : Int) : Quoteless (insertStorage computerId dev) := h

theorem quoteless_updateStorage {dev : RmsStorageInfo} (h : QuotelessRecord dev) :
    Quoteless (updateStorage dev) := by
  simp only [QuotelessRecord, List.forall_mem_cons] at h
  simp [Quoteless, updateStorage, Query.strings, h]

theorem quoteless_insertComputer {info : SystemInfo} (h : QuotelessReport info) {c : RmsComputer}
    (hc : c.sysInfo = { info with networkInfo := [], storageInfo := [] }) :
    Quoteless (.insertComputer c.insertArgs) := by
  simp only [QuotelessReport, reportStrings, List.forall_mem_append, List.forall_mem_cons] at h
  simp [Quoteless, Query.strings, RmsComputer.insertArgs, hc, h, (plain_arch _).1]

theorem quoteless_updateComputer {c : RmsComputer}
    (h : Quoteless (.insertComputer c.insertArgs)) (id : Int) :
    Quoteless (.updateComputer c.updateArgs id) := h

theorem quotelessRecord_write {info : SystemInfo} (h : QuotelessReport info) {e : StorageInfo}
    (he : e ∈ info.storageInfo) (o : Option RmsStorageInfo) :
    QuotelessRecord (writeStorage o e) := by
  simp only [QuotelessReport, reportStrings, List.forall_mem_append, List.forall_mem_flatMap] at h
  cases o <;> exact h.2 e he

/-- Every record of a computer that started empty comes from the report. -/
theorem quotelessRecord_of_report {info : SystemInfo} (h : QuotelessReport info) :
    ∀ dev ∈ storagesAfter [] info.storageInfo, QuotelessRecord dev :=
  KeyedList.forall_mem_upsertAll (fun _ he => quotelessRecord_write h he none)
    (fun a _ he _ _ => quotelessRecord_write h he (some a)) (by simp)

/-- Records that a report does not write to are as dirty as they were. -/
theorem quotelessRecord_of_dirty {info : SystemInfo} (h : QuotelessReport info)
    {l : List RmsStorageInfo} (hl : ∀ dev ∈ l, dev.dirty = true → QuotelessRecord dev) :
    ∀ dev ∈ storagesAfter l info.storageInfo, dev.dirty = true → QuotelessRecord dev :=
  KeyedList.forall_mem_upsertAll (fun _ he _ => quotelessRecord_write h he none)
    (fun a _ he _ _ _ => quotelessRecord_write h he (some a)) hl

end Reports

section Programs

variable {misread : List Char → Db → Option Outcome}

/-- A statement without quotes that writes storage rows. -/
def OnStorages (ask : Query × Bool) : Prop := Quoteless ask.1 ∧ WritesStorages ask.1

theorem addStorages_onStorages (computerId : Int) {devs : List RmsStorageInfo}
    (quoteless : ∀ dev ∈ devs, QuotelessRecord dev) :
    (addStorages computerId devs).Only OnStorages := by
  induction devs with
  | nil => exact trivial
  | cons dev devs ih =>
    simp only [List.forall_mem_cons] at quoteless
    exact only_bind (only_ask ⟨quoteless_insertStorage quoteless.1 computerId, trivial⟩) fun _ =>
      only_bind (ih quoteless.2) fun _ => trivial

theorem updateStorages_onStorages (success : Bool) {devs : List RmsStorageInfo}
    (quoteless : ∀ dev ∈ devs, dev.dirty = true → QuotelessRecord dev) :
    (updateStorages success devs).Only OnStorages := by
  induction devs generalizing success with
  | nil => exact trivial
  | cons dev devs ih =>
    simp only [List.forall_mem_cons] at quoteless
    rw [updateStorages]
    split
    · rename_i dirty
      exact only_bind (only_ask ⟨quoteless_updateStorage (quoteless.1 dirty), trivial⟩) fun res =>
        only_bind (ih res.success quoteless.2) fun _ => trivial
    · exact only_bind (ih success quoteless.2) fun _ => trivial

theorem computers_of_onStorages (documented : Documented misread) {α : Type} {p : DbProgram α}
    (only : p.Only OnStorages) (conn : Connection) :
    (p.run (answer misread) conn).2.db.computers = conn.db.computers :=
  run_only (answer misread) (fun s t => t.db.computers = s.db.computers)
    (fun _ => rfl) (fun _ _ _ first second => second.trans first)
    (fun q s h => computers_answered (answer_quoteless documented h.1 q.2 s) h.2) only conn

end Programs

end QuotelessStatements
