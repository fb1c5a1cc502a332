import RemoteManagement.Handshake
import RemoteManagement.QuotelessStatements
import RemoteManagement.RmsConfig
import RemoteManagement.Library.GuardedRun

/-!
# The ids of the reporters

A reporter keeps its id in its configuration and takes what a handshake
returns. Only the server's first query of a handshake can add a computer: the
insert for a reporter without an id, and the insert that follows a fetch without
a row. While neither is stopped on its way, each reporter comes to one row and
stays with it.
-/

namespace Identity

open ThriftTypes SqlStatements ExecuteQuery RowTable Database DecimalText QueryProgram Program
open GuardedRun Computer Handshake QuotelessStatements RmsConfig

section Handshakes

variable {misread : List Char → Db → Option Outcome}

/-- A statement without quotes that does not add a computer. -/
def KeepsComputers (ask : Query × Bool) : Prop :=
  Quoteless ask.1 ∧ ∀ a, ask.1 ≠ .insertComputer a

theorem keepsComputers_of_onStorages (ask : Query × Bool) (h : OnStorages ask) :
    KeepsComputers ask := ⟨h.1, writesStorages_ne_insertComputer h.2⟩

theorem updateDB_only {c : RmsComputer} (sysInfo : Quoteless (.insertComputer c.insertArgs))
    (quoteless : ∀ dev ∈ c.storageInfo, dev.dirty = true → QuotelessRecord dev) :
    c.updateDB.Only KeepsComputers := by
  rw [RmsComputer.updateDB]
  split
  · exact trivial
  · refine only_bind ?_ fun r => only_bind (only_mono keepsComputers_of_onStorages
      (updateStorages_onStorages r.1 quoteless)) fun _ => trivial
    rw [RmsComputer.updateSysInfo]
    split
    · refine only_bind (only_ask ⟨quoteless_updateComputer sysInfo c.computerId, ?_⟩) fun _ =>
        trivial
      exact fun _ => Query.noConfusion
    · exact trivial

theorem ids_of_only (documented : Documented misread) {α : Type} {p : DbProgram α}
    (only : p.Only KeepsComputers) (conn : Connection) :
    (p.run (answer misread) conn).2.db.computers.ids = conn.db.computers.ids :=
  run_only (answer misread) (fun s t => t.db.computers.ids = s.db.computers.ids)
    (fun _ => rfl) (fun _ _ _ first second => second.trans first)
    (fun q s h => computerIds_answered (answer_quoteless documented h.1 q.2 s) h.2) only conn

/-- Adding a computer fails or gives it the id of its row. -/
theorem addToDB_ids (documented : Documented misread) {c : RmsComputer} {conn : Connection}
    (sysInfo : Quoteless (.insertComputer c.insertArgs))
    (quoteless : ∀ dev ∈ c.storageInfo, QuotelessRecord dev)
    (unstopped : stopsAfter conn = none) (fits : InInt (newRowid conn.db.computers.ids)) :
    let r := c.addToDB.run (answer misread) conn
    (r.1.2.computerId = c.computerId ∧ r.2.db.computers.ids = conn.db.computers.ids) ∨
      (r.1.2.computerId = newRowid conn.db.computers.ids ∧
        r.2.db.computers.ids = conn.db.computers.ids ++ [newRowid conn.db.computers.ids]) := by
  have first := answered_insertComputer (answer_quoteless documented sysInfo true conn) unstopped
  simp only [RmsComputer.addToDB, bind_eq, pure_eq, run_bind, run_ask]
  rcases first with ⟨failed, same⟩ | ⟨success, lastId, ids, -⟩
  · exact Or.inl (by simp [failed, same])
  · refine Or.inr ?_
    have later := ids_of_only documented (only_mono keepsComputers_of_onStorages
      (addStorages_onStorages (newRowid conn.db.computers.ids) quoteless))
    simp [success, lastId, toInt32_of_inInt fits, later, ids]

theorem ids_handshake_new (documented : Documented misread) (junk : VersionData)
    {info : SystemInfo} (quoteless : QuotelessReport info) {conn : Connection}
    (unstopped : stopsAfter conn = none) (fits : InInt (newRowid conn.db.computers.ids)) :
    let r := runHandshake misread junk (-1) info conn
    (r.1.1 = .ok (-1) ∧ r.2.db.computers.ids = conn.db.computers.ids) ∨
      (r.1.1 = .ok (newRowid conn.db.computers.ids) ∧
        r.2.db.computers.ids = conn.db.computers.ids ++ [newRowid conn.db.computers.ids]) := by
  have added := addToDB_ids documented (c := (RmsComputer.create (-1)).setSysInfo info)
    (quoteless_insertComputer quoteless (setSysInfo_sysInfo _ info))
    (by rw [setSysInfo_storageInfo]; exact quotelessRecord_of_report quoteless) unstopped fits
  have cut : toInt32 (-1) = -1 := rfl
  simp only [runHandshake, handshake, ne_eq, not_true_eq_false, if_false, bind_eq, pure_eq,
    run_bind, run_ret, cut, Except.ok.injEq]
  simpa only [setSysInfo_computerId, RmsComputer.create] using added

theorem run_getStorageFromDB (documented : Documented misread) {c : RmsComputer}
    (noRecords : c.storageInfo = []) (conn : Connection) :
    ∃ done devs conn', c.getStorageFromDB.run (answer misread) conn =
        ((done, { c with storageInfo := devs }), conn') ∧
      conn'.db = conn.db ∧ ∀ dev ∈ devs, dev.dirty = false := by
  have first := answer_quoteless documented (quoteless_fetchStorage c.computerId) false conn
  cases fetched : answer misread (.fetchStorageByComputerId c.computerId, false) conn with
  | mk res conn' =>
    rw [fetched] at first
    have same := (answered_fetchStorage first).1
    by_cases found : res.success = true ∧ 0 < res.tableRows.length
    · obtain ⟨k, loaded⟩ := loaded_of_fetchStorage first found.1
      refine ⟨(loadStorages res.columnNames res.tableRows).1.map fun _ => true,
        (loadStorages res.columnNames res.tableRows).2, conn', ?_, same, ?_⟩
      · simp [RmsComputer.getStorageFromDB, fetched, found.1, found.2, noRecords]
      · intro dev hdev
        obtain ⟨r, -, rfl⟩ := List.mem_map.mp (loaded ▸ hdev)
        rfl
    · refine ⟨.ok res.success, [], conn', ?_, same, by simp⟩
      simp only [not_and, not_lt, Nat.le_zero_eq] at found
      by_cases success : res.success = true
      · simp [RmsComputer.getStorageFromDB, fetched, success, found success, ← noRecords]
      · simp [RmsComputer.getStorageFromDB, fetched, success, ← noRecords]

theorem computerId_updateDB {σ : Type} (handle : Query × Bool → σ → RmsQueryResult × σ)
    (c : RmsComputer) (s : σ) : (c.updateDB.run handle s).1.2.computerId = c.computerId := by
  rw [RmsComputer.updateDB]
  split
  · rfl
  · simp

/-- A computer with a row keeps its id while it is loaded, and none is added. -/
theorem run_getFromDB_known (documented : Documented misread) (junk : VersionData) {id : Int}
    {conn : Connection} (valid : id ≠ -1) (known : id ∈ conn.db.computers.ids)
    (unstopped : stopsAfter conn ≠ some 0) :
    ∃ done c conn', ((RmsComputer.create id).getFromDB junk).run (answer misread) conn =
        ((done, c), conn') ∧
      conn'.db = conn.db ∧ c.computerId = id ∧ ∀ dev ∈ c.storageInfo, dev.dirty = false := by
  have first := answered_fetchComputer
    (answer_quoteless documented (quoteless_fetchComputer id) false conn) known unstopped
  cases fetched : answer misread (.fetchComputerById id, false) conn with
  | mk res conn₁ =>
    rw [fetched] at first
    dsimp only at first
    obtain ⟨same, failed | ⟨success, row, one⟩⟩ := first
    · refine ⟨.ok false, RmsComputer.create id, conn₁, ?_, same, rfl, by simp [RmsComputer.create]⟩
      simp [RmsComputer.getFromDB, RmsComputer.create, valid, fetched, failed]
    · cases columns : loadColumns (loadComputerColumn junk) ({} : SystemInfo)
          (res.columnNames.zip row) with
      | mk loaded info =>
        cases loaded with
        | error e =>
          refine ⟨.error e, { RmsComputer.create id with sysInfo := info }, conn₁, ?_, same, rfl,
            by simp [RmsComputer.create]⟩
          simp [RmsComputer.getFromDB, RmsComputer.create, valid, fetched, success, one, columns]
        | ok =>
          obtain ⟨done, devs, conn₂, second, same₂, clean⟩ := run_getStorageFromDB documented
            (c := { RmsComputer.create id with sysInfo := info }) rfl conn₁
          refine ⟨done, { computerId := id, sysInfo := info, storageInfo := devs }, conn₂, ?_,
            same₂.trans same, rfl, clean⟩
          simpa [RmsComputer.getFromDB, RmsComputer.create, valid, fetched, success, one,
            columns] using second

theorem ids_handshake_known (documented : Documented misread) (junk : VersionData) {id : Int}
    (valid : id ≠ -1) (fits : InInt id) {info : SystemInfo} (quoteless : QuotelessReport info)
    {conn : Connection} (known : id ∈ conn.db.computers.ids)
    (unstopped : stopsAfter conn ≠ some 0) :
    let r := runHandshake misread junk id info conn
    (∀ n, r.1.1 = .ok n → n = id) ∧ r.2.db.computers.ids = conn.db.computers.ids := by
  obtain ⟨done, c, conn', loaded, same, own, clean⟩ :=
    run_getFromDB_known documented junk valid known unstopped
  have only : (c.setSysInfo info).updateDB.Only KeepsComputers := updateDB_only
    (quoteless_insertComputer quoteless (setSysInfo_sysInfo c info)) (by
      rw [setSysInfo_storageInfo]
      exact quotelessRecord_of_dirty quoteless fun dev hdev dirty => by simp [clean dev hdev] at dirty)
  have ids := ids_of_only documented only conn'
  rw [same] at ids
  simp only [runHandshake, handshake, ne_eq, valid, not_false_eq_true, if_true, bind_eq, pure_eq,
    run_bind, toInt32_of_inInt fits, loaded]
  cases done with
  | error e => exact ⟨by simp, by rw [run_ret, same]⟩
  | ok b =>
    simp only [run_bind, run_ret, Except.ok.injEq]
    refine ⟨fun n returns => ?_, ids⟩
    rw [← returns, computerId_updateDB, setSysInfo_computerId, own]

end Handshakes

section Agreement

variable {R : Type}

/-- The configuration of every reporter, and the server's database. -/
structure State (R : Type) where
  configs : R → Config
  conn : Connection

structure Event (R : Type) where
  reporter : R
  sysInfo : SystemInfo

def State.heldId (s : State R) (r : R) : Except StdException Int :=
  findLong (s.configs r) computerId

/-- What is reported holds no quote, an insert's id fits an int, and the first
statement is not stopped on its way: an insert not at all, a fetch not before
its row. -/
structure Sound (s : State R) (e : Event R) : Prop where
  quoteless : QuotelessReport e.sysInfo
  fits : InInt (newRowid s.conn.db.computers.ids)
  unstopped : if s.heldId e.reporter = .ok (-1) then stopsAfter s.conn = none
    else stopsAfter s.conn ≠ some 0

instance (s : State R) (e : Event R) : Decidable (Sound s e) :=
  decidable_of_iff (QuotelessReport e.sysInfo ∧ InInt (newRowid s.conn.db.computers.ids) ∧
      if s.heldId e.reporter = .ok (-1) then stopsAfter s.conn = none
      else stopsAfter s.conn ≠ some 0)
    ⟨fun h => ⟨h.1, h.2.1, h.2.2⟩, fun h => ⟨h.quoteless, h.fits, h.unstopped⟩⟩

/-- No two reporters hold one id, each id has its row, and the rows that the
table has gained are those of different reporters. -/
structure Agreed (start : Db) (s : State R) : Prop where
  distinct : ∀ r r' n, s.heldId r = .ok n → s.heldId r' = .ok n → n ≠ -1 → r = r'
  row : ∀ r n, s.heldId r = .ok n → n ≠ -1 → n ∈ s.conn.db.computers.ids
  gained : ∃ gained : List R, gained.Nodup ∧ s.conn.db.computers.ids.map Except.ok =
    start.computers.ids.map Except.ok ++ gained.map s.heldId

/-- A reporter that has gained a row holds its id, and the others hold none. -/
structure Enrolled (start : Db) (gained : List R) (s : State R) : Prop where
  once : gained.Nodup
  ids : s.conn.db.computers.ids.map Except.ok =
    start.computers.ids.map Except.ok ++ gained.map s.heldId
  others : ∀ r, r ∉ gained → s.heldId r = .ok (-1)
  fits : ∀ r n, s.heldId r = .ok n → InInt n

theorem Enrolled.mem_ids {start : Db} {gained : List R} {s : State R}
    (h : Enrolled start gained s) {r : R} (hr : r ∈ gained) {n : Int} (held : s.heldId r = .ok n) :
    n ∈ s.conn.db.computers.ids := by
  have mem : s.heldId r ∈ s.conn.db.computers.ids.map Except.ok := by
    rw [h.ids]
    exact List.mem_append_right _ (List.mem_map_of_mem hr)
  obtain ⟨m, hm, same⟩ := List.mem_map.mp mem
  obtain rfl := Except.ok.inj (same.trans held)
  exact hm

theorem positive_of_mem_ids {db : Db} {n : Int} (h : n ∈ db.computers.ids) : 0 < n := by
  obtain ⟨row, hrow, rfl⟩ := List.mem_map.mp h
  exact db.computers.positive row hrow

theorem Enrolled.mem_gained_iff {start : Db} {gained : List R} {s : State R}
    (h : Enrolled start gained s) {r : R} {n : Int} (held : s.heldId r = .ok n) :
    r ∈ gained ↔ n ≠ -1 := by
  constructor
  · intro hr
    have positive := positive_of_mem_ids (h.mem_ids hr held)
    omega
  · intro valid
    by_contra hr
    exact valid (Except.ok.inj (held.symm.trans (h.others r hr)))

theorem Enrolled.agreed {start : Db} {gained : List R} {s : State R}
    (h : Enrolled start gained s) : Agreed start s where
  distinct := by
    intro r r' n held held' valid
    have different : (s.conn.db.computers.ids.map (Except.ok (ε := StdException))).Nodup :=
      List.Nodup.map (fun _ _ => Except.ok.inj) s.conn.db.computers.distinct
    rw [h.ids] at different
    exact List.inj_on_of_nodup_map different.of_append_right ((h.mem_gained_iff held).mpr valid)
      ((h.mem_gained_iff held').mpr valid) (held.trans held'.symm)
  row := fun _ _ held valid => h.mem_ids ((h.mem_gained_iff held).mpr valid) held
  gained := ⟨gained, h.once, h.ids⟩

/-- The ids that are held and the ids of the rows are all that counts. -/
theorem Enrolled.congr {start : Db} {gained : List R} {s : State R} (h : Enrolled start gained s)
    {conn : Connection} (ids : conn.db.computers.ids = s.conn.db.computers.ids) :
    Enrolled start gained { s with conn := conn } :=
  ⟨h.once, by rw [ids, h.ids]; rfl, h.others, h.fits⟩

theorem enrolled_start {configs : R → Config} (fresh : ∀ r, find (configs r) computerId = "-1")
    (conn : Connection) : Enrolled conn.db [] ⟨configs, conn⟩ := by
  have none (r : R) : findLong (configs r) computerId = .ok (-1) := by
    rw [findLong, fresh]
    exact stol_repr (-1)
  refine ⟨List.nodup_nil, by simp, fun r _ => none r, ?_⟩
  intro r n held
  obtain rfl := Except.ok.inj (held.symm.trans (none r))
  decide

end Agreement

section Runs

variable {R : Type} [DecidableEq R] (misread : List Char → Db → Option Outcome)
  (junk : VersionData)

/-- The end of `handshakeTCP`. A handshake that throws at the server leaves the
configuration as it was. -/
def step (s : State R) (e : Event R) : Option (State R) :=
  match s.heldId e.reporter with
  | .error _ => none
  | .ok id =>
    match runHandshake misread junk id e.sysInfo s.conn with
    | ((.error _, _), conn) => some { s with conn := conn }
    | ((.ok newId, _), conn) => some {
        configs := if id = newId then s.configs
          else Function.update s.configs e.reporter
            (replace (s.configs e.reporter) computerId newId.repr)
        conn := conn }

/-- The reporter that a new computer is added for. -/
theorem Enrolled.enrol {start : Db} {gained : List R} {s : State R} (h : Enrolled start gained s)
    {r : R} (held : s.heldId r = .ok (-1)) {n : Int} (fits : InInt n) {conn : Connection}
    (ids : conn.db.computers.ids = s.conn.db.computers.ids ++ [n]) :
    let t : State R := ⟨Function.update s.configs r (replace (s.configs r) computerId n.repr), conn⟩
    Enrolled start (gained ++ [r]) t ∧ t.heldId r = .ok n ∧
      ∀ r', r' ≠ r → t.heldId r' = s.heldId r' := by
  intro t
  have own : t.heldId r = .ok n := by
    rw [InInt] at fits
    simp only [t, State.heldId, Function.update_self]
    exact findLong_replace _ _ _ (by omega)
  have others (r' : R) (hr' : r' ≠ r) : t.heldId r' = s.heldId r' := by
    simp only [t, State.heldId, Function.update_of_ne hr']
  have new : r ∉ gained := fun hr => (h.mem_gained_iff held).mp hr rfl
  have kept : gained.map t.heldId = gained.map s.heldId :=
    List.map_congr_left fun r' hr' => others r' fun same => new (same ▸ hr')
  refine ⟨⟨?_, ?_, ?_, ?_⟩, own, others⟩
  · exact List.nodup_append.mpr ⟨h.once, List.nodup_singleton r, fun r' hr' x hx same =>
      new (List.mem_singleton.mp hx ▸ same ▸ hr')⟩
  · rw [List.map_append, kept, ids, List.map_append, h.ids]
    simp [own]
  · intro r' hr'
    rw [List.mem_append, List.mem_singleton, not_or] at hr'
    rw [others r' hr'.2, h.others r' hr'.1]
  · intro r' m held'
    by_cases same : r' = r
    · subst same
      exact Except.ok.inj (own.symm.trans held') ▸ fits
    · exact h.fits r' m (others r' same ▸ held')

theorem step_enrolled (documented : Documented misread) {start : Db} {gained : List R}
    {s t : State R} {e : Event R} (h : Enrolled start gained s) (sound : Sound s e)
    (ht : step misread junk s e = some t) :
    (∃ gained', Enrolled start gained' t) ∧
      ∀ r n, s.heldId r = .ok n → n ≠ -1 → t.heldId r = .ok n := by
  have first := sound.unstopped
  simp only [step] at ht
  cases held : s.heldId e.reporter with
  | error x => simp [held] at ht
  | ok id =>
    rw [held] at ht first
    dsimp only at ht
    by_cases new : id = -1
    · subst new
      rw [if_pos rfl] at first
      have result := ids_handshake_new documented junk sound.quoteless first sound.fits
      cases called : runHandshake misread junk (-1) e.sysInfo s.conn with
      | mk returned conn =>
        rw [called] at result ht
        obtain ⟨out, c⟩ := returned
        obtain ⟨rfl, ids⟩ | ⟨rfl, ids⟩ := result
        · simp only [if_true, Option.some.injEq] at ht
          exact ht ▸ ⟨⟨gained, h.congr ids⟩, fun _ _ held _ => held⟩
        · have positive := newRowid_pos s.conn.db.computers.ids
          have moved : ¬ -1 = newRowid s.conn.db.computers.ids := by omega
          dsimp only at ht
          rw [if_neg moved, Option.some.injEq] at ht
          obtain ⟨enrolled, -, others⟩ := h.enrol held sound.fits ids
          refine ht ▸ ⟨⟨_, enrolled⟩, fun r n held' valid => ?_⟩
          rw [others r, held']
          rintro rfl
          exact valid (Except.ok.inj (held'.symm.trans held))
    · rw [if_neg (fun same => new (Except.ok.inj same))] at first
      have known := h.mem_ids ((h.mem_gained_iff held).mpr new) held
      obtain ⟨same, ids⟩ := ids_handshake_known documented junk new (h.fits _ _ held)
        sound.quoteless known first
      cases called : runHandshake misread junk id e.sysInfo s.conn with
      | mk returned conn =>
        rw [called] at same ids ht
        obtain ⟨out, c⟩ := returned
        cases out with
        | error x =>
          exact Option.some.inj ht ▸ ⟨⟨gained, h.congr ids⟩, fun _ _ held _ => held⟩
        | ok n =>
          obtain rfl := same n rfl
          simp only [if_true, Option.some.injEq] at ht
          exact ht ▸ ⟨⟨gained, h.congr ids⟩, fun _ _ held _ => held⟩

/-- While the first statement of each handshake is not stopped, the reporters
agree with the table in every state, and no id that is held ever changes. -/
theorem sound_run_agreed (documented : Documented misread) {configs : R → Config}
    (fresh : ∀ r, find (configs r) computerId = "-1") (conn : Connection) {es fs : List (Event R)}
    {s t : State R} (sound : Guarded (step misread junk) Sound ⟨configs, conn⟩ (es ++ fs))
    (arrives : run (step misread junk) ⟨configs, conn⟩ es = some s)
    (goes : run (step misread junk) s fs = some t) :
    Agreed conn.db s ∧ ∀ r n, s.heldId r = .ok n → n ≠ -1 → t.heldId r = .ok n := by
  obtain ⟨before, after⟩ := guarded_append.mp sound
  obtain ⟨gained, enrolled⟩ : ∃ gained, Enrolled conn.db gained s :=
    run_invariant
      (fun (u : State R) _ _ (h : ∃ gained, Enrolled conn.db gained u) sound ht =>
        (step_enrolled misread junk documented h.choose_spec sound ht).1)
      ⟨[], enrolled_start fresh conn⟩ before arrives
  refine ⟨enrolled.agreed, ?_⟩
  refine (@run_invariant _ _ _ _ (fun u : State R => (∃ gained, Enrolled conn.db gained u) ∧
      ∀ r n, s.heldId r = .ok n → n ≠ -1 → u.heldId r = .ok n) ?_ s t fs
    ⟨⟨gained, enrolled⟩, fun _ _ held _ => held⟩ (after s arrives) goes).2
  rintro u e v ⟨⟨_, h⟩, held⟩ sound hv
  obtain ⟨enrolled, same⟩ := step_enrolled misread junk documented h sound hv
  exact ⟨enrolled, fun r n hr valid => same r n (held r n hr valid) valid⟩

end Runs

def greet {R : Type} (r : R) : Event R := ⟨r, {}⟩

def newReporters (R : Type) (faults : List (Option Fault)) : State R :=
  ⟨fun _ => unregistered, ⟨emptyDb, 0, faults⟩⟩

/-- Two reporters get their ids, and both come back. -/
theorem greetTwice_agreed :
    let s := (run (step (fun _ _ => none) {}) (newReporters Bool []) [greet false, greet true]).get
      (by decide +kernel)
    let t := (run (step (fun _ _ => none) {}) s [greet true, greet false]).get (by decide +kernel)
    Agreed emptyDb s ∧ ∀ r n, s.heldId r = .ok n → n ≠ -1 → t.heldId r = .ok n :=
  sound_run_agreed (fun _ _ => none) {} documented_none (fun _ => rfl) ⟨emptyDb, 0, []⟩
    (by decide +kernel) (Option.some_get _).symm (Option.some_get _).symm

/-- The second handshake of the only reporter finds the database locked when it
fetches the row. -/
def lockedFetch : State Unit := newReporters Unit [none, some (.step 0 .busy (by decide))]

theorem lockedFetch_not_agreed :
    let s := (run (step (fun _ _ => none) {}) lockedFetch [greet ()]).get (by decide +kernel)
    let t := (run (step (fun _ _ => none) {}) s [greet ()]).get (by decide +kernel)
    ¬ Agreed emptyDb t ∧ ¬ ∀ r n, s.heldId r = .ok n → n ≠ -1 → t.heldId r = .ok n := by
  intro s t
  have forked : t.conn.db.computers.rows.map ComputerRow.computerId = [1, 2] ∧
      s.heldId () = .ok 1 ∧ t.heldId () = .ok 2 := by decide +kernel
  clear_value t s
  obtain ⟨rows, before, after⟩ := forked
  constructor
  · intro agreed
    obtain ⟨gained, once, ids⟩ := agreed.gained
    have two : gained.length = 2 := by
      have lengths := congrArg List.length ids
      rw [Table.ids, rows] at lengths
      simpa [emptyDb, Table.empty, Table.ids] using lengths.symm
    obtain ⟨a, b, rfl⟩ := List.length_eq_two.mp two
    simp at once
  · intro kept
    have same := kept () 1 before (by decide)
    rw [after] at same
    cases same

end Identity
