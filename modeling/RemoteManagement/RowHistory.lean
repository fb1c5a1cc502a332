import RemoteManagement.Server
import RemoteManagement.Identity
import RemoteManagement.ExecutorTable
import RemoteManagement.Library.GrowingList

/-!
# The history of the rows

No statement deletes a row, and none changes what a row is about: a computer's
id, the computer and device of a storage row, the key of a usage row, the
computer, name and start of an executor row. A tick and a result that have been
written are never empty again. So while the reports and the commands hold no
quotes, the tables of the server grow, whatever faults its statements meet.
-/

namespace RowHistory

open ThriftTypes SqlStatements ExecuteQuery RowTable Database QueryProgram Program GuardedRun
open Computer Handshake Server QuotelessStatements GrowingList
open Ingestor (DbRequestIngestor Clock ingestRequest ingestRequest_keeps)

def SameComputer (r r' : ComputerRow) : Prop := r'.computerId = r.computerId

def SameStorage (r r' : StorageRow) : Prop :=
  (r'.storageInfoId, r'.computerId, r'.devPath) = (r.storageInfoId, r.computerId, r.devPath)

structure LaterUsage (r r' : UsageRow) : Prop where
  key : (r'.rowid, r'.date, r'.dataType, r'.dataId) = (r.rowid, r.date, r.dataType, r.dataId)
  ticks : ∀ k, (r.ticks k).isSome → (r'.ticks k).isSome

structure LaterExecutor (r r' : ExecutorRow) : Prop where
  command : (r'.executorId, r'.computerId, r'.startTime, r'.name) =
    (r.executorId, r.computerId, r.startTime, r.name)
  endTime : r.endTime.isSome → r'.endTime.isSome
  returnCode : r.returnCode.isSome → r'.returnCode.isSome
  returnType : r.returnType.isSome → r'.returnType.isSome

/-- The tables after some statements. -/
structure Later (db db' : Db) : Prop where
  computers : Grows SameComputer db.computers.rows db'.computers.rows
  storages : Grows SameStorage db.storages.rows db'.storages.rows
  usages : Grows LaterUsage db.usages.rows db'.usages.rows
  executors : Grows LaterExecutor db.executors.rows db'.executors.rows

def BackendLater : Backend → Backend → Prop
  | .log, .log => True
  | .sqlite _ conn, .sqlite _ conn' => Later conn.db conn'.db
  | _, _ => False

section Relations

theorem sameComputer_refl (r : ComputerRow) : SameComputer r r := rfl

theorem sameStorage_refl (r : StorageRow) : SameStorage r r := rfl

theorem laterUsage_refl (r : UsageRow) : LaterUsage r r := ⟨rfl, fun _ h => h⟩

theorem laterUsage_trans (r r' r'' : UsageRow) (h : LaterUsage r r') (h' : LaterUsage r' r'') :
    LaterUsage r r'' :=
  ⟨h'.key.trans h.key, fun k set => h'.ticks k (h.ticks k set)⟩

theorem laterExecutor_refl (r : ExecutorRow) : LaterExecutor r r := ⟨rfl, id, id, id⟩

theorem laterExecutor_trans (r r' r'' : ExecutorRow) (h : LaterExecutor r r')
    (h' : LaterExecutor r' r'') : LaterExecutor r r'' :=
  ⟨h'.command.trans h.command, h'.endTime ∘ h.endTime, h'.returnCode ∘ h.returnCode,
    h'.returnType ∘ h.returnType⟩

theorem Later.refl (db : Db) : Later db db :=
  ⟨.refl sameComputer_refl _, .refl sameStorage_refl _, .refl laterUsage_refl _,
    .refl laterExecutor_refl _⟩

theorem Later.trans {db db' db'' : Db} (h : Later db db') (h' : Later db' db'') :
    Later db db'' where
  computers := h.computers.trans (fun _ _ _ one two => two.trans one) h'.computers
  storages := h.storages.trans (fun _ _ _ one two => two.trans one) h'.storages
  usages := h.usages.trans laterUsage_trans h'.usages
  executors := h.executors.trans laterExecutor_trans h'.executors

theorem BackendLater.refl (backend : Backend) : BackendLater backend backend := by
  cases backend with
  | log => trivial
  | sqlite ing conn => exact Later.refl conn.db

theorem BackendLater.trans {b b' b'' : Backend} (h : BackendLater b b') (h' : BackendLater b' b'') :
    BackendLater b b'' := by
  cases b <;> cases b' <;> cases b'' <;> first | exact h.elim | exact h'.elim | exact h | skip
  exact Later.trans h h'

end Relations

section Statements

theorem laterUsage_update (r : UsageRow) (k : Fin 24) (q : ℚ) :
    LaterUsage r { r with ticks := Function.update r.ticks k (some q) } := by
  refine ⟨rfl, fun j set => ?_⟩
  by_cases own : j = k
  · simp [own]
  · simpa [own] using set

/-- A statement that is read as it was meant. -/
theorem later_execute {q : Query} {db : Db} {o : Outcome} (h : execute q db = some o) :
    Later db o.db := by
  have same := Later.refl db
  cases q with
  | insertComputer a =>
    cases h
    exact ⟨.append sameComputer_refl _ _, same.storages, same.usages, same.executors⟩
  | updateComputer a id =>
    cases h
    refine ⟨.map (fun r => ?_) _, same.storages, same.usages, same.executors⟩
    by_cases own : r.computerId = id
    · rw [if_pos own]
      exact own.symm
    · rw [if_neg own]
      rfl
  | fetchComputerById id | fetchStorageByComputerId id | doesUsageEntryExist date dataType dataId =>
    cases h
    exact same
  | insertStorage computerId devPath fsType mountPoint free total =>
    cases h
    exact ⟨same.computers, .append sameStorage_refl _ _, same.usages, same.executors⟩
  | updateStorage free total connected mountPoint fsType id =>
    cases h
    refine ⟨same.computers, .map (fun r => ?_) _, same.usages, same.executors⟩
    by_cases own : r.storageInfoId = id
    · rw [if_pos own]
      rfl
    · rw [if_neg own]
      rfl
  | insertUsage date dataType dataId =>
    cases h
    exact ⟨same.computers, same.storages, .append laterUsage_refl _ _, same.executors⟩
  | updateUsage tick value date dataType dataId =>
    simp only [execute] at h
    split at h
    · cases h
      refine ⟨same.computers, same.storages, .map (fun r => ?_) _, same.executors⟩
      split
      · exact laterUsage_update r _ _
      · exact laterUsage_refl r
    · cases h
  | insertExecutor computerId startTime name =>
    cases h
    exact ⟨same.computers, same.storages, same.usages, .append laterExecutor_refl _ _⟩
  | updateExecutor endTime returnCode returnType id =>
    cases h
    refine ⟨same.computers, same.storages, same.usages, .map (fun r => ?_) _⟩
    by_cases own : r.executorId = id
    · rw [if_pos own]
      exact ⟨rfl, fun _ => rfl, fun _ => rfl, fun _ => rfl⟩
    · rw [if_neg own]
      exact laterExecutor_refl r

end Statements

section Strings

/-- The statement of a query holds no quote. -/
def Unquoted (ask : Query × Bool) : Prop := Quoteless ask.1

/-- What an update would write of the records holds no quote. -/
def Sendable (devs : List RmsStorageInfo) : Prop :=
  ∀ dev ∈ devs, dev.dirty = true → QuotelessRecord dev

theorem unquoted_of_onStorages (ask : Query × Bool) (h : OnStorages ask) : Unquoted ask := h.1

theorem unquoted_of_keepsComputers (ask : Query × Bool) (h : Identity.KeepsComputers ask) :
    Unquoted ask := h.1

theorem unquoted_of_no_strings {q : Query} {asked : Bool} (none : q.strings = []) :
    Unquoted (q, asked) := by
  intro s hs
  rw [none] at hs
  cases hs

theorem addStorages_quoteless (computerId : Int) {devs : List RmsStorageInfo}
    (quoteless : ∀ dev ∈ devs, QuotelessRecord dev) :
    (addStorages computerId devs).Returns (fun devs => ∀ dev ∈ devs, QuotelessRecord dev) := by
  induction devs with
  | nil => simp [addStorages]
  | cons dev devs ih =>
    simp only [List.forall_mem_cons] at quoteless
    refine returns_bind (returns_any _) fun res _ => returns_bind (ih quoteless.2)
      fun devs rest => ?_
    have own : QuotelessRecord (inserted dev res) := by
      rw [inserted]
      split <;> exact quoteless.1
    simpa using ⟨own, rest⟩

theorem updateStorages_sendable (success : Bool) {devs : List RmsStorageInfo}
    (sendable : Sendable devs) :
    (updateStorages success devs).Returns (fun r => Sendable r.2) := by
  induction devs generalizing success with
  | nil => simpa [updateStorages] using sendable
  | cons dev devs ih =>
    simp only [Sendable, List.forall_mem_cons] at sendable
    rw [updateStorages]
    split
    · rename_i dirty
      refine returns_bind (returns_any _) fun res _ => returns_bind (ih res.success sendable.2)
        fun r rest => ?_
      simpa [Sendable] using ⟨fun _ => sendable.1 dirty, rest⟩
    · exact returns_bind (ih success sendable.2) fun r rest => by
        simpa [Sendable] using ⟨sendable.1, rest⟩

theorem updateDB_sendable {c : RmsComputer} (sendable : Sendable c.storageInfo) :
    c.updateDB.Returns (fun r => Sendable r.2.storageInfo) := by
  rw [RmsComputer.updateDB]
  split
  · exact sendable
  · exact returns_bind (returns_any _) fun r _ =>
      returns_bind (updateStorages_sendable r.1 sendable) fun _ rest => rest

theorem addToDB_unquoted {c : RmsComputer} (sysInfo : Quoteless (.insertComputer c.insertArgs))
    (quoteless : ∀ dev ∈ c.storageInfo, QuotelessRecord dev) :
    c.addToDB.Only Unquoted ∧ c.addToDB.Returns (fun r => Sendable r.2.storageInfo) := by
  have kept (computerId : Int) := addStorages_quoteless computerId quoteless
  constructor
  · refine only_bind (only_ask sysInfo) fun res => ?_
    split
    · exact only_bind (only_mono unquoted_of_onStorages (addStorages_onStorages _ quoteless))
        fun _ => trivial
    · trivial
  · intro res
    simp only [ret_bind]
    split
    · exact returns_bind (kept _) fun devs all dev hdev _ => all dev hdev
    · exact fun dev hdev _ => quoteless dev hdev

theorem dirty_loadStorageColumn {info info' : RmsStorageInfo} {name text : String}
    (h : loadStorageColumn info name text = .ok info') : info'.dirty = info.dirty := by
  have number (n : Except DecimalText.StdException Int) (f : Int → RmsStorageInfo)
      (keeps : ∀ k, (f k).dirty = info.dirty) (read : n.bind (fun k => .ok (f k)) = .ok info') :
      info'.dirty = info.dirty := by
    cases n with
    | error e => cases read
    | ok k => exact Except.ok.inj read ▸ keeps k
  rw [loadStorageColumn] at h
  repeat' split at h
  all_goals first
    | exact Except.ok.inj h ▸ rfl
    | refine number _ _ ?_ h; exact fun _ => rfl

/-- Loading leaves the flag of the record as it was. -/
theorem dirty_loadColumns (columns : List (String × String)) (info : RmsStorageInfo) :
    (loadColumns loadStorageColumn info columns).2.dirty = info.dirty := by
  induction columns generalizing info with
  | nil => rfl
  | cons column columns ih =>
    rw [loadColumns]
    split
    · rfl
    · rename_i info' loaded
      exact (ih info').trans (dirty_loadStorageColumn loaded)

theorem sendable_loadStorages (columnNames : List String) (rows : List (List String)) :
    Sendable (loadStorages columnNames rows).2 := by
  induction rows with
  | nil => exact fun _ hdev => absurd hdev List.not_mem_nil
  | cons row rows ih =>
    have clean := dirty_loadColumns (columnNames.zip row) {}
    rw [loadStorages]
    split
    · exact fun _ hdev => absurd hdev List.not_mem_nil
    · rename_i info loaded
      rw [loaded] at clean
      simp only [Sendable, List.forall_mem_cons]
      exact ⟨fun dirty => absurd (clean.symm.trans dirty) Bool.false_ne_true, ih⟩

theorem getStorageFromDB_unquoted {c : RmsComputer} (sendable : Sendable c.storageInfo) :
    c.getStorageFromDB.Only Unquoted ∧
      c.getStorageFromDB.Returns (fun r => Sendable r.2.storageInfo) := by
  constructor
  · refine only_bind (only_ask (quoteless_fetchStorage c.computerId)) fun res => ?_
    split <;> trivial
  · intro res
    simp only [ret_bind]
    split
    · simp only [returns_ret, pure_eq, Sendable, List.forall_mem_append]
      exact ⟨sendable, sendable_loadStorages _ _⟩
    · exact sendable

theorem getFromDB_unquoted (junk : VersionData) (computerId : Int) :
    ((RmsComputer.create computerId).getFromDB junk).Only Unquoted ∧
      ((RmsComputer.create computerId).getFromDB junk).Returns
        (fun r => Sendable r.2.storageInfo) := by
  have none : Sendable [] := fun _ hdev => absurd hdev List.not_mem_nil
  have plain : QuotelessReport {} := by decide
  obtain ⟨addAsks, addReturns⟩ := addToDB_unquoted (c := RmsComputer.create computerId)
    (quoteless_insertComputer plain rfl) (by simp [RmsComputer.create])
  rw [RmsComputer.getFromDB]
  split
  · exact ⟨trivial, none⟩
  · constructor
    · refine only_bind (only_ask (quoteless_fetchComputer _)) fun res => ?_
      split
      · split
        · trivial
        · exact (getStorageFromDB_unquoted none).1
      · exact only_bind addAsks fun _ => trivial
      · trivial
    · intro res
      simp only [ret_bind]
      split
      · split
        · exact none
        · exact (getStorageFromDB_unquoted none).2
      · exact returns_bind addReturns fun _ sendable => sendable
      · exact none

theorem setSysInfo_unquoted {c : RmsComputer} (sendable : Sendable c.storageInfo)
    {info : SystemInfo} (quoteless : QuotelessReport info) :
    (c.setSysInfo info).updateDB.Only Unquoted ∧
      (c.setSysInfo info).updateDB.Returns (fun r => Sendable r.2.storageInfo) := by
  have records : Sendable (c.setSysInfo info).storageInfo := by
    rw [setSysInfo_storageInfo]
    exact quotelessRecord_of_dirty quoteless sendable
  exact ⟨only_mono unquoted_of_keepsComputers (Identity.updateDB_only
    (quoteless_insertComputer quoteless (setSysInfo_sysInfo c info)) records),
      updateDB_sendable records⟩

/-- Of the strings that a handshake has statements written with, all are those of
the report. -/
theorem handshake_unquoted (junk : VersionData) (id : Int) {info : SystemInfo}
    (quoteless : QuotelessReport info) :
    (handshake junk id info).Only Unquoted ∧
      (handshake junk id info).Returns (fun r => Sendable r.2.storageInfo) := by
  rw [handshake]
  split
  · obtain ⟨asks, returns⟩ := getFromDB_unquoted junk (toInt32 id)
    constructor
    · refine only_bind_of_returns asks returns fun r sendable => ?_
      obtain ⟨loaded | _, c⟩ := r
      · trivial
      · exact only_bind (setSysInfo_unquoted sendable quoteless).1 fun _ => trivial
    · refine returns_bind returns fun r sendable => ?_
      obtain ⟨loaded | _, c⟩ := r
      · exact sendable
      · exact returns_bind (setSysInfo_unquoted sendable quoteless).2 fun _ kept => kept
  · obtain ⟨asks, returns⟩ := addToDB_unquoted
      (c := (RmsComputer.create (toInt32 id)).setSysInfo info)
      (quoteless_insertComputer quoteless (setSysInfo_sysInfo _ info))
      (by rw [setSysInfo_storageInfo]; exact quotelessRecord_of_report quoteless)
    exact ⟨only_bind asks fun _ => trivial, returns_bind returns fun _ kept => kept⟩

theorem runCommand_unquoted (computerId timestamp : Int) {cmd : String}
    (quoteless : SqlLiteral.quote ∉ cmd.toList) :
    (runCommand computerId timestamp cmd).Only Unquoted := by
  have free : Quoteless (.insertExecutor computerId timestamp cmd) := by
    simpa [Quoteless, Query.strings] using quoteless
  refine only_bind (only_ask free) fun res => ?_
  split <;> trivial

/-- The statements of a request carry no strings. -/
theorem ingestRequest_unquoted (ing : DbRequestIngestor) (computer : Option RmsComputer)
    (data : List (Clock × RmsRequestData)) :
    (ingestRequest ing computer data).Only Unquoted := by
  induction data generalizing ing computer with
  | nil => trivial
  | cons item data ih =>
    refine only_bind (only_mono ?_ (ExecutorTable.ingestRequestData_only item.1 item.2 ing
      computer)) fun o => ?_
    · rintro ask (⟨-, rfl⟩ | usage)
      · exact unquoted_of_no_strings rfl
      · exact unquoted_of_no_strings usage.strings
    · cases o with
      | none => trivial
      | some out => exact ih out.ingestor out.computer

end Strings

section Runs

variable {misread : List Char → Db → Option Outcome} (junk : VersionData)

theorem later_answer (documented : Documented misread) (ask : Query × Bool)
    (unquoted : Unquoted ask) (conn : Connection) :
    Later conn.db (answer misread ask conn).2.db := by
  have answered := answer_quoteless documented unquoted ask.2 conn
  generalize (answer misread ask conn).1 = res, (answer misread ask conn).2.db = db at answered ⊢
  cases answered with
  | failed | stopped => exact Later.refl conn.db
  | done free total o ho => exact later_execute ho

theorem later_program (documented : Documented misread) {α : Type} {p : DbProgram α}
    (unquoted : p.Only Unquoted) (conn : Connection) :
    Later conn.db (p.run (answer misread) conn).2.db :=
  run_only (answer misread) (fun conn conn' => Later conn.db conn'.db) (fun conn => .refl conn.db)
    (fun _ _ _ => Later.trans) (fun ask conn asked => later_answer documented ask asked conn)
    unquoted conn

theorem later_withDatabase (documented : Documented misread) {α : Type}
    {p : DbProgram α} (unquoted : p.Only Unquoted) {P : α → Prop} (returns : p.Returns P)
    {backend backend' : Backend} {a : α}
    (h : withDatabase misread p backend = some (a, backend')) :
    BackendLater backend backend' ∧ P a := by
  cases backend with
  | log =>
    cases p with
    | ret a =>
      cases h
      exact ⟨trivial, returns⟩
    | query q next => cases h
  | sqlite ing conn =>
    cases h
    exact ⟨later_program documented unquoted conn, run_returns (answer misread) returns conn⟩

theorem later_report (documented : Documented misread) {client client' : RmsClient}
    {timestamp : Int} {data : List (Clock × RmsRequestData)} {backend backend' : Backend}
    {res : RmsResponse}
    (h : report misread client timestamp data backend = some (res, client', backend')) :
    BackendLater backend backend' ∧ client'.computer.map RmsComputer.storageInfo =
      client.computer.map RmsComputer.storageInfo := by
  cases backend with
  | log =>
    cases h
    exact ⟨trivial, rfl⟩
  | sqlite ing conn =>
    have later := later_program documented (ingestRequest_unquoted ing client.computer data) conn
    have kept := run_returns (answer misread) (ingestRequest_keeps RmsComputer.storageInfo
      (fun _ _ _ _ => rfl) ing client.computer data) conn
    simp only [report] at h
    split at h
    · cases h
    · rename_i ran
      cases h
      rw [ran] at later kept
      exact ⟨later, kept _ rfl⟩

/-- No client has a record whose strings cannot be sent. -/
def AllSendable (s : RmsServer) : Prop :=
  ∀ k client, s.handlers k = some client → ∀ c ∈ client.computer, Sendable c.storageInfo

theorem AllSendable.put {s : RmsServer} (h : AllSendable s) (k : Nat) {client : RmsClient}
    (own : ∀ c ∈ client.computer, Sendable c.storageInfo) (backend : Backend) :
    AllSendable (s.put k client backend) := by
  intro j client' live
  by_cases here : j = k
  · subst here
    simp only [RmsServer.put, Function.update_self, Option.some.injEq] at live
    exact live ▸ own
  · simp only [RmsServer.put, Function.update_of_ne here] at live
    exact h j client' live

/-- The strings that come in with the call hold no quote. -/
def QuotelessCall : Event → Prop
  | .handshake _ _ info | .sendSysInfo _ info => QuotelessReport info
  | .exec _ _ cmd => SqlLiteral.quote ∉ cmd.toList
  | _ => True

instance : DecidablePred QuotelessCall
  | .handshake _ _ info | .sendSysInfo _ info => inferInstanceAs (Decidable (QuotelessReport info))
  | .exec _ _ cmd => inferInstanceAs (Decidable (SqlLiteral.quote ∉ cmd.toList))
  | .connect _ | .report .. | .disconnect _ | .status | .clients | .infoClient _ | .getSysInfo _ =>
    isTrue trivial

/-- The tables have grown, and still none of the strings in memory has a quote. -/
theorem step_later (documented : Documented misread) {s t : RmsServer} {e : Event}
    (sendable : AllSendable s) (quoteless : QuotelessCall e) (h : step misread junk s e = some t) :
    BackendLater s.backend t.backend ∧ AllSendable t := by
  have same : BackendLater s.backend s.backend ∧ AllSendable s := ⟨.refl s.backend, sendable⟩
  have none : ∀ c ∈ (none : Option RmsComputer), Sendable c.storageInfo := by simp
  cases e with
  | connect k =>
    cases live : s.handlers k with
    | some client =>
      simp only [step, live, Option.some.injEq] at h
      exact h ▸ same
    | none =>
      simp only [step, live, Option.some.injEq] at h
      exact h ▸ ⟨same.1, sendable.put k none s.backend⟩
  | disconnect k =>
    cases live : s.handlers k with
    | none =>
      simp only [step, live, Option.some.injEq] at h
      exact h ▸ same
    | some client =>
      obtain ⟨id, -, rfl⟩ := disconnect_eq misread junk live h
      refine ⟨same.1, fun j client' live' => ?_⟩
      by_cases here : j = k
      · simp [here] at live'
      · simp only [Function.update_of_ne here] at live'
        exact sendable j client' live'
  | handshake k id sysInfo =>
    cases live : s.handlers k with
    | none =>
      simp only [step, live, Option.some.injEq] at h
      exact h ▸ same
    | some client =>
      simp only [step, live, Option.map_eq_some_iff] at h
      obtain ⟨r, asked, rfl⟩ := h
      obtain ⟨asks, returns⟩ := handshake_unquoted junk id quoteless
      obtain ⟨later, own⟩ := later_withDatabase documented asks returns asked
      exact ⟨later, sendable.put k (by simpa using own) r.2⟩
  | sendSysInfo k sysInfo =>
    cases live : s.handlers k with
    | none =>
      simp only [step, live, Option.some.injEq] at h
      exact h ▸ same
    | some client =>
      simp only [step, live, Option.bind_eq_some_iff, Option.map_eq_some_iff] at h
      obtain ⟨c, computer, r, asked, rfl⟩ := h
      obtain ⟨asks, returns⟩ := setSysInfo_unquoted (sendable k client live c computer) quoteless
      obtain ⟨later, own⟩ := later_withDatabase documented asks returns asked
      exact ⟨later, sendable.put k (by simpa using own) r.2⟩
  | report k timestamp data =>
    cases live : s.handlers k with
    | none =>
      simp only [step, live, Option.some.injEq] at h
      exact h ▸ same
    | some client =>
      simp only [step, live, Option.map_eq_some_iff] at h
      obtain ⟨⟨res, client', backend⟩, reported, rfl⟩ := h
      obtain ⟨later, kept⟩ := later_report documented reported
      refine ⟨later, sendable.put k (fun c hc => ?_) backend⟩
      rw [hc, Option.map_some, eq_comm, Option.map_eq_some_iff] at kept
      obtain ⟨c', hc', records⟩ := kept
      exact records ▸ sendable k client live c' hc'
  | status =>
    simp only [step, Option.some.injEq] at h
    exact h ▸ same
  | clients =>
    rw [step, Option.ite_none_right_eq_some, Option.some.injEq] at h
    exact h.2 ▸ same
  | infoClient id =>
    simp only [step, Option.map_eq_some_iff] at h
    obtain ⟨_, -, rfl⟩ := h
    exact same
  | getSysInfo id =>
    rcases getSysInfo_eq misread junk h with rfl | ⟨k, client, live, rfl⟩
    · exact same
    · refine ⟨same.1, sendable.put k ?_ s.backend⟩
      exact sendable k client live
  | exec id timestamp cmd =>
    rcases exec_eq misread junk h with ⟨-, rfl⟩ | ⟨k, client, data, backend, -, live, asked, rfl⟩
    · exact same
    · obtain ⟨later, -⟩ := later_withDatabase documented
        (runCommand_unquoted id timestamp quoteless) (returns_any _) asked
      refine ⟨later, sendable.put k ?_ backend⟩
      cases data <;> exact sendable k client live

theorem run_allSendable (documented : Documented misread) {s t : RmsServer} {es : List Event}
    (sendable : AllSendable s) (quoteless : ∀ e ∈ es, QuotelessCall e)
    (arrives : run (step misread junk) s es = some t) :
    BackendLater s.backend t.backend ∧ AllSendable t := by
  have kept (u : RmsServer) (e : Event) (v : RmsServer)
      (hu : BackendLater s.backend u.backend ∧ AllSendable u) (he : QuotelessCall e)
      (moves : step misread junk u e = some v) :
      BackendLater s.backend v.backend ∧ AllSendable v := by
    obtain ⟨later, still⟩ := step_later junk documented hu.2 he moves
    exact ⟨hu.1.trans later, still⟩
  exact run_invariant kept ⟨.refl s.backend, sendable⟩ (guarded_of_forall quoteless) arrives

/-- From any point of a run to any later one, whatever faults the statements
meet, every row stays in its place with what it is about. -/
theorem run_later (documented : Documented misread) (backend : Backend) {s t : RmsServer}
    {es fs : List Event} (quoteless : ∀ e ∈ es ++ fs, QuotelessCall e)
    (comes : run (step misread junk) (start backend) es = some s)
    (arrives : run (step misread junk) s fs = some t) : BackendLater s.backend t.backend := by
  rw [List.forall_mem_append] at quoteless
  have fresh : AllSendable (start backend) := by
    rintro k client ⟨⟩
  have sendable := (run_allSendable junk documented fresh quoteless.1 comes).2
  exact (run_allSendable junk documented sendable quoteless.2 arrives).1

end Runs

/-- Two computers are stored, and what comes after them leaves their rows. -/
theorem run_later_twoPcs :
    ∃ s t, run (step (fun _ _ => none) {}) (start sqlite) twoPcs = some s ∧
      run (step (fun _ _ => none) {}) s twoPcs = some t ∧ BackendLater s.backend t.backend := by
  have ends : (run (step (fun _ _ => none) {}) (start sqlite) (twoPcs ++ twoPcs)).isSome =
      true := by
    decide +kernel
  obtain ⟨t, arrives⟩ := Option.isSome_iff_exists.mp ends
  rw [run_append, Option.bind_eq_some_iff] at arrives
  obtain ⟨s, comes, arrives⟩ := arrives
  have quoteless : ∀ e ∈ twoPcs ++ twoPcs, QuotelessCall e := by decide +kernel
  exact ⟨s, t, comes, arrives, run_later {} documented_none sqlite quoteless comes arrives⟩

end RowHistory
