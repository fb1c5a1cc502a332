import RemoteManagement.Handshake
import RemoteManagement.Ingestor

/-!
# RmsServer and its clients

The server keeps a list of pointers to the handlers of its connections. A
handler has no computer until its first handshake, and a server that only logs
has no database. A step that would follow a null pointer, or the pointer to a
deleted handler, is undefined.
-/

namespace Server

open ThriftTypes SqlStatements ExecuteQuery Database QueryProgram Program GuardedRun
open Computer Ingestor

structure RmsClient where
  computer : Option RmsComputer := none
  responseQueue : List RmsResponseData := []

/-- What the two accepted database types start: an ingestor that logs, or one
that stores and the database. -/
inductive Backend where
  | log
  | sqlite (ingestor : DbRequestIngestor) (conn : Connection)

/-- Pointers are numbers; `handlers` has the live ones. -/
structure RmsServer where
  backend : Backend
  handlers : Nat → Option RmsClient
  clients : List Nat

def start (backend : Backend) : RmsServer := ⟨backend, fun _ => none, []⟩

inductive Event where
  | connect (h : Nat)
  | handshake (h : Nat) (id : Int) (sysInfo : SystemInfo)
  | report (h : Nat) (timestamp : Int) (data : List (Clock × RmsRequestData))
  | sendSysInfo (h : Nat) (sysInfo : SystemInfo)
  | disconnect (h : Nat)
  | status
  | clients
  | infoClient (id : Int)
  | getSysInfo (id : Int)
  | exec (id : Int) (timestamp : Int) (cmd : String)

/-- `RmsClient::getId` -/
def RmsServer.getId (s : RmsServer) (h : Nat) : Option Int := do
  let client ← s.handlers h
  let computer ← client.computer
  return computer.computerId

/-- The search stops at the first client that has the id. -/
def RmsServer.getClient (s : RmsServer) (id : Int) : List Nat → Option (Option Nat)
  | [] => some none
  | h :: hs =>
    match s.getId h with
    | none => none
    | some i => if i = id then some (some h) else s.getClient id hs

def RmsServer.removeClient (s : RmsServer) (id : Int) : Option RmsServer :=
  if ∀ h ∈ s.clients, (s.getId h).isSome then
    some { s with clients := s.clients.filter (fun h => s.getId h ≠ some id) }
  else none

def RmsServer.put (s : RmsServer) (h : Nat) (client : RmsClient) (backend : Backend) : RmsServer :=
  { s with backend := backend, handlers := Function.update s.handlers h (some client) }

def RmsClient.addResponse (client : RmsClient) (data : RmsResponseData) : RmsClient :=
  { client with responseQueue := client.responseQueue ++ [data] }

/-- The command with its executor id, unless the insert fails. -/
def runCommand (computerId timestamp : Int) (cmd : String) :
    DbProgram (Option RmsResponseData) := do
  let res ← ask (.insertExecutor computerId timestamp cmd, true)
  if res.success then
    return some {
      dataType := .kRunCommand
      data := { command := { command := cmd, id := res.lastId.getD 0 } } }
  else return none

section Steps

variable (misread : List Char → Db → Option Outcome) (junk : VersionData)

/-- A program runs against the database; without one it must not ask. -/
def withDatabase {α : Type} (p : DbProgram α) : Backend → Option (α × Backend)
  | .sqlite ing conn =>
    let (a, conn) := p.run (answer misread) conn
    some (a, .sqlite ing conn)
  | .log =>
    match p with
    | .ret a => some (a, .log)
    | .query _ _ => none

/-- The logging ingestor prints the data and uses no computer. -/
def report (client : RmsClient) (timestamp : Int) (data : List (Clock × RmsRequestData))
    (backend : Backend) : Option (RmsResponse × RmsClient × Backend) :=
  let response : RmsResponse :=
    { header := { timestamp := timestamp, dataCount := client.responseQueue.length }
      data := client.responseQueue }
  match backend with
  | .log => some (response, { client with responseQueue := [] }, .log)
  | .sqlite ing conn =>
    match (ingestRequest ing client.computer data).run (answer misread) conn with
    | (none, _) => none
    | (some (ing, computer), conn) => some (response, ⟨computer, []⟩, .sqlite ing conn)

/-- Calls on handlers that are not live do not happen. -/
def step (s : RmsServer) : Event → Option RmsServer
  | .connect h =>
    match s.handlers h with
    | some _ => some s
    | none => some { s.put h {} s.backend with clients := s.clients ++ [h] }
  | .handshake h id sysInfo =>
    match s.handlers h with
    | none => some s
    | some client =>
      (withDatabase misread (Handshake.handshake junk id sysInfo) s.backend).map
        (fun r => s.put h { client with computer := some r.1.2 } r.2)
  | .report h timestamp data =>
    match s.handlers h with
    | none => some s
    | some client =>
      (report misread client timestamp data s.backend).map (fun r => s.put h r.2.1 r.2.2)
  | .sendSysInfo h sysInfo =>
    match s.handlers h with
    | none => some s
    | some client =>
      client.computer.bind (fun c =>
        (withDatabase misread (c.setSysInfo sysInfo).updateDB s.backend).map
          (fun r => s.put h { client with computer := some r.1.2 } r.2))
  | .disconnect h =>
    match s.handlers h with
    | none => some s
    | some _ => do
      let id ← s.getId h
      let s ← s.removeClient id
      return { s with handlers := Function.update s.handlers h none }
  | .status => some s
  | .clients => if ∀ h ∈ s.clients, (s.getId h).isSome then some s else none
  | .infoClient id => (s.getClient id s.clients).map (fun _ => s)
  | .getSysInfo id => do
    match ← s.getClient id s.clients with
    | none => return s
    | some h =>
      let client ← s.handlers h
      return s.put h (client.addResponse { dataType := .kSendSystemInfo }) s.backend
  | .exec id timestamp cmd => do
    match ← s.getClient id s.clients with
    | none => return s
    | some h =>
      let client ← s.handlers h
      let (data, backend) ← withDatabase misread (runCommand id timestamp cmd) s.backend
      match data with
      | none => return s.put h client backend
      | some data => return s.put h (client.addResponse data) backend

end Steps

section Searches

/-- The handler is live and has its computer. -/
def RmsServer.Handshaken (s : RmsServer) (h : Nat) : Prop :=
  ∃ client c, s.handlers h = some client ∧ client.computer = some c

theorem getId_isSome_iff (s : RmsServer) (h : Nat) : (s.getId h).isSome ↔ s.Handshaken h := by
  cases hh : s.handlers h with
  | none => simp [RmsServer.getId, RmsServer.Handshaken, hh]
  | some client =>
    cases hc : client.computer with
    | none => simp [RmsServer.getId, RmsServer.Handshaken, hh, hc]
    | some c => simp [RmsServer.getId, RmsServer.Handshaken, hh, hc]

/-- Every client that the search for an id comes to has handshaken. -/
def RmsServer.Searchable (s : RmsServer) (id : Int) (hs : List Nat) : Prop :=
  ∀ before h after, hs = before ++ h :: after → (∀ g ∈ before, s.getId g ≠ some id) →
    s.Handshaken h

theorem searchable_cons (s : RmsServer) (id : Int) (h : Nat) (hs : List Nat) :
    s.Searchable id (h :: hs) ↔ s.Handshaken h ∧ (s.getId h ≠ some id → s.Searchable id hs) := by
  constructor
  · intro search
    refine ⟨search [] h hs rfl (by simp), fun other before g after split hbefore => ?_⟩
    exact search (h :: before) g after (by rw [split, List.cons_append]) (by simpa [other])
  · rintro ⟨first, rest⟩ before g after split hbefore
    cases before with
    | nil =>
      obtain ⟨rfl, -⟩ := List.cons.inj split
      exact first
    | cons b before =>
      obtain ⟨rfl, tail⟩ := List.cons.inj split
      simp only [List.forall_mem_cons] at hbefore
      exact rest hbefore.1 before g after tail hbefore.2

theorem getClient_isSome_iff (s : RmsServer) (id : Int) (hs : List Nat) :
    (s.getClient id hs).isSome ↔ s.Searchable id hs := by
  induction hs with
  | nil => simp [RmsServer.getClient, RmsServer.Searchable]
  | cons h hs ih =>
    rw [searchable_cons, ← getId_isSome_iff, RmsServer.getClient]
    cases hid : s.getId h with
    | none => simp
    | some i =>
      by_cases hi : i = id
      · simp [hi]
      · simp [hi, ih]

theorem getClient_eq_none {s : RmsServer} {id : Int} {hs : List Nat}
    (h : s.getClient id hs = some none) : ∀ g ∈ hs, s.getId g ≠ some id := by
  induction hs with
  | nil => simp
  | cons g hs ih =>
    rw [RmsServer.getClient] at h
    cases hid : s.getId g with
    | none => simp [hid] at h
    | some i =>
      by_cases hi : i = id
      · simp [hid, hi] at h
      · simp only [hid, hi, if_false] at h
        simpa [hid, hi] using ih h

theorem getClient_eq_some {s : RmsServer} {id : Int} {hs : List Nat} {h : Nat}
    (found : s.getClient id hs = some (some h)) : h ∈ hs ∧ s.getId h = some id := by
  induction hs with
  | nil => simp [RmsServer.getClient] at found
  | cons g hs ih =>
    rw [RmsServer.getClient] at found
    cases hid : s.getId g with
    | none => simp [hid] at found
    | some i =>
      by_cases hi : i = id
      · simp only [hid, hi, if_true, Option.some.injEq] at found
        exact ⟨found ▸ List.mem_cons_self, by rw [← found, hid, hi]⟩
      · simp only [hid, hi, if_false] at found
        exact ⟨List.mem_cons_of_mem g (ih found).1, (ih found).2⟩

end Searches

section Queries

variable (misread : List Char → Db → Option Outcome) (junk : VersionData)

def Backend.HasDatabase : Backend → Prop
  | .log => False
  | .sqlite _ _ => True

theorem withDatabase_isSome_iff {α : Type} (p : DbProgram α) (backend : Backend) :
    (withDatabase misread p backend).isSome ↔ backend.HasDatabase ∨ p.asks = false := by
  cases backend with
  | log => cases p <;> simp [withDatabase, Backend.HasDatabase]
  | sqlite ing conn => simp [withDatabase, Backend.HasDatabase]

/-- Only an id that is cut to -1 is handshaken without a query. -/
theorem asks_handshake (id : Int) (sysInfo : SystemInfo) :
    (Handshake.handshake junk id sysInfo).asks = false ↔ id ≠ -1 ∧ toInt32 id = -1 := by
  by_cases hid : id = -1
  · subst hid
    simp [Handshake.handshake, RmsComputer.addToDB, ask, Program.bind]
  · by_cases cut : toInt32 id = -1
    · have load : (RmsComputer.create (-1)).getFromDB junk =
          .ret (.ok false, RmsComputer.create (-1)) := rfl
      have update : ((RmsComputer.create (-1)).setSysInfo sysInfo).updateDB =
          .ret (false, (RmsComputer.create (-1)).setSysInfo sysInfo) :=
        if_pos (setSysInfo_computerId _ sysInfo)
      simp [Handshake.handshake, hid, cut, load, update]
    · simp [Handshake.handshake, RmsComputer.getFromDB, ask, Program.bind, hid, cut,
        RmsComputer.create]

theorem asks_updateStorages (success : Bool) (devs : List RmsStorageInfo) :
    (updateStorages success devs).asks = false ↔ ∀ dev ∈ devs, dev.dirty = false := by
  induction devs generalizing success with
  | nil => simp [updateStorages]
  | cons dev devs ih =>
    by_cases hd : dev.dirty = true
    · simp [updateStorages, hd, ask, Program.bind]
    · simp only [updateStorages, if_neg hd, bind_eq]
      rw [asks_bind_of_returns _ (fun _ => rfl), ih]
      simp [hd]

/-- An update asks nothing of the database if nothing is dirty. -/
theorem asks_updateDB (c : RmsComputer) : c.updateDB.asks = false ↔
    c.computerId = -1 ∨ (c.sysInfoDirty = false ∧ ∀ dev ∈ c.storageInfo, dev.dirty = false) := by
  by_cases valid : c.computerId = -1
  · simp [RmsComputer.updateDB, valid]
  · by_cases hd : c.sysInfoDirty = true
    · simp [RmsComputer.updateDB, RmsComputer.updateSysInfo, valid, hd, ask, Program.bind]
    · have first : c.updateSysInfo = .ret (true, false) := if_neg hd
      simp only [RmsComputer.updateDB, if_neg valid, bind_eq, first, ret_bind]
      rw [asks_bind_of_returns _ (fun _ => rfl), asks_updateStorages]
      simp [valid, hd]

/-- Data that get by without a computer: no usage point, no push that is due,
and no executor whose update fails. -/
def Untouching (ing : DbRequestIngestor) :
    Connection → List (Clock × RmsRequestData) → Prop
  | _, [] => True
  | conn, (clock, data) :: rest =>
    usagePoints data = [] ∧ clock.now ≤ ing.nextUsagePush ∧
      if data.dataType = .kExecutorResult then
        (answer misread (executorQuery data, false) conn).1.success = true ∧
          Untouching ing (answer misread (executorQuery data, false) conn).2 rest
      else Untouching ing conn rest

theorem run_ingestRequest_some (ing : DbRequestIngestor) (c : RmsComputer) (conn : Connection)
    (data : List (Clock × RmsRequestData)) :
    ((ingestRequest ing (some c) data).run (answer misread) conn).1.isSome := by
  induction data generalizing ing c conn with
  | nil => rfl
  | cons item rest ih =>
    obtain ⟨clock, data⟩ := item
    obtain ⟨c', conn', first⟩ := run_ingestRequestData (answer misread) clock data ing c conn
    simp only [ingestRequest, bind_eq, run_bind, first]
    exact ih _ c' conn'

theorem run_ingestRequest_null (ing : DbRequestIngestor) (conn : Connection)
    (data : List (Clock × RmsRequestData)) :
    ((ingestRequest ing none data).run (answer misread) conn).1.isSome ↔
      Untouching misread ing conn data := by
  induction data generalizing conn with
  | nil => simp [ingestRequest, Untouching]
  | cons item rest ih =>
    obtain ⟨clock, data⟩ := item
    rw [Untouching]
    by_cases points : usagePoints data = []
    · by_cases due : ing.nextUsagePush < clock.now
      · have push : pushIfDue clock ing none = .ret none := by
          simp [pushIfDue, DbRequestIngestor.usagePush, due]
        have late : ¬ clock.now ≤ ing.nextUsagePush := not_le.mpr due
        simp only [late, false_and, and_false, iff_false]
        simp only [ingestRequest, ingestRequestData, addPoints, points, if_true, bind_eq, pure_eq,
          run_bind, push, ite_self, run_ret]
        simp
      · have push : pushIfDue clock ing none = .ret (some ⟨ing, none, none⟩) := by
          simp [pushIfDue, DbRequestIngestor.usagePush, due]
        have early : clock.now ≤ ing.nextUsagePush := not_lt.mp due
        simp only [points, early, true_and]
        simp only [ingestRequest, ingestRequestData, addPoints, points, if_true, bind_eq, pure_eq,
          run_bind, push, updateExecutor]
        by_cases executor : data.dataType = .kExecutorResult
        · cases success : (answer misread (executorQuery data, false) conn).1.success with
          | false => simp [executor, success]
          | true => simp [executor, success, ih]
        · simp [executor, ih]
    · simp [ingestRequest, ingestRequestData, addPoints, points]

theorem report_isSome_iff (client : RmsClient) (timestamp : Int)
    (data : List (Clock × RmsRequestData)) (ing : DbRequestIngestor) (conn : Connection) :
    (report misread client timestamp data (.sqlite ing conn)).isSome ↔
      client.computer.isSome ∨ Untouching misread ing conn data := by
  have run : (report misread client timestamp data (.sqlite ing conn)).isSome ↔
      ((ingestRequest ing client.computer data).run (answer misread) conn).1.isSome := by
    simp only [report]
    cases (ingestRequest ing client.computer data).run (answer misread) conn with
    | mk out conn' => cases out <;> rfl
  rw [run]
  cases client.computer with
  | none => simp [run_ingestRequest_null]
  | some c => simp [run_ingestRequest_some]

end Queries

/-- The backend of a new database, started at time zero. -/
def sqlite : Backend := .sqlite (.create 0) freshConn

section Runs

variable (misread : List Char → Db → Option Outcome) (junk : VersionData)

/-- What each call needs so as not to follow a null pointer. -/
def Safe (s : RmsServer) : Event → Prop
  | .connect _ | .status => True
  | .handshake h id _ =>
    s.handlers h = none ∨ s.backend.HasDatabase ∨ (id ≠ -1 ∧ toInt32 id = -1)
  | .report h _ data => ∀ client ing conn, s.handlers h = some client →
      s.backend = .sqlite ing conn →
      client.computer.isSome ∨ Untouching misread ing conn data
  | .sendSysInfo h sysInfo => ∀ client, s.handlers h = some client →
      ∃ c, client.computer = some c ∧
        (s.backend.HasDatabase ∨ c.computerId = -1 ∨ (isSysInfoDirty c.sysInfo sysInfo = false ∧
          ∀ dev ∈ storagesAfter c.storageInfo sysInfo.storageInfo, dev.dirty = false))
  | .disconnect h => s.handlers h = none ∨
      (s.Handshaken h ∧ ∀ g ∈ s.clients, s.Handshaken g)
  | .clients => ∀ g ∈ s.clients, s.Handshaken g
  | .infoClient id | .getSysInfo id => s.Searchable id s.clients
  | .exec id _ _ => s.Searchable id s.clients ∧
      (s.backend.HasDatabase ∨ ∀ g ∈ s.clients, s.getId g ≠ some id)

theorem handler_of_getClient {s : RmsServer} {id : Int} {hs : List Nat} {h : Nat}
    (found : s.getClient id hs = some (some h)) : ∃ client, s.handlers h = some client := by
  have handshaken := (getId_isSome_iff s h).mp (by rw [(getClient_eq_some found).2]; rfl)
  obtain ⟨client, -, hclient, -⟩ := handshaken
  exact ⟨client, hclient⟩

/-- A command for a registered client is inserted first of all. -/
theorem exec_isSome_iff {s : RmsServer} {id : Int} {h : Nat}
    (found : s.getClient id s.clients = some (some h)) (timestamp : Int) (cmd : String) :
    (step misread junk s (.exec id timestamp cmd)).isSome ↔ s.backend.HasDatabase := by
  obtain ⟨client, hclient⟩ := handler_of_getClient found
  have query : (runCommand id timestamp cmd).asks = true := rfl
  have result := withDatabase_isSome_iff misread (runCommand id timestamp cmd) s.backend
  rw [query] at result
  simp only [Bool.true_eq_false, or_false] at result
  rw [← result]
  simp only [step, found]
  cases withDatabase misread (runCommand id timestamp cmd) s.backend with
  | none => simp
  | some r =>
    obtain ⟨data, backend⟩ := r
    cases data <;> simp [hclient]

/-- A step is defined exactly if it is safe. -/
theorem step_isSome_iff (s : RmsServer) (e : Event) :
    (step misread junk s e).isSome ↔ Safe misread s e := by
  cases e with
  | connect h =>
    simp only [step, Safe, iff_true]
    split <;> rfl
  | handshake h id sysInfo =>
    cases hh : s.handlers h with
    | none => simp [step, Safe, hh]
    | some client =>
      simp only [step, Safe, hh, Option.isSome_map, withDatabase_isSome_iff, asks_handshake]
      simp
  | report h timestamp data =>
    cases hh : s.handlers h with
    | none => simp [step, Safe, hh]
    | some client =>
      cases hb : s.backend with
      | log => simp [step, Safe, hh, hb, report]
      | sqlite ing conn => simp [step, Safe, hh, hb, report_isSome_iff]
  | sendSysInfo h sysInfo =>
    cases hh : s.handlers h with
    | none => simp [step, Safe, hh]
    | some client =>
      cases hc : client.computer with
      | none => simp [step, Safe, hh, hc]
      | some c =>
        simp only [step, Safe, hh, hc, Option.bind_some, Option.isSome_map,
          withDatabase_isSome_iff, asks_updateDB]
        simp [setSysInfo_eq, hc]
  | disconnect h =>
    cases hh : s.handlers h with
    | none => simp [step, Safe, hh]
    | some client =>
      simp only [step, Safe, hh, ← getId_isSome_iff]
      cases hid : s.getId h with
      | none => simp
      | some id =>
        by_cases all : ∀ g ∈ s.clients, (s.getId g).isSome
        · rw [Option.bind_eq_bind, Option.bind_some, RmsServer.removeClient, if_pos all]
          simpa using all
        · rw [Option.bind_eq_bind, Option.bind_some, RmsServer.removeClient, if_neg all]
          simpa using all
  | status => simp [step, Safe]
  | clients =>
    simp only [step, Safe, ← getId_isSome_iff]
    split <;> simp_all
  | infoClient id => simp [step, Safe, getClient_isSome_iff]
  | getSysInfo id =>
    simp only [step, Safe, ← getClient_isSome_iff]
    cases found : s.getClient id s.clients with
    | none => rfl
    | some o =>
      cases o with
      | none => rfl
      | some h =>
        obtain ⟨client, hclient⟩ := handler_of_getClient found
        simp [hclient]
  | exec id timestamp cmd =>
    rw [Safe, ← getClient_isSome_iff]
    cases found : s.getClient id s.clients with
    | none => simp [step, found]
    | some o =>
      cases o with
      | none => simpa [step, found] using Or.inr (getClient_eq_none found)
      | some h =>
        obtain ⟨mem, hid⟩ := getClient_eq_some found
        have matched : ¬ ∀ g ∈ s.clients, s.getId g ≠ some id := fun none => none h mem hid
        simp [exec_isSome_iff misread junk found, matched]

/-- A run follows no null pointer exactly if every step of it is safe. -/
theorem run_isSome_iff_safe (backend : Backend) (es : List Event) :
    (run (step misread junk) (start backend) es).isSome ↔
      Guarded (step misread junk) (Safe misread) (start backend) es :=
  run_isSome_iff (step_isSome_iff misread junk) (start backend) es

/-- In either mode a client that has not handshaken yet ends the server when
the clients are listed. -/
theorem unready_run_undefined :
    run (step (fun _ _ => none) {}) (start .log) [.connect 0, .clients] = none ∧
      run (step (fun _ _ => none) {}) (start sqlite) [.connect 0, .clients] = none ∧
      run (step (fun _ _ => none) {}) (start .log) [.connect 0, .handshake 0 (-1) {}] = none :=
  ⟨rfl, rfl, rfl⟩

/-- Each live handler is registered once, and nothing else is. -/
def Registered (s : RmsServer) : Prop :=
  ∀ h, s.clients.count h = if (s.handlers h).isSome then 1 else 0

/-- A handler is released while no other registered one has its computer's id. -/
def Unshared (s : RmsServer) : Event → Prop
  | .disconnect h => ∀ g ∈ s.clients, g ≠ h → s.getId g ≠ s.getId h
  | _ => True

instance decidableUnshared (s : RmsServer) : ∀ e, Decidable (Unshared s e)
  | .disconnect h => inferInstanceAs (Decidable (∀ g ∈ s.clients, g ≠ h → s.getId g ≠ s.getId h))
  | .connect _ | .handshake _ _ _ | .report _ _ _ | .sendSysInfo _ _ | .status | .clients
  | .infoClient _ | .getSysInfo _ | .exec _ _ _ => isTrue trivial

theorem live_put_iff {handlers : Nat → Option RmsClient} {h g : Nat} {client : RmsClient} :
    (Function.update handlers h (some client) g).isSome ↔ g = h ∨ (handlers g).isSome := by
  by_cases own : g = h <;> simp [own]

theorem live_delete_iff {handlers : Nat → Option RmsClient} {h g : Nat} :
    (Function.update handlers h none g).isSome ↔ g ≠ h ∧ (handlers g).isSome := by
  by_cases own : g = h <;> simp [own]

theorem registered_put {s : RmsServer} (hs : Registered s) {h : Nat} {old : RmsClient}
    (live : s.handlers h = some old) (client : RmsClient) (backend : Backend) :
    Registered (s.put h client backend) := by
  intro g
  have count := hs g
  by_cases hg : g = h
  · subst hg
    simpa [RmsServer.put, live] using count
  · simpa [RmsServer.put, hg] using count

theorem registered_connect {s : RmsServer} (hs : Registered s) {h : Nat}
    (fresh : s.handlers h = none) :
    Registered { s.put h {} s.backend with clients := s.clients ++ [h] } := by
  intro g
  have count := hs g
  by_cases hg : g = h
  · subst hg
    simpa [RmsServer.put, fresh, List.count_append] using count
  · simpa [RmsServer.put, hg, Ne.symm hg, List.count_append] using count

theorem registered_disconnect {s : RmsServer} (hs : Registered s) {h : Nat} {id : Int}
    (own : s.getId h = some id) (unshared : ∀ g ∈ s.clients, g ≠ h → s.getId g ≠ some id) :
    Registered { s with
      clients := s.clients.filter (fun g => s.getId g ≠ some id)
      handlers := Function.update s.handlers h none } := by
  intro g
  change (s.clients.filter (fun g => s.getId g ≠ some id)).count g =
    if (Function.update s.handlers h none g).isSome then 1 else 0
  by_cases hg : g = h
  · subst hg
    have removed : g ∉ s.clients.filter (fun g => s.getId g ≠ some id) := by simp [own]
    rw [List.count_eq_zero_of_not_mem removed, Function.update_self]
    rfl
  · have kept : (s.clients.filter (fun g => s.getId g ≠ some id)).count g = s.clients.count g := by
      by_cases mem : g ∈ s.clients
      · exact List.count_filter (by simpa using unshared g mem hg)
      · rw [List.count_eq_zero_of_not_mem mem,
          List.count_eq_zero_of_not_mem (fun h => mem (List.mem_filter.mp h).1)]
    rw [kept, Function.update_of_ne hg, hs g]

theorem disconnect_eq {s t : RmsServer} {h : Nat} {client : RmsClient}
    (live : s.handlers h = some client) (ht : step misread junk s (.disconnect h) = some t) :
    ∃ id, s.getId h = some id ∧ t = { s with
      clients := s.clients.filter (fun g => s.getId g ≠ some id)
      handlers := Function.update s.handlers h none } := by
  simp only [step, live, Option.bind_eq_bind, Option.bind_eq_some_iff, pure,
    Option.some.injEq] at ht
  obtain ⟨id, own, rest, removed, rfl⟩ := ht
  rw [RmsServer.removeClient, Option.ite_none_right_eq_some] at removed
  rw [← Option.some.inj removed.2]
  exact ⟨id, own, rfl⟩

theorem getSysInfo_eq {s t : RmsServer} {id : Int}
    (ht : step misread junk s (.getSysInfo id) = some t) :
    t = s ∨ ∃ k client, s.handlers k = some client ∧
      t = s.put k (client.addResponse { dataType := .kSendSystemInfo }) s.backend := by
  simp only [step, Option.bind_eq_bind, Option.bind_eq_some_iff] at ht
  obtain ⟨found, -, ht⟩ := ht
  cases found with
  | none => exact Or.inl (Option.some.inj ht).symm
  | some k =>
    simp only [Option.bind_eq_some_iff, pure, Option.some.injEq] at ht
    obtain ⟨client, live, rfl⟩ := ht
    exact Or.inr ⟨k, client, live, rfl⟩

/-- The client that is found has the command inserted, and its response queued
if there is one. -/
theorem exec_eq {s t : RmsServer} {id timestamp : Int} {cmd : String}
    (ht : step misread junk s (.exec id timestamp cmd) = some t) :
    (s.getClient id s.clients = some none ∧ t = s) ∨
      ∃ k client data backend, s.getClient id s.clients = some (some k) ∧
        s.handlers k = some client ∧
        withDatabase misread (runCommand id timestamp cmd) s.backend = some (data, backend) ∧
        t = s.put k (data.elim client client.addResponse) backend := by
  simp only [step, Option.bind_eq_bind, Option.bind_eq_some_iff] at ht
  obtain ⟨found, search, ht⟩ := ht
  cases found with
  | none => exact Or.inl ⟨search, (Option.some.inj ht).symm⟩
  | some k =>
    simp only [Option.bind_eq_some_iff] at ht
    obtain ⟨client, live, ⟨data, backend⟩, asked, ht⟩ := ht
    refine Or.inr ⟨k, client, data, backend, search, live, asked, ?_⟩
    cases data <;> exact (Option.some.inj ht).symm

/-- A release with a shared id loses the other handler. -/
theorem unshared_of_registered {s t : RmsServer} (hs : Registered s) {h : Nat} {client : RmsClient}
    (live : s.handlers h = some client) (ht : step misread junk s (.disconnect h) = some t)
    (registered : Registered t) : Unshared s (.disconnect h) := by
  obtain ⟨id, own, rfl⟩ := disconnect_eq misread junk live ht
  intro g mem hg shared
  have before := hs g
  have after : _ = if (Function.update s.handlers h none g).isSome then 1 else 0 := registered g
  have lost : g ∉ s.clients.filter (fun g => s.getId g ≠ some id) := by simp [shared, own]
  have present : 0 < s.clients.count g := List.count_pos_iff.mpr mem
  rw [List.count_eq_zero_of_not_mem lost, Function.update_of_ne hg] at after
  omega

/-- Apart from connects and disconnects a step leaves the registry as it is and
writes at most one client that is there. -/
theorem step_puts {s t : RmsServer} {e : Event} (connects : ∀ k, e ≠ .connect k)
    (disconnects : ∀ k, e ≠ .disconnect k) (h : step misread junk s e = some t) :
    t = s ∨ ∃ k client client' backend, s.handlers k = some client ∧
      t = s.put k client' backend := by
  cases e with
  | connect k => exact absurd rfl (connects k)
  | disconnect k => exact absurd rfl (disconnects k)
  | handshake k id sysInfo =>
    cases live : s.handlers k with
    | none =>
      simp only [step, live, Option.some.injEq] at h
      exact Or.inl h.symm
    | some client =>
      simp only [step, live, Option.map_eq_some_iff] at h
      obtain ⟨r, -, rfl⟩ := h
      exact Or.inr ⟨k, client, _, _, live, rfl⟩
  | report k timestamp data =>
    cases live : s.handlers k with
    | none =>
      simp only [step, live, Option.some.injEq] at h
      exact Or.inl h.symm
    | some client =>
      simp only [step, live, Option.map_eq_some_iff] at h
      obtain ⟨r, -, rfl⟩ := h
      exact Or.inr ⟨k, client, _, _, live, rfl⟩
  | sendSysInfo k sysInfo =>
    cases live : s.handlers k with
    | none =>
      simp only [step, live, Option.some.injEq] at h
      exact Or.inl h.symm
    | some client =>
      simp only [step, live, Option.bind_eq_some_iff, Option.map_eq_some_iff] at h
      obtain ⟨c, -, r, -, rfl⟩ := h
      exact Or.inr ⟨k, client, _, _, live, rfl⟩
  | status =>
    simp only [step, Option.some.injEq] at h
    exact Or.inl h.symm
  | clients =>
    rw [step, Option.ite_none_right_eq_some, Option.some.injEq] at h
    exact Or.inl h.2.symm
  | infoClient id =>
    simp only [step, Option.map_eq_some_iff] at h
    obtain ⟨_, -, rfl⟩ := h
    exact Or.inl rfl
  | getSysInfo id =>
    rcases getSysInfo_eq misread junk h with same | ⟨k, client, live, moved⟩
    · exact Or.inl same
    · exact Or.inr ⟨k, client, _, _, live, moved⟩
  | exec id timestamp cmd =>
    rcases exec_eq misread junk h with ⟨-, same⟩ | ⟨k, client, data, backend, -, live, -, moved⟩
    · exact Or.inl same
    · exact Or.inr ⟨k, client, _, _, live, moved⟩

theorem step_registered (s : RmsServer) (e : Event) (t : RmsServer) (hs : Registered s)
    (unshared : Unshared s e) (h : step misread junk s e = some t) : Registered t := by
  by_cases connects : ∃ k, e = .connect k
  · obtain ⟨k, rfl⟩ := connects
    cases live : s.handlers k with
    | some client =>
      simp only [step, live, Option.some.injEq] at h
      exact h ▸ hs
    | none =>
      simp only [step, live, Option.some.injEq] at h
      exact h ▸ registered_connect hs live
  by_cases disconnects : ∃ k, e = .disconnect k
  · obtain ⟨k, rfl⟩ := disconnects
    cases live : s.handlers k with
    | none =>
      simp only [step, live, Option.some.injEq] at h
      exact h ▸ hs
    | some client =>
      obtain ⟨id, own, rfl⟩ := disconnect_eq misread junk live h
      exact registered_disconnect hs own (fun g mem hg => own ▸ unshared g mem hg)
  rcases step_puts misread junk (not_exists.mp connects) (not_exists.mp disconnects) h with
    rfl | ⟨k, client, client', backend, live, rfl⟩
  · exact hs
  · exact registered_put hs live _ _

theorem registered_start (backend : Backend) : Registered (start backend) := fun _ => rfl

/-- While released handlers share no id with a registered one, the list of
clients stays the list of live handlers. -/
theorem unshared_run_registered (backend : Backend) (es : List Event) (s : RmsServer)
    (unshared : Guarded (step misread junk) Unshared (start backend) es)
    (h : run (step misread junk) (start backend) es = some s) : Registered s :=
  run_invariant (step_registered misread junk) (registered_start backend) unshared h

end Runs

def twoPcs : List Event :=
  [.connect 0, .handshake 0 (-1) { hostName := "a" }, .connect 1,
    .handshake 1 (-1) { hostName := "b" }, .disconnect 0]

/-- Two computers, one of which leaves. -/
theorem unshared_run_registered_twoPcs :
    Registered ((run (step (fun _ _ => none) {}) (start sqlite) twoPcs).get (by decide +kernel)) :=
  unshared_run_registered _ _ sqlite twoPcs _ (by decide +kernel) (Option.some_get _).symm

def reconnect : List Event :=
  [.connect 0, .handshake 0 (-1) { hostName := "a" }, .connect 1,
    .handshake 1 1 { hostName := "a" }, .disconnect 0]

/-- The computer has its new connection when its old one is released. -/
theorem reconnect_not_registered :
    ¬ Registered ((run (step (fun _ _ => none) {}) (start sqlite) reconnect).get
      (by decide +kernel)) := by
  intro registered
  exact absurd (registered 1) (by decide +kernel)

end Server
