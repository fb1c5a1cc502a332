import RemoteManagement.Handshake
import RemoteManagement.Library.GuardedRun

/-!
# Calls as the database sees them

`handshake` and `sendSysInfo` one query at a time, with the queries of other
calls in between. Where a call stands is the computer as it is and what is left
to do; each answer takes the call to its next query. A call that is left alone
runs as its program does.
-/

namespace DatabaseCalls

open ThriftTypes SqlStatements ExecuteQuery Database DecimalText QueryProgram Program GuardedRun
open Computer Handshake

/-- A call before one of its queries, or after all of them. A report that is
set only after the computer was loaded or added waits in `later`. -/
inductive Call where
  | idle (c : RmsComputer)
  | fetchingComputer (computerId : Int) (valid : computerId ≠ -1) (report : SystemInfo)
  | fetchingStorage (computerId : Int) (sysInfo report : SystemInfo)
  | insertingComputer (c : RmsComputer) (later : Option SystemInfo)
  | insertingStorages (c : RmsComputer) (front : List RmsStorageInfo) (dev : RmsStorageInfo)
    (back : List RmsStorageInfo) (later : Option SystemInfo)
  | updatingComputer (c : RmsComputer) (valid : c.computerId ≠ -1)
    (dirty : c.sysInfoDirty = true)
  | updatingStorages (c : RmsComputer) (front : List RmsStorageInfo) (dev : RmsStorageInfo)
    (back : List RmsStorageInfo) (dirty : dev.dirty = true)

/-- The computer as it is while the call waits for an answer. -/
def Call.computer : Call → RmsComputer
  | .idle c | .insertingComputer c _ | .updatingComputer c _ _ => c
  | .fetchingComputer computerId _ _ => .create computerId
  | .fetchingStorage computerId sysInfo _ => { RmsComputer.create computerId with sysInfo := sysInfo }
  | .insertingStorages c front dev back _ => { c with storageInfo := front ++ dev :: back }
  | .updatingStorages c front dev back _ => { c with storageInfo := front ++ dev :: back }

/-- The query, and whether the id of its row is asked for. -/
def Call.asks : Call → Option (Query × Bool)
  | .idle _ => none
  | .fetchingComputer computerId _ _ => some (.fetchComputerById computerId, false)
  | .fetchingStorage computerId _ _ => some (.fetchStorageByComputerId computerId, false)
  | .insertingComputer c _ => some (.insertComputer c.insertArgs, true)
  | .insertingStorages c _ dev _ _ => some (insertStorage c.computerId dev, true)
  | .updatingComputer c _ _ => some (.updateComputer c.updateArgs c.computerId, false)
  | .updatingStorages _ _ dev _ _ => some (updateStorage dev, false)

section Steps

/-- The loop of `updateDB`, at the records after `front`. -/
def updates (c : RmsComputer) (front : List RmsStorageInfo) : List RmsStorageInfo → Call
  | [] => .idle { c with storageInfo := front }
  | dev :: back =>
    if dirty : dev.dirty = true then .updatingStorages c front dev back dirty
    else updates c (front ++ [dev]) back

def updateDB (c : RmsComputer) : Call :=
  if valid : c.computerId = -1 then .idle c
  else if dirty : c.sysInfoDirty = true then .updatingComputer c valid dirty
  else updates c [] c.storageInfo

/-- After `getFromDB` the report is set; after the `addToDB` of a new computer
nothing is left to do. -/
def afterwards (c : RmsComputer) : Option SystemInfo → Call
  | none => .idle c
  | some report => updateDB (c.setSysInfo report)

/-- The loop of `addToDB`, at the records after `front`. -/
def inserts (c : RmsComputer) (front : List RmsStorageInfo) (later : Option SystemInfo) :
    List RmsStorageInfo → Call
  | [] => afterwards { c with storageInfo := front } later
  | dev :: back => .insertingStorages c front dev back later

variable (junk : VersionData)

/-- The call after the answer to its query. An exception ends it. -/
def Call.resume : Call → RmsQueryResult → Call
  | .idle c, _ => .idle c
  | .fetchingComputer computerId _ report, res =>
    let c := RmsComputer.create computerId
    match res.success, res.tableRows with
    | true, [row] =>
      match loadColumns (loadComputerColumn junk) c.sysInfo (res.columnNames.zip row) with
      | (.error _, info) => .idle { c with sysInfo := info }
      | (.ok (), info) => .fetchingStorage computerId info report
    | true, _ => .insertingComputer c (some report)
    | false, _ => afterwards c (some report)
  | .fetchingStorage computerId sysInfo report, res =>
    let c := { RmsComputer.create computerId with sysInfo := sysInfo }
    if res.success ∧ res.tableRows.length > 0 then
      match loadStorages res.columnNames res.tableRows with
      | (.error _, infos) => .idle { c with storageInfo := infos }
      | (.ok (), infos) => afterwards { c with storageInfo := infos } (some report)
    else afterwards c (some report)
  | .insertingComputer c later, res =>
    if res.success then inserts { c with computerId := res.lastId.getD 0 } [] later c.storageInfo
    else afterwards c later
  | .insertingStorages c front dev back later, res =>
    inserts c (front ++ [inserted dev res]) later back
  | .updatingComputer c _ _, res =>
    updates { c with sysInfoDirty := !res.success } [] c.storageInfo
  | .updatingStorages c front dev back _, res =>
    updates c (front ++ [{ dev with dirty := !res.success }]) back

/-- `handshake` up to its first query. -/
def beginHandshake (id : Int) (report : SystemInfo) : Call :=
  let c := RmsComputer.create (toInt32 id)
  if id ≠ -1 then
    if valid : toInt32 id = -1 then afterwards c (some report)
    else .fetchingComputer (toInt32 id) valid report
  else .insertingComputer (c.setSysInfo report) none

end Steps

section Programs

/-- What `afterwards` is the beginning of. -/
def afterwardsProgram (c : RmsComputer) : Option SystemInfo → DbProgram RmsComputer
  | none => .ret c
  | some report => (c.setSysInfo report).updateDB.bind (fun r => .ret r.2)

def loadedProgram (report : SystemInfo) :
    Except StdException Bool × RmsComputer → DbProgram RmsComputer
  | (.error _, c) => .ret c
  | (.ok _, c) => afterwardsProgram c (some report)

variable (junk : VersionData)

/-- What is left of the call, and the computer that it leaves. -/
def Call.program : Call → DbProgram RmsComputer
  | .idle c => .ret c
  | .fetchingComputer computerId _ report =>
    ((RmsComputer.create computerId).getFromDB junk).bind (loadedProgram report)
  | .fetchingStorage computerId sysInfo report =>
    (RmsComputer.getStorageFromDB { RmsComputer.create computerId with sysInfo := sysInfo }).bind
      (loadedProgram report)
  | .insertingComputer c later => c.addToDB.bind (fun r => afterwardsProgram r.2 later)
  | .insertingStorages c front dev back later =>
    (addStorages c.computerId (dev :: back)).bind
      (fun devs => afterwardsProgram { c with storageInfo := front ++ devs } later)
  | .updatingComputer c _ _ => c.updateDB.bind (fun r => .ret r.2)
  | .updatingStorages c front dev back _ =>
    (updateStorages true (dev :: back)).bind
      (fun r => .ret { c with storageInfo := front ++ r.2 })

theorem program_updates (c : RmsComputer) (front back : List RmsStorageInfo) (success : Bool) :
    (updates c front back).program junk = (updateStorages success back).bind
      (fun r => .ret { c with storageInfo := front ++ r.2 }) := by
  induction back generalizing front success with
  | nil => simp [updates, updateStorages, Call.program]
  | cons dev back ih =>
    by_cases dirty : dev.dirty = true
    · rw [updates, dif_pos dirty]
      simp [updateStorages, Call.program, dirty]
    · rw [updates, dif_neg dirty, ih (front ++ [dev]) success, updateStorages, if_neg dirty]
      simp [bind_bind]

theorem program_updateDB (c : RmsComputer) :
    (updateDB c).program junk = c.updateDB.bind (fun r => .ret r.2) := by
  rw [updateDB]
  split
  · rename_i invalid
    simp [RmsComputer.updateDB, invalid, Call.program]
  · rename_i valid
    split
    · rfl
    · rename_i clean
      obtain ⟨computerId, sysInfo, storageInfo, networkInfo, usageInfo, dirty⟩ := c
      obtain rfl : dirty = false := by simpa using clean
      rw [program_updates junk _ [] storageInfo true, RmsComputer.updateDB, if_neg valid,
        RmsComputer.updateSysInfo, if_neg clean]
      simp [bind_bind]

theorem program_afterwards (c : RmsComputer) (later : Option SystemInfo) :
    (afterwards c later).program junk = afterwardsProgram c later := by
  cases later with
  | none => rfl
  | some report => exact program_updateDB junk (c.setSysInfo report)

theorem program_inserts (c : RmsComputer) (front back : List RmsStorageInfo)
    (later : Option SystemInfo) :
    (inserts c front later back).program junk = (addStorages c.computerId back).bind
      (fun devs => afterwardsProgram { c with storageInfo := front ++ devs } later) := by
  cases back with
  | nil => simp [inserts, addStorages, program_afterwards]
  | cons dev back => rfl

/-- A computer is found, or added while it is loaded, or left as it is. -/
theorem program_fetchingComputer (computerId : Int) (valid : computerId ≠ -1)
    (report : SystemInfo) :
    (Call.fetchingComputer computerId valid report).program junk =
      .query (.fetchComputerById computerId, false) (fun res =>
        ((Call.fetchingComputer computerId valid report).resume junk res).program junk) := by
  have created : (RmsComputer.create computerId).computerId = computerId := rfl
  rw [Call.program, RmsComputer.getFromDB, created, if_neg valid]
  refine congrArg (query _) (funext fun res => ?_)
  cases success : res.success with
  | false => simp [Call.resume, success, loadedProgram, program_afterwards]
  | true =>
    rcases rows : res.tableRows with _ | ⟨row, _ | ⟨row', rows'⟩⟩
    · simp [Call.resume, success, rows, loadedProgram, Call.program, bind_bind]
    · cases columns : loadColumns (loadComputerColumn junk) (RmsComputer.create computerId).sysInfo
          (res.columnNames.zip row) with
      | mk done info =>
        cases done <;>
          simp [Call.resume, success, rows, columns, loadedProgram, Call.program, created]
    · simp [Call.resume, success, rows, loadedProgram, Call.program, bind_bind]

theorem program_fetchingStorage (computerId : Int) (sysInfo report : SystemInfo) :
    (Call.fetchingStorage computerId sysInfo report).program junk =
      .query (.fetchStorageByComputerId computerId, false) (fun res =>
        ((Call.fetchingStorage computerId sysInfo report).resume junk res).program junk) := by
  rw [Call.program, RmsComputer.getStorageFromDB]
  refine congrArg (query _) (funext fun res => ?_)
  simp only [Call.resume, ret_bind]
  by_cases found : res.success = true ∧ res.tableRows.length > 0
  · rw [if_pos found, if_pos found]
    cases loadStorages res.columnNames res.tableRows with
    | mk done infos =>
      cases done with
      | error e => rfl
      | ok => simp [program_afterwards, loadedProgram, Except.map, RmsComputer.create]
  · rw [if_neg found, if_neg found, program_afterwards]
    rfl

/-- Each answer leaves what the program does with it. -/
theorem program_eq (call : Call) :
    call.program junk = match call.asks with
      | none => .ret call.computer
      | some ask => .query ask (fun res => (call.resume junk res).program junk) := by
  cases call with
  | idle c => rfl
  | fetchingComputer computerId valid report =>
    exact program_fetchingComputer junk computerId valid report
  | fetchingStorage computerId sysInfo report =>
    exact program_fetchingStorage junk computerId sysInfo report
  | insertingComputer c later =>
    rw [Call.program, RmsComputer.addToDB]
    refine congrArg (query _) (funext fun res => ?_)
    by_cases success : res.success = true
    · simp [Call.resume, success, program_inserts, bind_bind]
    · simp [Call.resume, success, program_afterwards]
  | insertingStorages c front dev back later =>
    rw [Call.program, addStorages]
    refine congrArg (query _) (funext fun res => ?_)
    simp [Call.resume, program_inserts, bind_bind]
  | updatingComputer c valid dirty =>
    rw [Call.program, RmsComputer.updateDB, if_neg valid, RmsComputer.updateSysInfo, if_pos dirty]
    refine congrArg (query _) (funext fun res => ?_)
    simp [Call.resume, program_updates junk _ _ _ res.success, bind_bind]
  | updatingStorages c front dev back dirty =>
    rw [Call.program, updateStorages, if_pos dirty]
    refine congrArg (query _) (funext fun res => ?_)
    simp [Call.resume, program_updates junk _ _ _ res.success, bind_bind]

/-- A handshake begins what `handshake` is. -/
theorem program_beginHandshake (id : Int) (report : SystemInfo) :
    (beginHandshake id report).program junk =
      (handshake junk id report).bind (fun r => .ret r.2) := by
  rw [beginHandshake, handshake]
  split
  · split
    · rename_i cut
      simp [program_afterwards, RmsComputer.getFromDB, RmsComputer.create, cut, afterwardsProgram,
        bind_bind]
    · simp only [Call.program, bind_eq, bind_bind]
      congr 1
      funext r
      obtain ⟨done, c⟩ := r
      cases done with
      | error e => rfl
      | ok b => simp [loadedProgram, afterwardsProgram, bind_bind]
  · simp [Call.program, afterwardsProgram, bind_bind]

end Programs

section Clients

variable {K : Type} [DecidableEq K] (misread : List Char → Db → Option Outcome)
  (junk : VersionData)

/-- The computer that each client has since its last handshake, with the call
that is at work on it, and the database. -/
structure State (K : Type) where
  calls : K → Option Call
  conn : Connection

inductive Event (K : Type) where
  | handshake (k : K) (id : Int) (report : SystemInfo)
  | sendSysInfo (k : K) (report : SystemInfo)
  | query (k : K)

/-- A client makes one call after the other; the queries of all calls come in
any order. -/
def step (s : State K) : Event K → Option (State K)
  | .handshake k id report =>
    match (s.calls k).bind Call.asks with
    | some _ => none
    | none => some { s with calls := Function.update s.calls k (some (beginHandshake id report)) }
  | .sendSysInfo k report =>
    match s.calls k with
    | some (.idle c) =>
      some { s with calls := Function.update s.calls k (some (updateDB (c.setSysInfo report))) }
    | _ => none
  | .query k =>
    match s.calls k with
    | none => none
    | some call => call.asks.map fun ask =>
      let (res, conn) := answer misread ask s.conn
      ⟨Function.update s.calls k (some (call.resume junk res)), conn⟩

theorem idle_of_asks_none {call : Call} (h : call.asks = none) : call = .idle call.computer := by
  cases call with
  | idle c => rfl
  | _ => cases h

/-- A call whose queries are answered one after the other runs as its program. -/
theorem run_alone (call : Call) {k : K} {s : State K} (own : s.calls k = some call) :
    let r := (call.program junk).run (answer misread) s.conn
    ∃ n, run (step misread junk) s (List.replicate n (.query k)) =
      some ⟨Function.update s.calls k (some (.idle r.1)), r.2⟩ := by
  generalize hp : call.program junk = p
  induction p generalizing call s with
  | ret c =>
    rw [program_eq] at hp
    cases asks : call.asks with
    | some ask => simp [asks] at hp
    | none =>
      rw [asks] at hp
      obtain rfl := ret.inj hp
      refine ⟨0, congrArg some ?_⟩
      rw [run_ret, ← idle_of_asks_none asks, ← own, Function.update_eq_self]
  | query q next ih =>
    rw [program_eq] at hp
    cases asks : call.asks with
    | none => simp [asks] at hp
    | some ask =>
      rw [asks] at hp
      obtain ⟨rfl, rfl⟩ := query.inj hp
      let t : State K :=
        ⟨Function.update s.calls k (some (call.resume junk (answer misread ask s.conn).1)),
          (answer misread ask s.conn).2⟩
      have first : step misread junk s (.query k) = some t := by simp [step, own, asks, t]
      obtain ⟨n, later⟩ := ih (answer misread ask s.conn).1 _ (s := t) (Function.update_self ..) rfl
      refine ⟨n + 1, ?_⟩
      rw [List.replicate_succ, GuardedRun.run, first, Option.bind_some, later, run_query]
      simp [t]

theorem handshake_alone {k : K} {s : State K} (free : (s.calls k).bind Call.asks = none) (id : Int)
    (report : SystemInfo) :
    let r := runHandshake misread junk id report s.conn
    ∃ n, run (step misread junk) s (.handshake k id report :: List.replicate n (.query k)) =
      some ⟨Function.update s.calls k (some (.idle r.1.2)), r.2⟩ := by
  obtain ⟨n, later⟩ := run_alone misread junk (beginHandshake id report) (k := k)
    (s := { s with calls := Function.update s.calls k (some (beginHandshake id report)) })
    (Function.update_self ..)
  refine ⟨n, ?_⟩
  rw [GuardedRun.run, step, free, Option.bind_some, later, program_beginHandshake]
  simp [runHandshake]

theorem sendSysInfo_alone {k : K} {s : State K} {c : RmsComputer} (own : s.calls k = some (.idle c))
    (report : SystemInfo) :
    let r := ((c.setSysInfo report).updateDB).run (answer misread) s.conn
    ∃ n, run (step misread junk) s (.sendSysInfo k report :: List.replicate n (.query k)) =
      some ⟨Function.update s.calls k (some (.idle r.1.2)), r.2⟩ := by
  obtain ⟨n, later⟩ := run_alone misread junk (updateDB (c.setSysInfo report)) (k := k)
    (s := { s with calls := Function.update s.calls k (some (updateDB (c.setSysInfo report))) })
    (Function.update_self ..)
  refine ⟨n, ?_⟩
  rw [GuardedRun.run, step, own, Option.bind_some, later, program_updateDB]
  simp

end Clients

end DatabaseCalls
