import RemoteManagement.TerminalLines
import RemoteManagement.Library.LineInput

/-!
# A session at the terminal

The loop reads a line and acts on it until the line is `exit`, without a look at
the stream. The server has clients between any two of its turns. What the loop
does to the server is a run of the server, with the calls of the lines that are
typed in their places; when the text has ended, its last line has the same call
again and again.
-/

namespace TerminalSession

open ThriftTypes SqlStatements ExecuteQuery Database DecimalText GuardedRun Server
open TerminalLines LineInput

structure Session where
  server : RmsServer
  input : Input
  cmd : List Char := []
  left : Bool := false

inductive Event where
  | turn (timestamp : Int)
  | client (e : Server.Event)

def start (server : RmsServer) (text : List Char) : Session where
  server := server
  input := ⟨text, false⟩

/-- The server's events that a line comes to. -/
def called : Reaction → List Server.Event
  | .call e => [e]
  | .leave | .print => []

/-- The events of the server, where the turns find these lines. -/
def calls : (Nat → List Char) → List Event → List Server.Event
  | _, [] => []
  | found, .turn timestamp :: es =>
    called (react (found 0) timestamp) ++ calls (fun k => found (k + 1)) es
  | found, .client e :: es => e :: calls found es

def turns : List Event → Nat
  | [] => 0
  | .turn _ :: es => turns es + 1
  | .client _ :: es => turns es

/-- What the turns to come find. -/
def Session.next (s : Session) (k : Nat) : List Char := (s.input.reads s.cmd (k + 1)).1

section Sessions

variable (misread : List Char → Db → Option Outcome) (junk : VersionData)

def step (s : Session) : Event → Option Session
  | .turn timestamp =>
    if s.left then none
    else
      let (cmd, input) := s.input.getline s.cmd
      (rmsTerminal misread junk s.server cmd timestamp).map
        (fun server => ⟨server, input, cmd, cmd = "exit".toList⟩)
  | .client e =>
    (Server.step misread junk s.server e).map (fun server => { s with server := server })

theorem rmsTerminal_eq_run (s : RmsServer) (line : List Char) (timestamp : Int) :
    rmsTerminal misread junk s line timestamp =
      run (Server.step misread junk) s (called (react line timestamp)) := by
  rw [rmsTerminal]
  cases react line timestamp with
  | leave | print => rfl
  | call e => exact (Option.bind_fun_some _).symm

/-- Once it has been left there are no more turns. -/
theorem run_left {s : Session} (left : s.left = true) (found : Nat → List Char) (es : List Event) :
    run (step misread junk) s es =
      if turns es = 0 then
        (run (Server.step misread junk) s.server (calls found es)).map
          (fun server => { s with server := server })
      else none := by
  induction es generalizing s with
  | nil => rfl
  | cons e es ih =>
    cases e with
    | turn timestamp => simp [run, step, left, turns]
    | client e =>
      simp only [run, step, turns, calls]
      cases Server.step misread junk s.server e with
      | none => simp
      | some server => exact ih (s := { s with server := server }) left

/-- The session arrives where the server does, if no turn but the last finds the
line that ends it. -/
theorem run_session {s : Session} (stays : s.left = false) (es : List Event) :
    run (step misread junk) s es =
      if ∀ k < turns es - 1, s.next k ≠ "exit".toList then
        (run (Server.step misread junk) s.server (calls s.next es)).map (fun server =>
          Session.mk server (s.input.reads s.cmd (turns es)).2 (s.input.reads s.cmd (turns es)).1
            (decide (∃ k < turns es, s.next k = "exit".toList)))
      else none := by
  induction es generalizing s with
  | nil =>
    obtain ⟨server, input, cmd, left⟩ := s
    obtain rfl : left = false := stays
    simp [turns, calls, Input.reads]
  | cons e es ih =>
    cases e with
    | client e =>
      simp only [run, step, turns, calls]
      cases Server.step misread junk s.server e with
      | none => simp
      | some server => exact ih (s := { s with server := server }) stays
    | turn timestamp =>
      have first : s.next 0 = (s.input.getline s.cmd).1 := rfl
      simp only [run, step, turns, calls, stays, Bool.false_eq_true, if_false, rmsTerminal_eq_run,
        run_append, ← first]
      cases run (Server.step misread junk) s.server (called (react (s.next 0) timestamp)) with
      | none => simp
      | some server =>
        simp only [Option.map_some, Option.bind_some]
        by_cases ends : s.next 0 = "exit".toList
        · rw [run_left misread junk (by simpa using ends) (fun k => s.next (k + 1))]
          by_cases none : turns es = 0
          · simp [none, ends, Input.reads, ← first]
          · have early : ¬ ∀ k < turns es + 1 - 1, s.next k ≠ "exit".toList :=
              fun all => all 0 (by omega) ends
            rw [if_neg none, if_neg early]
        · rw [ih (by simpa using ends)]
          have shift : (∀ k < turns es + 1 - 1, s.next k ≠ "exit".toList) ↔
              ∀ k < turns es - 1, s.next (k + 1) ≠ "exit".toList := by
            refine ⟨fun all k hk => all (k + 1) (by omega), fun all k hk => ?_⟩
            cases k with
            | zero => exact ends
            | succ k => exact all k (by omega)
          have last : (∃ k < turns es + 1, s.next k = "exit".toList) ↔
              ∃ k < turns es, s.next (k + 1) = "exit".toList := by
            constructor
            · rintro ⟨k, hk, exits⟩
              cases k with
              | zero => exact absurd exits ends
              | succ k => exact ⟨k, by omega, exits⟩
            · rintro ⟨k, hk, exits⟩
              exact ⟨k + 1, by omega, exits⟩
          simp only [shift, last]
          rfl

@[simp] theorem turns_map (timestamps : List Int) :
    turns (timestamps.map .turn) = timestamps.length := by
  induction timestamps with
  | nil => rfl
  | cons timestamp timestamps ih => rw [List.map_cons, turns, ih, List.length_cons]

theorem next_start (server : RmsServer) (text : List Char) :
    (start server text).next = typed text := funext (reads_typed text [])

/-- The session serves the clients and the lines as a run of the server does, is
left at the first line that is `exit`, and has no turn after it. -/
theorem session_run (server : RmsServer) (text : List Char) (es : List Event) :
    (run (step misread junk) (start server text) es).map (fun s => (s.server, s.left)) =
      if ∀ k < turns es - 1, typed text k ≠ "exit".toList then
        (run (Server.step misread junk) server (calls (typed text) es)).map
          (fun server => (server, decide (∃ k < turns es, typed text k = "exit".toList)))
      else none := by
  rw [run_session misread junk rfl, next_start]
  split
  · rw [Option.map_map]
    rfl
  · rfl

end Sessions

section Repeated

variable (misread : List Char → Db → Option Outcome) (junk : VersionData)

/-- The search looks at nothing but the computers. -/
theorem getClient_put {s : RmsServer} {h : Nat} {client client' : RmsClient}
    (live : s.handlers h = some client) (same : client'.computer = client.computer)
    (backend : Backend) (id : Int) (hs : List Nat) :
    (s.put h client' backend).getClient id hs = s.getClient id hs := by
  have ids (g : Nat) : (s.put h client' backend).getId g = s.getId g := by
    by_cases own : g = h
    · subst own
      simp [RmsServer.getId, RmsServer.put, live, same]
    · simp [RmsServer.getId, RmsServer.put, own]
  induction hs with
  | nil => rfl
  | cons g hs ih => rw [RmsServer.getClient, RmsServer.getClient, ids, ih]

/-- A database whose statements meet no fault. -/
def quiet : Backend → Bool
  | .log => false
  | .sqlite _ conn => conn.faults.isEmpty

def executorRows : Backend → List ExecutorRow
  | .log => []
  | .sqlite _ conn => conn.db.executors.rows

/-- A client is found by the id, and its command can be inserted. -/
structure Ready (s : RmsServer) (id : Int) (h : Nat) : Prop where
  found : s.getClient id s.clients = some (some h)
  quiet : quiet s.backend = true

/-- The row is inserted, and the response has the command. -/
theorem runCommand_quiet {backend : Backend} (calm : quiet backend = true) (id timestamp : Int)
    {cmd : String} (plain : SqlLiteral.Plain cmd.toList) :
    ∃ data backend' row,
      withDatabase misread (runCommand id timestamp cmd) backend = some (some data, backend') ∧
      ReporterCommands.commands [data] = [data.data.command] ∧ data.data.command.command = cmd ∧
      quiet backend' = true ∧ executorRows backend' = executorRows backend ++ [row] ∧
      (row.computerId, row.startTime, row.name) = (id, timestamp, cmd) := by
  cases backend with
  | log => cases calm
  | sqlite ing conn =>
    have empty : conn.faults = [] := List.isEmpty_iff.mp calm
    have readable : Readable (.insertExecutor id timestamp cmd) :=
      readable_of_plain (by simpa [Query.strings] using plain) trivial
    obtain ⟨o, inserted, row, table, name⟩ :
        ∃ o, execute (.insertExecutor id timestamp cmd) conn.db = some o ∧
          ∃ row, o.db.executors.rows = conn.db.executors.rows ++ [row] ∧
            (row.computerId, row.startTime, row.name) = (id, timestamp, cmd) :=
      ⟨_, rfl, _, rfl, rfl⟩
    have answered := answer_of_no_fault misread true (noFault_of_quiet empty) readable inserted
    refine ⟨{ dataType := .kRunCommand
              data := { command := ⟨cmd, toInt32 (o.inserted.getLastD conn.lastRowid)⟩ } },
      .sqlite ing ⟨o.db, o.inserted.getLastD conn.lastRowid, conn.faults.tail⟩, row,
      ?_, rfl, rfl, ?_, table, name⟩
    · simp [withDatabase, runCommand, answered]
    · rw [empty, List.tail_nil]
      rfl

theorem ready_exec {s : RmsServer} {id : Int} {h : Nat} (ready : Ready s id h) (timestamp : Int)
    {cmd : String} (plain : SqlLiteral.Plain cmd.toList) :
    ∃ t row, Server.step misread junk s (.exec id timestamp cmd) = some t ∧ Ready t id h ∧
      queued t h = queued s h ++ [cmd] ∧
      executorRows t.backend = executorRows s.backend ++ [row] ∧
      (row.computerId, row.startTime, row.name) = (id, timestamp, cmd) := by
  obtain ⟨found, calm⟩ := ready
  obtain ⟨client, live⟩ := handler_of_getClient found
  obtain ⟨data, backend, row, asked, command, text, calm', table, name⟩ :=
    runCommand_quiet misread calm id timestamp plain
  refine ⟨s.put h (client.addResponse data) backend, row, ?_, ⟨?_, calm'⟩, ?_, table, name⟩
  · simp only [Server.step, found, Option.bind_eq_bind, Option.bind_some, live, asked]
    rfl
  · have same : (client.addResponse data).computer = client.computer := rfl
    exact (getClient_put live same _ id s.clients).trans found
  · rw [queued_put, Function.update_self, RmsClient.addResponse, ReporterCommands.commands_append,
      List.map_append, ← queued_live live, command, List.map_singleton, text]

theorem ready_execs {id : Int} {h : Nat} {cmd : String} (plain : SqlLiteral.Plain cmd.toList)
    (timestamps : List Int) {s : RmsServer} (ready : Ready s id h) :
    ∃ t rows, run (Server.step misread junk) s (timestamps.map (.exec id · cmd)) = some t ∧
      queued t h = queued s h ++ List.replicate timestamps.length cmd ∧
      executorRows t.backend = executorRows s.backend ++ rows ∧
      rows.map (fun r => (r.computerId, r.startTime, r.name)) =
        timestamps.map (fun timestamp => (id, timestamp, cmd)) := by
  induction timestamps generalizing s with
  | nil => exact ⟨s, [], rfl, by simp, by simp, rfl⟩
  | cons timestamp timestamps ih =>
    obtain ⟨t, row, first, still, queue, one, name⟩ :=
      ready_exec misread junk ready timestamp plain
    obtain ⟨u, rows, rest, queues, table, names⟩ := ih still
    refine ⟨u, row :: rows, ?_, ?_, ?_, ?_⟩
    · rw [List.map_cons, run, first, Option.bind_some, rest]
    · rw [queues, queue, List.append_assoc, List.length_cons, List.replicate_succ]
      rfl
    · rw [table, one, List.append_assoc, List.singleton_append]
    · rw [List.map_cons, names, name, List.map_cons]

theorem calls_turns {line : List Char} (one : '\n' ∉ line) (starts : "exec".toList <+: line)
    (timestamps : List Int) :
    calls (fun _ => line) (timestamps.map .turn) =
      timestamps.map (.exec (addressed line) · (String.ofList (taken line))) := by
  have more : skipSpace line ≠ [] := by
    obtain ⟨rest, rfl⟩ := starts
    exact List.cons_ne_nil _ _
  induction timestamps with
  | nil => rfl
  | cons timestamp timestamps ih =>
    rw [List.map_cons, calls, react_exec starts, execEvent_eq one more, ih]
    rfl

/-- Where the text ends without a newline in a line that asks for a command, and
its client can be found, every turn has the command inserted and queued once
more, and the loop is never left. -/
theorem unended_exec_repeats {s : RmsServer} {last : List Char} (one : '\n' ∉ last)
    (starts : "exec".toList <+: last) (plain : SqlLiteral.Plain (taken last)) {h : Nat}
    (ready : Ready s (addressed last) h) (timestamps : List Int) :
    ∃ t rows,
      (run (step misread junk) (start s last) (timestamps.map .turn)).map
        (fun s => (s.server, s.left)) = some (t, false) ∧
      queued t h = queued s h ++ List.replicate timestamps.length (String.ofList (taken last)) ∧
      executorRows t.backend = executorRows s.backend ++ rows ∧
      rows.map (fun r => (r.computerId, r.startTime, r.name)) =
        timestamps.map (fun timestamp => (addressed last, timestamp, String.ofList (taken last))) := by
  have other : last ≠ "exit".toList := by
    rintro rfl
    exact absurd starts (by decide)
  have found : typed last = fun _ => last := funext (typed_of_notMem one)
  obtain ⟨t, rows, arrives, queue, table, names⟩ :=
    ready_execs misread junk (by rwa [String.toList_ofList]) timestamps ready
  refine ⟨t, rows, ?_, queue, table, names⟩
  rw [run_session misread junk rfl, next_start, found]
  have served : (start s last).server = s := rfl
  simp only [served, calls_turns one starts, arrives, ne_eq, other, not_false_eq_true,
    implies_true, if_true, Option.map_some, and_false, exists_false, decide_false]

end Repeated

/-- The end of the input is typed behind a command, without a newline. -/
theorem unended_exec_repeats_twice :
    ∃ t rows,
      (run (step (fun _ _ => none) {}) (start oneClient "exec 1 ls".toList)
        ([0, 1].map .turn)).map (fun s => (s.server, s.left)) = some (t, false) ∧
      queued t 0 = queued oneClient 0 ++
        List.replicate 2 (String.ofList (taken "exec 1 ls".toList)) ∧
      executorRows t.backend = executorRows oneClient.backend ++ rows ∧
      rows.map (fun r => (r.computerId, r.startTime, r.name)) =
        [0, 1].map (fun timestamp =>
          (addressed "exec 1 ls".toList, timestamp, String.ofList (taken "exec 1 ls".toList))) :=
  unended_exec_repeats _ _ (by decide) (by decide) (by decide)
    ⟨by decide +kernel, by decide +kernel⟩ [0, 1]

end TerminalSession
