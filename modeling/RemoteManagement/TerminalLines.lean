import RemoteManagement.Server
import RemoteManagement.ReporterCommands
import RemoteManagement.Library.StringStream

/-!
# The lines of the terminal

A line is compared with the commands, with some of them only in its start.
Behind `exec` the terminal extracts a token and an int, looks up the client
that the int names, whatever the extractions came to, and has it run what is
left of the line.
-/

namespace TerminalLines

open ThriftTypes SqlStatements ExecuteQuery Database QueryProgram Program GuardedRun
open Computer Server DecimalText Stdio

/-- The terminal leaves its loop, only prints something or calls the server. -/
inductive Reaction where
  | leave
  | print
  | call (e : Event)

section Lines

/-- `cmd.c_str()`, which ends at a terminator. -/
def cStr (cmd : List Char) : List Char := cmd.takeWhile (fun c => c ≠ '\x00')

/-- `sscanf(cmd.c_str(), text, &id)` for an id that holds -2, none for EOF. -/
def scanId (text : String) (cmd : List Char) : Option Int :=
  let scanned := scan (format text) (cStr cmd)
  if scanned.isEof then none else some (toInt32 (storeLong (-2) scanned.values.head?))

def execEvent (cmd : List Char) (timestamp : Int) : Event :=
  let (clientCmd, ss) := Stream.extractString ⟨cmd, false⟩ []
  let (id, ss) := ss.extractInt (-1)
  let (clientCmd, _) := ss.getline clientCmd
  .exec id timestamp (String.ofList clientCmd)

def react (cmd : List Char) (timestamp : Int) : Reaction :=
  if cmd = "exit".toList then .leave
  else if cmd = "status".toList then .call .status
  else if cmd = "version".toList then .print
  else if cmd = "clients".toList then .call .clients
  else if "info".toList <+: cmd then
    if "info client".toList <+: cmd then
      match scanId "info client %d" cmd with
      | some id => .call (.infoClient id)
      | none => .print
    else .print
  else if "get".toList <+: cmd then
    if "get sys-info".toList <+: cmd then
      match scanId "get sys-info %d" cmd with
      | some id => .call (.getSysInfo id)
      | none => .print
    else .print
  else if "exec".toList <+: cmd then .call (execEvent cmd timestamp)
  -- the help is printed, and for other lines nothing is
  else .print

/-- One turn of the loop, with the line that is read. -/
def rmsTerminal (misread : List Char → Db → Option Outcome) (junk : VersionData) (s : RmsServer)
    (cmd : List Char) (timestamp : Int) : Option RmsServer :=
  match react cmd timestamp with
  | .leave | .print => some s
  | .call e => Server.step misread junk s e

/-- The texts of the commands that are queued for a handler. -/
def queued (s : RmsServer) (h : Nat) : List String :=
  match s.handlers h with
  | none => []
  | some client => (ReporterCommands.commands client.responseQueue).map Command.command

end Lines

section Requests

/-- The second token of a line and what follows it. -/
def arguments (line : List Char) : List Char := skipSpace (afterWord (skipSpace line))

/-- What follows the second token and the white space behind it. -/
def remainder (line : List Char) : List Char := skipSpace (afterWord (arguments line))

/-- A text that is a decimal integer of type int. -/
def wholeInt (text : List Char) : Option Int :=
  let (number, rest) := takeNumber text
  if Stream.isInt number ∧ rest = [] then some (value number) else none

/-- The id in a line that asks for a command. -/
def requested (line : List Char) : Option Int :=
  if word (skipSpace line) = "exec".toList then wholeInt (word (arguments line)) else none

def Connected (s : RmsServer) (id : Int) : Prop := ∃ h ∈ s.clients, s.getId h = some id

instance (s : RmsServer) (id : Int) : Decidable (Connected s id) :=
  inferInstanceAs (Decidable (∃ h ∈ s.clients, s.getId h = some id))

/-- A line queues a command if it asks for one, and that one. -/
structure Obeys (s t : RmsServer) (line : List Char) : Prop where
  queues : (∃ h, queued t h ≠ queued s h) ↔ ∃ id, requested line = some id ∧ Connected s id
  command : ∀ h, queued t h ≠ queued s h → s.getId h = requested line ∧
    queued t h = queued s h ++ [String.ofList (remainder line)]

end Requests

section Extraction

/-- The id that is looked up for a line. -/
def addressed (line : List Char) : Int :=
  if arguments line = [] then -1 else Stream.nearestInt (arguments line)

/-- The command that is run for a line: what follows an int, the first token if
nothing does or there is no int. -/
def taken (line : List Char) : List Char :=
  let (number, rest) := takeNumber (arguments line)
  if Stream.isInt number ∧ rest ≠ [] then rest else word (skipSpace line)

theorem behind_suffix (line : List Char) : (takeNumber (arguments line)).2 <:+ line :=
  (List.dropWhile_suffix _).trans <| (takeSign_suffix _).trans <| (List.dropWhile_suffix _).trans <|
    (List.dropWhile_suffix _).trans (List.dropWhile_suffix _)

/-- Whatever the extractions came to, a client is looked up. -/
theorem execEvent_eq {line : List Char} (one : '\n' ∉ line) (more : skipSpace line ≠ [])
    (timestamp : Int) :
    execEvent line timestamp = .exec (addressed line) timestamp (String.ofList (taken line)) := by
  have first : Stream.extractString ⟨line, false⟩ [] =
      (word (skipSpace line), ⟨afterWord (skipSpace line), false⟩) := by
    simp [Stream.extractString, more]
  have oneBehind : '\n' ∉ (takeNumber (arguments line)).2 :=
    fun newline => one ((behind_suffix line).subset newline)
  have whole := line_of_notMem oneBehind
  simp only [execEvent, first]
  rw [addressed, taken]
  by_cases none : arguments line = []
  · have number : takeNumber ([] : List Char) = ((false, []), []) := rfl
    have second : Stream.extractInt ⟨afterWord (skipSpace line), false⟩ (-1) =
        (-1, ⟨afterWord (skipSpace line), true⟩) := if_pos (Or.inr none)
    simp [second, none, number, Stream.getline, Stream.isInt]
  · have second :=
      Stream.extractInt_eq (show skipSpace (afterWord (skipSpace line)) ≠ [] from none) (-1)
    rw [← arguments] at second
    simp only [second, none, if_false, Stream.getline, Bool.not_eq_true']
    cases Stream.isInt (takeNumber (arguments line)).1 with
    | false => simp
    | true =>
      by_cases ends : (takeNumber (arguments line)).2 = []
      · simp [ends]
      · simp [ends, whole]

/-- The extraction takes the id of a line that asks for a command whole. -/
theorem takeNumber_of_requested {line : List Char} {id : Int} (h : requested line = some id) :
    (takeNumber (arguments line)).2 = afterWord (arguments line) ∧
      Stream.isInt (takeNumber (arguments line)).1 = true ∧
      value (takeNumber (arguments line)).1 = id := by
  rw [requested, Option.ite_none_right_eq_some] at h
  obtain ⟨-, whole⟩ := h
  simp only [wholeInt, Option.ite_none_right_eq_some, Option.some.injEq] at whole
  obtain ⟨⟨int, ends⟩, rfl⟩ := whole
  have taken : takeNumber (word (arguments line)) =
      (((takeNumber (word (arguments line))).1.1, (takeNumber (word (arguments line))).1.2), []) :=
    Prod.ext rfl ends
  have number := takeNumber_append taken (of_decide_eq_true int).1
    (endsNumber_of_endsWord (endsWord_afterWord (arguments line)))
  rw [word_append_afterWord] at number
  rw [number]
  exact ⟨rfl, int, rfl⟩

/-- The client that is asked for is looked up, but not for the command. -/
theorem of_requested {line : List Char} {id : Int} (h : requested line = some id) :
    addressed line = id ∧ taken line ≠ remainder line := by
  obtain ⟨rest, int, rfl⟩ := takeNumber_of_requested h
  rw [requested, Option.ite_none_right_eq_some] at h
  have more : arguments line ≠ [] := by
    intro none
    rw [none] at int
    exact absurd int (by decide)
  refine ⟨by rw [addressed, if_neg more, Stream.nearestInt_of_isInt int], ?_⟩
  have command : taken line = if afterWord (arguments line) = [] then "exec".toList
      else afterWord (arguments line) := by
    by_cases ends : afterWord (arguments line) = [] <;> simp [taken, int, rest, ends, h.1]
  rw [command, remainder]
  split
  · rename_i ends
    rw [ends]
    decide
  · rename_i ends
    obtain ⟨c, cs, behind⟩ := List.exists_cons_of_ne_nil ends
    have blank : isSpace c = true := endsWord_afterWord (arguments line) c (by rw [behind]; rfl)
    intro same
    rw [behind] at same
    exact absurd blank (by rw [isSpace_of_skipSpace same.symm]; decide)

end Extraction

section Turns

variable (misread : List Char → Db → Option Outcome) (junk : VersionData)

/-- The row of a command is inserted. -/
def Inserts (s : RmsServer) (id timestamp : Int) (cmd : String) : Prop :=
  ∃ ing conn, s.backend = .sqlite ing conn ∧
    (answer misread (.insertExecutor id timestamp cmd, true) conn).1.success = true

theorem connected_iff {s : RmsServer} {id : Int} {found : Option Nat}
    (search : s.getClient id s.clients = some found) : Connected s id ↔ found.isSome := by
  cases found with
  | none =>
    refine iff_of_false ?_ (by simp)
    rintro ⟨h, mem, own⟩
    exact getClient_eq_none search h mem own
  | some h => exact iff_of_true ⟨h, getClient_eq_some search⟩ rfl

theorem queued_live {s : RmsServer} {h : Nat} {client : RmsClient}
    (live : s.handlers h = some client) :
    queued s h = (ReporterCommands.commands client.responseQueue).map Command.command := by
  simp [queued, live]

theorem queued_put (s : RmsServer) (h : Nat) (client : RmsClient) (backend : Backend) :
    queued (s.put h client backend) = Function.update (queued s) h
      ((ReporterCommands.commands client.responseQueue).map Command.command) := by
  funext g
  rw [Function.update_apply]
  by_cases own : g = h
  · subst own
    simp [queued, RmsServer.put]
  · simp [queued, RmsServer.put, own]

/-- A response is queued exactly if the row is inserted, and is the command. -/
theorem withDatabase_runCommand {s : RmsServer} {id timestamp : Int} {cmd : String}
    {data : Option RmsResponseData} {backend : Backend}
    (asked : withDatabase misread (runCommand id timestamp cmd) s.backend = some (data, backend)) :
    (data.isSome ↔ Inserts misread s id timestamp cmd) ∧
      ∀ d ∈ data, d.dataType = .kRunCommand ∧ d.data.command.command = cmd := by
  cases hb : s.backend with
  | log =>
    rw [hb] at asked
    cases asked
  | sqlite ing conn =>
    simp only [hb, withDatabase, runCommand, bind_eq, pure_eq, run_bind, run_ask, Option.some.injEq,
      Prod.mk.injEq] at asked
    obtain ⟨rfl, -⟩ := asked
    have inserts : Inserts misread s id timestamp cmd ↔
        (answer misread (.insertExecutor id timestamp cmd, true) conn).1.success = true := by
      simp [Inserts, hb]
    rw [inserts]
    by_cases success :
        (answer misread (.insertExecutor id timestamp cmd, true) conn).1.success = true
    · simp [success]
    · simp [success]

/-- A command is queued for the client that is found, if its row is inserted. -/
theorem queued_exec {s t : RmsServer} {id timestamp : Int} {cmd : String}
    (h : Server.step misread junk s (.exec id timestamp cmd) = some t) :
    (Connected s id ∧ Inserts misread s id timestamp cmd ∧ ∃ h, s.getId h = some id ∧
        queued t = Function.update (queued s) h (queued s h ++ [cmd])) ∨
      (¬ (Connected s id ∧ Inserts misread s id timestamp cmd) ∧ queued t = queued s) := by
  rcases exec_eq misread junk h with ⟨search, rfl⟩ |
    ⟨k, client, data, backend, search, live, asked, rfl⟩
  · exact Or.inr ⟨fun runs => by simpa using (connected_iff search).mp runs.1, rfl⟩
  · obtain ⟨inserts, command⟩ := withDatabase_runCommand misread asked
    cases data with
    | none =>
      refine Or.inr ⟨fun runs => by simpa using inserts.mpr runs.2, ?_⟩
      rw [queued_put, Option.elim_none, ← queued_live live, Function.update_eq_self]
    | some d =>
      obtain ⟨run, text⟩ := command d rfl
      have own := (getClient_eq_some search).2
      refine Or.inl ⟨(connected_iff search).mpr rfl, inserts.mp rfl, k, own, ?_⟩
      rw [queued_put, Option.elim_some, RmsClient.addResponse, ReporterCommands.commands_append,
        ReporterCommands.commands_cons_command run, List.map_append, queued_live live, ← text]
      rfl

theorem react_exec {line : List Char} (starts : "exec".toList <+: line) (timestamp : Int) :
    react line timestamp = .call (execEvent line timestamp) := by
  obtain ⟨rest, rfl⟩ := starts
  simp [react, List.cons_prefix_cons]

/-- What the terminal does with the other lines. -/
inductive Quiet : Reaction → Prop where
  | leave : Quiet .leave
  | print : Quiet .print
  | status : Quiet (.call .status)
  | clients : Quiet (.call .clients)
  | infoClient (id : Int) : Quiet (.call (.infoClient id))
  | getSysInfo (id : Int) : Quiet (.call (.getSysInfo id))

theorem quiet_react {line : List Char} (other : ¬ "exec".toList <+: line) (timestamp : Int) :
    Quiet (react line timestamp) := by
  have info : Quiet (match scanId "info client %d" line with
      | some id => .call (.infoClient id)
      | none => .print) := by
    cases scanId "info client %d" line with
    | none => exact .print
    | some id => exact .infoClient id
  have get : Quiet (match scanId "get sys-info %d" line with
      | some id => .call (.getSysInfo id)
      | none => .print) := by
    cases scanId "get sys-info %d" line with
    | none => exact .print
    | some id => exact .getSysInfo id
  rw [react]
  split_ifs
  · exact .leave
  · exact .status
  · exact .print
  · exact .clients
  · exact info
  · exact .print
  · exact get
  · exact .print
  · exact .print

/-- None of them has a command run. -/
theorem queued_quiet {s t : RmsServer} {e : Event} (quiet : Quiet (.call e))
    (h : Server.step misread junk s e = some t) : queued t = queued s := by
  cases quiet with
  | status =>
    rw [← Option.some.inj h]
  | clients =>
    rw [Server.step, Option.ite_none_right_eq_some, Option.some.injEq] at h
    rw [h.2]
  | infoClient id =>
    simp only [Server.step, Option.map_eq_some_iff] at h
    obtain ⟨_, -, rfl⟩ := h
    rfl
  | getSysInfo id =>
    rcases getSysInfo_eq misread junk h with rfl | ⟨k, client, live, rfl⟩
    · rfl
    · rw [queued_put, RmsClient.addResponse, ReporterCommands.commands_append,
        ReporterCommands.commands_cons_of_ne (by simp), ReporterCommands.commands_nil,
        List.append_nil, ← queued_live live, Function.update_eq_self]

/-- A turn is defined exactly if its call follows no null pointer. -/
theorem rmsTerminal_isSome_iff (s : RmsServer) (line : List Char) (timestamp : Int) :
    (rmsTerminal misread junk s line timestamp).isSome ↔
      ∀ e, react line timestamp = .call e → Safe misread s e := by
  rw [rmsTerminal]
  cases react line timestamp with
  | leave => simp
  | print => simp
  | call e => simp [step_isSome_iff]

/-- A line queues the command that is taken off it for the client that is
looked up for it, or nothing. -/
theorem queued_turn {s t : RmsServer} {line : List Char} (one : '\n' ∉ line) {timestamp : Int}
    (h : rmsTerminal misread junk s line timestamp = some t) :
    (∃ h, s.getId h = some (addressed line) ∧ queued t = Function.update (queued s) h
        (queued s h ++ [String.ofList (taken line)]) ∧
        "exec".toList <+: line ∧ Connected s (addressed line) ∧
        Inserts misread s (addressed line) timestamp (String.ofList (taken line))) ∨
      (queued t = queued s ∧ ¬ ("exec".toList <+: line ∧ Connected s (addressed line) ∧
        Inserts misread s (addressed line) timestamp (String.ofList (taken line)))) := by
  by_cases starts : "exec".toList <+: line
  · have more : skipSpace line ≠ [] := by
      obtain ⟨rest, rfl⟩ := starts
      exact List.cons_ne_nil _ _
    rw [rmsTerminal, react_exec starts, execEvent_eq one more] at h
    rcases queued_exec misread junk h with ⟨connected, inserts, k, own, now⟩ | ⟨stays, same⟩
    · exact Or.inl ⟨k, own, now, starts, connected, inserts⟩
    · exact Or.inr ⟨same, fun runs => stays runs.2⟩
  · refine Or.inr ⟨?_, fun runs => starts runs.1⟩
    have quiet := quiet_react starts timestamp
    rw [rmsTerminal] at h
    cases reacts : react line timestamp with
    | leave =>
      rw [reacts] at h
      rw [← Option.some.inj h]
    | print =>
      rw [reacts] at h
      rw [← Option.some.inj h]
    | call e =>
      rw [reacts] at h quiet
      exact queued_quiet misread junk quiet h

/-- A line does what it asks for exactly if it asks for nothing and has nothing
run, for the command that is run is never the one that is asked for. -/
theorem obeys_iff {line : List Char} (one : '\n' ∉ line) (s : RmsServer) (timestamp : Int) :
    (∃ t, rmsTerminal misread junk s line timestamp = some t ∧ Obeys s t line) ↔
      (∀ e, react line timestamp = .call e → Safe misread s e) ∧
      (∀ id, requested line = some id → ¬ Connected s id) ∧
      ¬ ("exec".toList <+: line ∧ Connected s (addressed line) ∧
        Inserts misread s (addressed line) timestamp (String.ofList (taken line))) := by
  rw [← rmsTerminal_isSome_iff misread junk, Option.isSome_iff_exists]
  constructor
  · rintro ⟨t, turn, obeys⟩
    refine ⟨⟨t, turn⟩, ?_⟩
    rcases queued_turn misread junk one turn with ⟨k, own, now, -⟩ | ⟨same, nothing⟩
    · have text : queued t k = queued s k ++ [String.ofList (taken line)] := by
        rw [now, Function.update_self]
      obtain ⟨asked, right⟩ := obeys.command k (by rw [text]; simp)
      have wrong := (of_requested (asked.symm.trans own)).2
      rw [text, List.append_cancel_left_eq, List.singleton_inj, String.ofList_inj] at right
      exact absurd right wrong
    · refine ⟨fun id asked connected => ?_, nothing⟩
      obtain ⟨k, changed⟩ := obeys.queues.mpr ⟨id, asked, connected⟩
      exact changed (by rw [same])
  · rintro ⟨⟨t, turn⟩, unasked, nothing⟩
    refine ⟨t, turn, ?_⟩
    have same : queued t = queued s := by
      rcases queued_turn misread junk one turn with ⟨k, -, -, runs⟩ | ⟨same, -⟩
      · exact absurd runs nothing
      · exact same
    refine ⟨iff_of_false (fun ⟨h, changed⟩ => changed (by rw [same])) ?_, ?_⟩
    · rintro ⟨id, asked, connected⟩
      exact unasked id asked connected
    · exact fun h changed => absurd (by rw [same]) changed

end Turns

/-- A server with one client, whose id is 1. -/
def oneClient : RmsServer :=
  (GuardedRun.run (Server.step (fun _ _ => none) {}) (Server.start sqlite)
    [.connect 0, .handshake 0 (-1) { hostName := "a" }]).getD (Server.start sqlite)

/-- There is no second client that could be meant. -/
theorem obeys_noClient :
    ∃ t, rmsTerminal (fun _ _ => none) {} oneClient "exec 2 ls".toList 0 = some t ∧
      Obeys oneClient t "exec 2 ls".toList := by
  have unconnected : ¬ Connected oneClient 2 := by decide +kernel
  refine (obeys_iff (fun _ _ => none) {} (by decide) oneClient 0).mpr ⟨?_, ?_, ?_⟩
  · exact (rmsTerminal_isSome_iff (fun _ _ => none) {} oneClient _ 0).mp (by decide +kernel)
  · intro id asked
    obtain rfl : 2 = id := Option.some.inj asked
    exact unconnected
  · exact fun runs => unconnected runs.2.1

/-- Letters behind the id are taken for the command, a word that starts with
exec is taken for it, and a line without a command runs its own first token. -/
theorem mistyped_not_obeyed :
    ["exec 1abc", "execute 1 ls", "exec 1"].map (fun line =>
        (rmsTerminal (fun _ _ => none) {} oneClient line.toList 0).map (queued · 0)) =
      [some ["abc"], some [" ls"], some ["exec"]] ∧
      requested "exec 1abc".toList = none ∧
      ∃ t, rmsTerminal (fun _ _ => none) {} oneClient "exec 1abc".toList 0 = some t ∧
        ¬ Obeys oneClient t "exec 1abc".toList := by
  have turns : ["exec 1abc", "execute 1 ls", "exec 1"].map (fun line =>
      (rmsTerminal (fun _ _ => none) {} oneClient line.toList 0).map (queued · 0)) =
        [some ["abc"], some [" ls"], some ["exec"]] := by decide +kernel
  refine ⟨turns, by decide, ?_⟩
  obtain ⟨t, turn, now⟩ := Option.map_eq_some_iff.mp (List.cons.inj turns).1
  refine ⟨t, turn, fun obeys => ?_⟩
  have before : queued oneClient 0 = [] := by decide +kernel
  obtain ⟨id, asked, -⟩ := obeys.queues.mp ⟨0, by rw [now, before]; decide⟩
  cases asked

end TerminalLines
