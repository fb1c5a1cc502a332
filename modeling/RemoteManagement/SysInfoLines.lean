import RemoteManagement.TerminalLines
import RemoteManagement.ServerReplies
import Mathlib.Data.List.DropRight

/-!
# The lines that ask for system information

Behind `get sys-info`, as behind `info client`, the id is scanned from what is
left of the line. The scan reads a long and stores an int, and the id keeps -2
where there is no number, so a client is looked up for every line that does not
end there.
-/

namespace SysInfoLines

open ThriftTypes SqlStatements ExecuteQuery Database GuardedRun Server DecimalText Stdio
open TerminalLines

/-- The id that is scanned from what follows the words of a command. -/
def scanned (behind : List Char) : Option Int :=
  let rest := skipSpace (cStr behind)
  if rest = [] then none
  else if (takeNumber rest).1.2 = [] then some (-2)
  else some (toInt32 (clampLong (value (takeNumber rest).1)))

/-- The requests for system information that are queued for a handler. -/
def waiting (s : RmsServer) (h : Nat) : Nat :=
  match s.handlers h with
  | none => 0
  | some client => client.responseQueue.countP (fun d => d.dataType = .kSendSystemInfo)

section Scanning

theorem scanId_of_words {text : String} {words : List Char} (terminator : '\x00' ∉ words)
    (matched : ∀ cs, scan (format text) (words ++ cs) = scan [.space, .number true] cs)
    (behind : List Char) : scanId text (words ++ behind) = scanned behind := by
  have cut : cStr (words ++ behind) = words ++ cStr behind :=
    List.takeWhile_append_of_pos fun c hc => decide_eq_true fun nul => terminator (nul ▸ hc)
  simp only [scanId, cut, matched, scan_space, scanned]
  by_cases ends : skipSpace (cStr behind) = []
  · simp [ends, scan, Scanned.isEof]
  · have trimmed : skipSpace (skipSpace (cStr behind)) = skipSpace (cStr behind) :=
      List.dropWhile_idempotent _ _
    by_cases none : (takeNumber (skipSpace (cStr behind))).1.2 = []
    · simp [ends, none, scan, trimmed, Scanned.isEof, storeLong, toInt32]
    · simp [ends, none, scan, trimmed, Scanned.isEof, storeLong, assigns]

theorem scanId_sysInfo (behind : List Char) :
    scanId "get sys-info %d" ("get sys-info".toList ++ behind) = scanned behind := by
  refine scanId_of_words (by decide) (fun cs => ?_) behind
  simp [format, directives, isSpace, skipSpace, scan]

end Scanning

section Turns

variable (misread : List Char → Db → Option Outcome) (junk : VersionData)

theorem react_sysInfo (behind : List Char) (timestamp : Int) :
    react ("get sys-info".toList ++ behind) timestamp =
      match scanned behind with
      | some id => .call (.getSysInfo id)
      | none => .print := by
  have words : "get sys-info".toList <+: "get sys-info".toList ++ behind := List.prefix_append _ _
  simp only [react]
  rw [if_pos words, scanId_sysInfo]
  cases scanned behind <;> simp [List.cons_prefix_cons]

/-- Only the lines that start with the words come to a request. -/
theorem react_eq_getSysInfo {line : List Char} {timestamp id : Int} :
    react line timestamp = .call (.getSysInfo id) ↔
      ∃ behind, line = "get sys-info".toList ++ behind ∧ scanned behind = some id := by
  constructor
  · intro reacts
    by_cases words : "get sys-info".toList <+: line
    · obtain ⟨behind, rfl⟩ := words
      rw [react_sysInfo] at reacts
      cases scans : scanned behind with
      | none => simp [scans] at reacts
      | some i =>
        rw [scans] at reacts
        cases reacts
        exact ⟨behind, rfl, scans⟩
    · simp only [react, if_neg words] at reacts
      -- each of the other branches calls something else
      split_ifs at reacts
      all_goals first
        | cases reacts
        | (split at reacts <;> cases reacts)
  · rintro ⟨behind, rfl, id⟩
    rw [react_sysInfo, id]

theorem waiting_put (s : RmsServer) (h : Nat) (client : RmsClient) (backend : Backend) :
    waiting (s.put h client backend) = Function.update (waiting s) h
      (client.responseQueue.countP (fun d => d.dataType = .kSendSystemInfo)) := by
  funext g
  rw [Function.update_apply]
  by_cases own : g = h
  · subst own
    simp [waiting, RmsServer.put]
  · simp [waiting, RmsServer.put, own]

theorem waiting_live {s : RmsServer} {h : Nat} {client : RmsClient}
    (live : s.handlers h = some client) :
    waiting s h = client.responseQueue.countP (fun d => d.dataType = .kSendSystemInfo) := by
  simp [waiting, live]

/-- A request is queued for the client that is found, if one is. -/
theorem waiting_getSysInfo {s t : RmsServer} {id : Int}
    (h : Server.step misread junk s (.getSysInfo id) = some t) :
    (∃ h, s.getClient id s.clients = some (some h) ∧
        waiting t = Function.update (waiting s) h (waiting s h + 1)) ∨
      (¬ Connected s id ∧ waiting t = waiting s) := by
  rcases ServerReplies.getSysInfo_search misread junk h with ⟨search, rfl⟩ |
    ⟨k, client, search, live, rfl⟩
  · exact Or.inr ⟨fun connected => by simpa using (connected_iff search).mp connected, rfl⟩
  · refine Or.inl ⟨k, search, ?_⟩
    rw [waiting_put, RmsClient.addResponse, List.countP_append, ← waiting_live live]
    rfl

theorem waiting_exec {s t : RmsServer} {id timestamp : Int} {cmd : String}
    (h : Server.step misread junk s (.exec id timestamp cmd) = some t) :
    waiting t = waiting s := by
  rcases exec_eq misread junk h with ⟨-, rfl⟩ | ⟨k, client, data, backend, -, live, asked, rfl⟩
  · rfl
  · obtain ⟨-, command⟩ := withDatabase_runCommand misread asked
    rw [waiting_put]
    cases data with
    | none => rw [Option.elim_none, ← waiting_live live, Function.update_eq_self]
    | some d =>
      have run := (command d rfl).1
      rw [Option.elim_some, RmsClient.addResponse, List.countP_append, ← waiting_live live]
      simp [run]

theorem waiting_other {s t : RmsServer} {line : List Char} {timestamp : Int}
    (other : ∀ id, react line timestamp ≠ .call (.getSysInfo id))
    (turn : rmsTerminal misread junk s line timestamp = some t) : waiting t = waiting s := by
  rw [rmsTerminal] at turn
  by_cases starts : "exec".toList <+: line
  · rw [react_exec starts] at turn
    exact waiting_exec misread junk turn
  · have quiet := quiet_react starts timestamp
    cases reacts : react line timestamp with
    | leave | print =>
      rw [reacts] at turn
      rw [← Option.some.inj turn]
    | call e =>
      rw [reacts] at turn quiet
      change Server.step misread junk s e = some t at turn
      cases quiet with
      | status => rw [← Option.some.inj turn]
      | clients =>
        rw [Server.step, Option.ite_none_right_eq_some, Option.some.injEq] at turn
        rw [turn.2]
      | infoClient id =>
        simp only [Server.step, Option.map_eq_some_iff] at turn
        obtain ⟨_, -, rfl⟩ := turn
        rfl
      | getSysInfo id => exact absurd reacts (other id)

/-- A turn asks for system information exactly if its line starts with the words
and a client has the id that is scanned behind them, and then it asks the first
client that has it. -/
theorem waiting_turn {s t : RmsServer} {line : List Char} {timestamp : Int}
    (turn : rmsTerminal misread junk s line timestamp = some t) :
    (∃ behind id h, line = "get sys-info".toList ++ behind ∧ scanned behind = some id ∧
        s.getClient id s.clients = some (some h) ∧
        waiting t = Function.update (waiting s) h (waiting s h + 1)) ∨
      ((∀ behind id, line = "get sys-info".toList ++ behind → scanned behind = some id →
        ¬ Connected s id) ∧ waiting t = waiting s) := by
  by_cases asks : ∃ id, react line timestamp = .call (.getSysInfo id)
  · obtain ⟨id, reacts⟩ := asks
    rw [rmsTerminal, reacts] at turn
    obtain ⟨behind, rfl, scans⟩ := react_eq_getSysInfo.mp reacts
    rcases waiting_getSysInfo misread junk turn with ⟨h, found, now⟩ | ⟨unconnected, same⟩
    · exact Or.inl ⟨behind, id, h, rfl, scans, found, now⟩
    · refine Or.inr ⟨fun behind' id' words scans' => ?_, same⟩
      obtain rfl := List.append_cancel_left words
      obtain rfl := Option.some.inj (scans.symm.trans scans')
      exact unconnected
  · refine Or.inr ⟨fun behind id words scans => ?_, ?_⟩
    · exact absurd ⟨id, react_eq_getSysInfo.mpr ⟨behind, words, scans⟩⟩ asks
    · exact waiting_other misread junk (not_exists.mp asks) turn

end Turns

/-- An id that does not fit an int is cut to one that a client has. -/
theorem waiting_turn_wide :
    let line := "get sys-info 4294967297x".toList
    let t := (rmsTerminal (fun _ _ => none) {} oneClient line 0).get (by decide +kernel)
    waiting t 0 = 1 ∧
      ((∃ behind id h, line = "get sys-info".toList ++ behind ∧ scanned behind = some id ∧
          oneClient.getClient id oneClient.clients = some (some h) ∧
          waiting t = Function.update (waiting oneClient) h (waiting oneClient h + 1)) ∨
        ((∀ behind id, line = "get sys-info".toList ++ behind → scanned behind = some id →
          ¬ Connected oneClient id) ∧ waiting t = waiting oneClient)) :=
  ⟨by decide +kernel, waiting_turn _ _ (Option.some_get _).symm⟩

end SysInfoLines
