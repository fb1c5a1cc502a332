import RemoteManagement.CommandResults

/-!
# The codes of the results

`notifyEnd` sends the code and the return type that an executor has, and no
executor ever sets them. So no row of the executor table is ever given others,
whatever ids the commands have and whatever faults the statements meet.
-/

namespace ResultCodes

open ThriftTypes SqlStatements ExecuteQuery RowTable Database QueryProgram Program GuardedRun
open Computer Ingestor ExecutorTable QuotelessStatements RequestClient ReporterCommands
open CommandResults

variable {K Thread : Type} {misread : List Char → Db → Option Outcome}

/-- A result tells when its command ended, and nothing else. -/
def Plain (result : ExecutorResult) : Prop := result.code = 0 ∧ result.returnType = .kUnknown

def AllPlain (data : List RmsRequestData) : Prop := ∀ result ∈ results data, Plain result

/-- A row has no result, or a plain one. -/
def PlainRow (r : ExecutorRow) : Prop :=
  r.endTime = none ∧ r.returnCode = none ∧ r.returnType = none ∨
    r.endTime.isSome = true ∧ r.returnCode = some 0 ∧
      r.returnType = some ExecutorReturnType.kUnknown.toInt

theorem plainRow_written {result : ExecutorResult} (plain : Plain result) (r : ExecutorRow) :
    written result r = r ∨ PlainRow (written result r) := by
  by_cases own : r.executorId = result.id
  · rw [written, if_pos own]
    exact Or.inr (Or.inr ⟨rfl, congrArg some plain.1, by rw [plain.2]⟩)
  · exact Or.inl (written_of_ne own)

/-- The rows there were keep what they had or get a plain result, and all the rows
behind them are plain. -/
def PlainBehind (before rows : List ExecutorRow) : Prop :=
  ∃ old new, rows = old ++ new ∧ List.Forall₂ (fun b r => r = b ∨ PlainRow r) before old ∧
    ∀ r ∈ new, PlainRow r

theorem plainBehind_refl (rows : List ExecutorRow) : PlainBehind rows rows :=
  ⟨rows, [], (List.append_nil rows).symm, List.forall₂_same.mpr fun _ _ => Or.inl rfl, nofun⟩

theorem PlainBehind.append {before rows : List ExecutorRow} (h : PlainBehind before rows)
    {r : ExecutorRow} (plain : PlainRow r) : PlainBehind before (rows ++ [r]) := by
  obtain ⟨old, new, rfl, kept, plains⟩ := h
  refine ⟨old, new ++ [r], List.append_assoc old new [r], kept, fun r' mem => ?_⟩
  rcases List.mem_append.mp mem with before | last
  · exact plains r' before
  · exact List.mem_singleton.mp last ▸ plain

theorem PlainBehind.written {before rows : List ExecutorRow} (h : PlainBehind before rows)
    {result : ExecutorResult} (plain : Plain result) :
    PlainBehind before (rows.map (ExecutorTable.written result)) := by
  obtain ⟨old, new, rfl, kept, plains⟩ := h
  refine ⟨old.map (ExecutorTable.written result), new.map (ExecutorTable.written result),
    List.map_append, ?_, fun r mem => ?_⟩
  · rw [List.forall₂_map_right_iff]
    refine kept.imp fun b r old => ?_
    rcases plainRow_written plain r with same | own
    · rwa [same]
    · exact Or.inr own
  · obtain ⟨r', was, rfl⟩ := List.mem_map.mp mem
    rcases plainRow_written plain r' with same | own
    · exact same.symm ▸ plains r' was
    · exact own

/-- The results on their way from a reporter to the table are plain. -/
structure LinkPlain (l : Link Thread) : Prop where
  carried : ∀ req, Carries l.reporter req → AllPlain req.data
  exchanged : ∀ x, l.exchange = some x → AllPlain x.rest ∧
    ∀ item p, x.running = some (item, p) → AllPlain [item] ∧ p.Only (Asks item)

structure PlainState (before : List ExecutorRow) (s : State K Thread) : Prop where
  links : ∀ k, LinkPlain (s.links k)
  rows : PlainBehind before s.conn.db.executors.rows

/-- Commands hold no quote, and only executors report results. -/
def Quiet : Event K Thread → Prop
  | .exec _ _ cmd => SqlLiteral.quote ∉ cmd.toList
  | .reporter _ (.call _ _ req) => results req.data = []
  | _ => True

instance decidableQuiet {K Thread : Type} : ∀ e : Event K Thread, Decidable (Quiet e)
  | .exec _ _ cmd => inferInstanceAs (Decidable (SqlLiteral.quote ∉ cmd.toList))
  | .reporter _ (.call _ _ req) => inferInstanceAs (Decidable (results req.data = []))
  | .queue _ _ | .getSysInfo _ | .report _ _ | .ingest _ _ | .query _ | .elsewhere _ _ _
  | .reporter _ .control | .reporter _ (.notifyEnd _ _) | .reporter _ (.sender _)
  | .reporter _ (.poll _) => isTrue trivial

/-- A command adds at most a row without a result, also when it is stopped. -/
theorem rows_runCommand (documented : Documented misread) {cmd : String}
    (quoteless : SqlLiteral.quote ∉ cmd.toList) (conn : Connection) (computerId timestamp : Int) :
    let rows := ((Server.runCommand computerId timestamp cmd).run
      (answer misread) conn).2.db.executors.rows
    rows = conn.db.executors.rows ∨ rows = conn.db.executors.rows ++
      [⟨newRowid conn.db.executors.ids, computerId, none, none, timestamp, none, cmd⟩] := by
  have free : Quoteless (.insertExecutor computerId timestamp cmd) := by
    simpa [Quoteless, Query.strings] using quoteless
  have same : ((Server.runCommand computerId timestamp cmd).run (answer misread) conn).2 =
      (answer misread (.insertExecutor computerId timestamp cmd, true) conn).2 := by
    simp only [Server.runCommand, bind_eq, pure_eq, run_bind, run_ask]
    by_cases success : (answer misread (.insertExecutor computerId timestamp cmd, true)
      conn).1.success = true <;> simp [success]
  rw [same]
  generalize h : answer misread (.insertExecutor computerId timestamp cmd, true) conn = r
  have answered := h ▸ answer_quoteless documented free true conn
  revert answered
  generalize r.1 = res, r.2.db = db
  rintro (_ | _ | ⟨free, total, o, ho⟩)
  · exact Or.inl rfl
  · exact Or.inl rfl
  · obtain rfl := Option.some.inj ho
    exact Or.inr rfl

section Steps

variable [DecidableEq K] {before : List ExecutorRow} {s t : State K Thread}

/-- One link changes, and the rows stay plain. -/
theorem PlainState.setLink (h : PlainState before s) {k : K} {l : Link Thread}
    (links : t.links = Function.update s.links k l) (own : LinkPlain l)
    (rows : PlainBehind before t.conn.db.executors.rows) : PlainState before t where
  links := by
    intro j
    rw [links]
    by_cases hj : j = k
    · subst hj
      rw [Function.update_self]
      exact own
    · rw [Function.update_of_ne hj]
      exact h.links j
  rows := rows

theorem plain_exec (documented : Documented misread) (h : PlainState before s) {k : K}
    {timestamp : Int} {cmd : String} (quoteless : SqlLiteral.quote ∉ cmd.toList)
    (ht : execStep misread s k timestamp cmd = some t) : PlainState before t := by
  simp only [execStep, Option.bind_eq_bind, Option.bind_eq_some_iff] at ht
  obtain ⟨c, -, ht⟩ := ht
  have rows := rows_runCommand documented quoteless s.conn c.computerId timestamp
  have own := h.links k
  cases ran : (Server.runCommand c.computerId timestamp cmd).run (answer misread) s.conn with
  | mk out conn =>
    rw [ran] at rows ht
    have behind : PlainBehind before conn.db.executors.rows := by
      rcases rows with same | inserted
      · exact same ▸ h.rows
      · exact inserted ▸ h.rows.append (Or.inl ⟨rfl, rfl, rfl⟩)
    cases out with
    | none =>
      obtain rfl := Option.some.inj ht
      exact ⟨h.links, behind⟩
    | some data =>
      obtain rfl := Option.some.inj ht
      exact h.setLink rfl ⟨own.carried, own.exchanged⟩ behind

theorem plain_report (h : PlainState before s) {k : K} {timestamp : Int}
    (ht : reportStep s k timestamp = some t) : PlainState before t := by
  simp only [reportStep] at ht
  split at ht
  · rename_i req rest sending queue free
    obtain rfl := Option.some.inj ht
    refine h.setLink rfl ⟨(h.links k).carried, ?_⟩ h.rows
    rintro x ⟨⟩
    have front : Carries (s.links k).reporter req :=
      Or.inr ⟨_, by rw [queue]; exact List.mem_cons_self⟩
    refine ⟨(h.links k).carried req front, ?_⟩
    rintro item p ⟨⟩
  · cases ht

theorem plain_ingest (h : PlainState before s) {k : K} {clock : Clock}
    (ht : ingestStep s k clock = some t) : PlainState before t := by
  simp only [ingestStep] at ht
  split at ht
  · rename_i res item rest here
    obtain rfl := Option.some.inj ht
    obtain ⟨plain, -⟩ := (h.links k).exchanged _ here
    refine h.setLink rfl ⟨(h.links k).carried, ?_⟩ h.rows
    rintro x ⟨⟩
    refine ⟨fun result mem => plain result ?_, ?_⟩
    · exact ((List.sublist_cons_self item rest).filterMap _).subset mem
    · rintro item' p ⟨⟩
      refine ⟨fun result mem => plain result ?_, ingestRequestData_only clock item _ _⟩
      exact ((List.singleton_sublist.mpr List.mem_cons_self).filterMap _).subset mem
  · cases ht

theorem plain_query (h : PlainState before s) {k : K} (ht : queryStep misread s k = some t) :
    PlainState before t := by
  have own := h.links k
  simp only [queryStep] at ht
  split at ht
  · rename_i res rest item q next here
    obtain rfl := Option.some.inj ht
    obtain ⟨plain, running⟩ := own.exchanged _ here
    obtain ⟨result, asks, later⟩ := running item _ rfl
    refine h.setLink rfl ⟨own.carried, ?_⟩ ?_
    · rintro x ⟨⟩
      refine ⟨plain, ?_⟩
      rintro item' p ⟨⟩
      exact ⟨result, later _⟩
    · rcases rows_asked misread asks s.conn with same | ⟨type, -, same⟩
      · exact same ▸ h.rows
      · exact same ▸ h.rows.written (result _ (by simp [results, type]))
  · rename_i res rest item out here
    obtain rfl := Option.some.inj ht
    obtain ⟨plain, -⟩ := own.exchanged _ here
    refine h.setLink rfl ⟨own.carried, ?_⟩ h.rows
    rintro x ⟨⟩
    refine ⟨plain, ?_⟩
    rintro item' p ⟨⟩
  · cases ht

variable [DecidableEq Thread]

theorem plain_reporter (h : PlainState before s) {k : K} {e : RequestClient.Event Thread}
    (quiet : ∀ u type req, e = .call u type req → results req.data = [])
    (ht : reporterStep s k e = some t) : PlainState before t := by
  simp only [reporterStep, Option.bind_eq_bind, Option.bind_eq_some_iff, pure,
    Option.some.injEq] at ht
  obtain ⟨exchange, answered, reporter, stepped, rfl⟩ := ht
  refine h.setLink rfl ⟨fun req carries => ?_, fun x hx => ?_⟩ h.rows
  · rcases step_carries stepped carries with old | ⟨u, type, call⟩ | ⟨u, id, time, -, -, rfl⟩
    · exact (h.links k).carried req old
    · intro result mem
      rw [quiet u type req call] at mem
      cases mem
    · intro result mem
      rw [results_notifyEnd, List.mem_singleton] at mem
      rw [mem]
      exact ⟨rfl, rfl⟩
  · rcases exchange_answered answered with ⟨-, -, -, none⟩ | ⟨-, same⟩
    · rw [none] at hx
      cases hx
    · exact (h.links k).exchanged x (same ▸ hx)

theorem step_plain (documented : Documented misread) (s : State K Thread) (e : Event K Thread)
    (t : State K Thread) (h : PlainState before s) (quiet : Quiet e)
    (ht : CommandResults.step misread s e = some t) : PlainState before t := by
  cases e with
  | exec k timestamp cmd => exact plain_exec documented h quiet ht
  | queue k i =>
    simp only [CommandResults.step, queueStep, Option.bind_eq_bind, Option.bind_eq_some_iff, pure,
      Option.some.injEq] at ht
    obtain ⟨data, -, rfl⟩ := ht
    exact h.setLink rfl ⟨(h.links k).carried, (h.links k).exchanged⟩ h.rows
  | getSysInfo k =>
    obtain rfl := Option.some.inj ht
    exact h.setLink rfl ⟨(h.links k).carried, (h.links k).exchanged⟩ h.rows
  | report k timestamp => exact plain_report h ht
  | ingest k clock => exact plain_ingest h ht
  | query k => exact plain_query h ht
  | reporter k e =>
    refine plain_reporter h ?_ ht
    rintro u type req rfl
    exact quiet
  | elsewhere k computer conn =>
    simp only [CommandResults.step, Option.ite_none_right_eq_some, Option.some.injEq] at ht
    obtain ⟨same, rfl⟩ := ht
    exact h.setLink rfl ⟨(h.links k).carried, (h.links k).exchanged⟩ (same ▸ h.rows)

/-- Whatever the commands return, whatever ids they get and whatever faults the
statements meet, no row of the executor table is given more than an end time, the
code zero and the unknown type. -/
theorem run_plain (documented : Documented misread) (computers : K → Option RmsComputer)
    (configs : K → RmsConfig.Config) (ingestor : DbRequestIngestor) (conn : Connection)
    {es : List (Event K Thread)} (quiet : ∀ e ∈ es, Quiet e)
    (arrives : run (CommandResults.step misread)
      (CommandResults.start computers configs ingestor conn) es = some s) :
    ∃ old new, s.conn.db.executors.rows = old ++ new ∧
      List.Forall₂ (fun b r => r = b ∨ PlainRow r) conn.db.executors.rows old ∧
      ∀ r ∈ new, PlainRow r := by
  have start : PlainState conn.db.executors.rows
      (CommandResults.start computers configs ingestor conn : State K Thread) := by
    refine ⟨fun k => ⟨?_, fun x hx => ?_⟩, plainBehind_refl _⟩
    · rintro req (⟨u, type, hold⟩ | ⟨type, queued⟩)
      · cases hold
      · cases queued
    · cases hx
  exact (run_invariant (step_plain documented) start (guarded_of_forall quiet) arrives).rows

end Steps

theorem run_plain_roundTrips :
    ∃ s, run (CommandResults.step fun _ _ => none) (twoReporters []) roundTrips = some s ∧
      ∃ old new, s.conn.db.executors.rows = old ++ new ∧
        List.Forall₂ (fun b r => r = b ∨ PlainRow r) freshConn.db.executors.rows old ∧
        ∀ r ∈ new, PlainRow r := by
  have ends : (run (CommandResults.step fun _ _ => none) (twoReporters []) roundTrips).isSome =
      true := by
    decide +kernel
  obtain ⟨s, arrives⟩ := Option.isSome_iff_exists.mp ends
  have quiet : ∀ e ∈ roundTrips, Quiet e := by decide +kernel
  have plain := run_plain documented_none _ _ _ freshConn quiet arrives
  exact ⟨s, arrives, plain⟩

end ResultCodes
