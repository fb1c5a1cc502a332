import RemoteManagement.ExecutorTable
import RemoteManagement.QuotelessStatements
import RemoteManagement.ReporterCommands
import RemoteManagement.Responses
import Mathlib.Data.List.Perm.Basic

/-!
# The results of commands

Any number of reporters, each on a reliable connection of its own. A command is
inserted into the executor table, queued on a connection, handed to the reporter
with a reply, and started there; its result comes back with a request and is
written to the table. Every query of the server is a step, and so is every step
of a thread of a reporter.
-/

namespace CommandResults

open ThriftTypes SqlStatements ExecuteQuery RowTable Database QueryProgram Program GuardedRun
open Computer Ingestor ExecutorTable QuotelessStatements RequestClient RequestDelivery
open ReporterCommands

/-- A call of `report`: the data still to be ingested, and what is left of the
ingestion that goes on. -/
structure Exchange where
  res : RmsResponse
  rest : List RmsRequestData
  running : Option (RmsRequestData × DbProgram (Option Ingested)) := none

/-- Both ends of a connection. Commands that have been inserted are pending until
their threads add them to the queue. -/
structure Link (Thread : Type) where
  computer : Option RmsComputer
  pending : List RmsResponseData := []
  responseQueue : List RmsResponseData := []
  exchange : Option Exchange := none
  reporter : RequestClient.State Thread

/-- A command that `runCommand` has inserted. -/
structure Accepted (K : Type) where
  link : K
  computerId : Int
  timestamp : Int
  command : Command

/-- What was accepted, started and ended so far. -/
structure Log (K : Type) where
  accepted : List (Accepted K) := []
  started : List (K × Command) := []
  ended : List (K × ExecutorResult) := []

def Log.accept {K : Type} (log : Log K) (a : Accepted K) : Log K :=
  { log with accepted := log.accepted ++ [a] }

def Log.record {K : Type} (log : Log K) (k : K) (started : List Command)
    (ended : List ExecutorResult) : Log K :=
  { log with started := log.started ++ started.map (k, ·), ended := log.ended ++ ended.map (k, ·) }

structure State (K Thread : Type) where
  links : K → Link Thread
  ingestor : DbRequestIngestor
  conn : Connection
  log : Log K := {}

inductive Event (K Thread : Type) where
  | exec (k : K) (timestamp : Int) (cmd : String)
  | queue (k : K) (i : Nat)
  | getSysInfo (k : K)
  | report (k : K) (timestamp : Int)
  | ingest (k : K) (clock : Clock)
  | query (k : K)
  | reporter (k : K) (e : RequestClient.Event Thread)
  /-- Other calls, which handshake and use the other tables. -/
  | elsewhere (k : K) (computer : Option RmsComputer) (conn : Connection)

section Steps

variable {K Thread : Type} [DecidableEq K] [DecidableEq Thread]
variable (misread : List Char → Db → Option Outcome)

def start (computers : K → Option RmsComputer) (configs : K → RmsConfig.Config)
    (ingestor : DbRequestIngestor) (conn : Connection) : State K Thread where
  links := fun k => { computer := computers k, reporter := RequestClient.start (configs k) }
  ingestor := ingestor
  conn := conn

def State.setLink (s : State K Thread) (k : K) (l : Link Thread) : State K Thread :=
  { s with links := Function.update s.links k l }

/-- `runCommand`, up to the response that it adds. -/
def execStep (s : State K Thread) (k : K) (timestamp : Int) (cmd : String) :
    Option (State K Thread) := do
  let l := s.links k
  let c ← l.computer
  match (Server.runCommand c.computerId timestamp cmd).run (answer misread) s.conn with
  | (none, conn) => return { s with conn := conn }
  | (some data, conn) => return { s.setLink k { l with pending := l.pending ++ [data] } with
      conn := conn
      log := s.log.accept ⟨k, c.computerId, timestamp, data.data.command⟩ }

def queueStep (s : State K Thread) (k : K) (i : Nat) : Option (State K Thread) := do
  let l := s.links k
  let data ← l.pending[i]?
  return s.setLink k { l with
    pending := l.pending.eraseIdx i, responseQueue := l.responseQueue ++ [data] }

/-- A report begins when the reporter sends its front request. -/
def reportStep (s : State K Thread) (k : K) (timestamp : Int) : Option (State K Thread) :=
  let l := s.links k
  match l.reporter.poll, l.reporter.requestQueue, l.exchange with
  | .sending, (.kTCP, req) :: _, none => some (s.setLink k { l with
      responseQueue := []
      exchange := some {
        res := Responses.drain (Responses.baseResponse {} timestamp) l.responseQueue
        rest := req.data } })
  | _, _, _ => none

def ingestStep (s : State K Thread) (k : K) (clock : Clock) : Option (State K Thread) :=
  let l := s.links k
  match l.exchange with
  | some ⟨res, item :: rest, none⟩ => some (s.setLink k { l with
      exchange := some ⟨res, rest,
        some (item, ingestRequestData clock item s.ingestor l.computer)⟩ })
  | _ => none

/-- The next query of an ingestion, or its end. -/
def queryStep (s : State K Thread) (k : K) : Option (State K Thread) :=
  let l := s.links k
  match l.exchange with
  | some ⟨res, rest, some (item, .query q next)⟩ =>
    let (r, conn) := answer misread q s.conn
    some { s.setLink k { l with exchange := some ⟨res, rest, some (item, next r)⟩ } with
      conn := conn }
  | some ⟨res, rest, some (_, .ret (some out))⟩ =>
    some { s.setLink k { l with computer := out.computer, exchange := some ⟨res, rest, none⟩ } with
      ingestor := out.ingestor }
  | _ => none

/-- The exchange after a step of the reporter. A reply comes when everything is
ingested, and no call throws. -/
def Link.answered (l : Link Thread) : RequestClient.Event Thread → Option (Option Exchange)
  | .poll (.replied data) =>
    match l.exchange with
    | some ⟨res, [], none⟩ => if data = res.data then some none else none
    | _ => none
  | .poll .lostRequest | .poll .lostReply | .poll (.sysInfoSent false)
  | .poll (.handshaken none) => none
  | _ => some l.exchange

def reporterStep (s : State K Thread) (k : K) (e : RequestClient.Event Thread) :
    Option (State K Thread) := do
  let l := s.links k
  let exchange ← l.answered e
  let reporter ← RequestClient.step l.reporter e
  return { s.setLink k { l with exchange := exchange, reporter := reporter } with
    log := s.log.record k (startedBy l.reporter e) (endedBy l.reporter e) }

def step (s : State K Thread) : Event K Thread → Option (State K Thread)
  | .exec k timestamp cmd => execStep misread s k timestamp cmd
  | .queue k i => queueStep s k i
  | .getSysInfo k =>
    let l := s.links k
    some (s.setLink k { l with
      responseQueue := l.responseQueue ++ [{ dataType := .kSendSystemInfo }] })
  | .report k timestamp => reportStep s k timestamp
  | .ingest k clock => ingestStep s k clock
  | .query k => queryStep misread s k
  | .reporter k e => reporterStep s k e
  | .elsewhere k computer conn =>
    if conn.db.executors.rows = s.conn.db.executors.rows then
      some { s.setLink k { s.links k with computer := computer } with conn := conn }
    else none

/-- Commands hold no quote and get fresh ids that fit an int, and only executors
report results. -/
def Honest (s : State K Thread) : Event K Thread → Prop
  | .exec _ _ cmd => SqlLiteral.quote ∉ cmd.toList ∧ InInt (newRowid s.conn.db.executors.ids)
  | .reporter _ (.call _ _ req) => results req.data = []
  | _ => True

instance decidableHonest {K Thread : Type} (s : State K Thread) :
    ∀ e, Decidable (Honest s e)
  | .exec _ _ cmd => inferInstanceAs (Decidable (SqlLiteral.quote ∉ cmd.toList ∧ _))
  | .reporter _ (.call _ _ req) => inferInstanceAs (Decidable (results req.data = []))
  | .queue _ _ | .getSysInfo _ | .report _ _ | .ingest _ _ | .query _ | .elsewhere _ _ _
  | .reporter _ .control | .reporter _ (.notifyEnd _ _) | .reporter _ (.sender _)
  | .reporter _ (.poll _) => isTrue trivial

/-- The insert of a command is not stopped on its way, which would be reported as
a success. -/
def Unstopped (s : State K Thread) : Event K Thread → Prop
  | .exec _ _ _ => stopsAfter s.conn = none
  | _ => True

instance decidableUnstopped {K Thread : Type} (s : State K Thread) :
    ∀ e, Decidable (Unstopped s e)
  | .exec _ _ _ => inferInstanceAs (Decidable (stopsAfter s.conn = none))
  | .queue _ _ | .getSysInfo _ | .report _ _ | .ingest _ _ | .query _ | .elsewhere _ _ _
  | .reporter _ _ => isTrue trivial

end Steps

section Ownership

variable {K Thread : Type} [DecidableEq K]

def Log.acceptedAt (log : Log K) (k : K) : List Command :=
  (log.accepted.filter (fun a => a.link = k)).map Accepted.command

def Log.startedAt (log : Log K) (k : K) : List Command :=
  (log.started.filter (fun p => p.1 = k)).map Prod.snd

/-- The responses on their way from the insert to the reporter's dispatch. -/
def Link.responses (l : Link Thread) : List RmsResponseData :=
  l.pending ++ l.responseQueue ++ l.exchange.elim [] (fun x => x.res.data) ++
    handled l.reporter.poll

/-- The results among the data are those of ended commands of the connection. -/
def Reported (log : Log K) (k : K) (data : List RmsRequestData) : Prop :=
  ∀ result ∈ results data, (k, result) ∈ log.ended

/-- The queries that the ingestion of an item may still ask. -/
def Asks (item : RmsRequestData) (ask : Query × Bool) : Prop :=
  item.dataType = .kExecutorResult ∧ ask = (executorQuery item, false) ∨ OfUsage ask

/-- Each command of the connection is started or on its way, a thread that runs
one has not ended it, and no result is on its way but those of ended commands. -/
structure LinkOwned (log : Log K) (k : K) (l : Link Thread) : Prop where
  started : Started l.reporter
  onWay : (log.acceptedAt k).Perm (log.startedAt k ++ commands l.responses)
  running : ∀ u id, l.reporter.senders u = .running id →
    (∃ c, (k, c) ∈ log.started ∧ c.id = id) ∧ ∀ p ∈ log.ended, p.2.id ≠ id
  alone : ∀ u v id, l.reporter.senders u = .running id → l.reporter.senders v = .running id → u = v
  carried : ∀ req, Carries l.reporter req → Reported log k req.data
  exchanged : ∀ x, l.exchange = some x → Reported log k x.rest ∧
    ∀ item p, x.running = some (item, p) → Reported log k [item] ∧ p.Only (Asks item)

structure LogOwned (log : Log K) : Prop where
  fits : ∀ a ∈ log.accepted, InInt a.command.id
  startedOnce : (log.started.map (fun p => p.2.id)).Nodup
  ended : ∀ p ∈ log.ended, ∃ c, (p.1, c) ∈ log.started ∧ c.id = p.2.id
  endedOnce : (log.ended.map (fun p => p.2.id)).Nodup

/-- The row of an accepted command, and its result if it has one. -/
structure RowOf (log : Log K) (a : Accepted K) (r : ExecutorRow) : Prop where
  executorId : r.executorId = a.command.id
  computerId : r.computerId = a.computerId
  startTime : r.startTime = a.timestamp
  name : r.name = a.command.command
  result : (r.endTime = none ∧ r.returnCode = none ∧ r.returnType = none) ∨
    ∃ result, (a.link, result) ∈ log.ended ∧ result.id = a.command.id ∧
      r.endTime = some result.timeFinished ∧ r.returnCode = some result.code ∧
      r.returnType = some result.returnType.toInt

/-- The executor table is what it was, and after it the rows of the accepted
commands in their order. -/
structure Owned (before : List ExecutorRow) (s : State K Thread) : Prop where
  links : ∀ k, LinkOwned s.log k (s.links k)
  log : LogOwned s.log
  rows : ∃ rows, s.conn.db.executors.rows = before ++ rows ∧
    List.Forall₂ (RowOf s.log) s.log.accepted rows

theorem mem_acceptedAt {log : Log K} {k : K} {c : Command} :
    c ∈ log.acceptedAt k ↔ ∃ a ∈ log.accepted, a.link = k ∧ a.command = c := by
  simp [Log.acceptedAt, and_assoc]

theorem acceptedAt_accept (log : Log K) (a : Accepted K) (k : K) :
    (log.accept a).acceptedAt k =
      log.acceptedAt k ++ if a.link = k then [a.command] else [] := by
  by_cases h : a.link = k <;> simp [Log.acceptedAt, Log.accept, h]

theorem startedAt_record (log : Log K) (j : K) (started : List Command)
    (ended : List ExecutorResult) (k : K) :
    (log.record j started ended).startedAt k =
      log.startedAt k ++ if j = k then started else [] := by
  by_cases h : j = k <;> simp [Log.startedAt, Log.record, h, List.filter_map, Function.comp_def]

theorem mem_startedAt {log : Log K} {k : K} {c : Command} :
    c ∈ log.startedAt k ↔ (k, c) ∈ log.started := by
  simp [Log.startedAt]

omit [DecidableEq K] in
theorem ids_of_rows {log : Log K} {accepted : List (Accepted K)} {rows : List ExecutorRow}
    (h : List.Forall₂ (RowOf log) accepted rows) :
    rows.map ExecutorRow.executorId = accepted.map (fun a => a.command.id) := by
  induction h with
  | nil => rfl
  | cons row _ ih => rw [List.map_cons, List.map_cons, row.executorId, ih]

variable {before : List ExecutorRow} {s : State K Thread}

/-- The ids of the rows there were and of the accepted commands all differ. -/
theorem Owned.distinct (h : Owned before s) :
    (before.map ExecutorRow.executorId ++ s.log.accepted.map (fun a => a.command.id)).Nodup := by
  obtain ⟨rows, table, commands⟩ := h.rows
  rw [← ids_of_rows commands, ← List.map_append, ← table]
  exact s.conn.db.executors.distinct

theorem Owned.accepted_unique (h : Owned before s) {a a' : Accepted K} (ha : a ∈ s.log.accepted)
    (ha' : a' ∈ s.log.accepted) (same : a.command.id = a'.command.id) : a = a' :=
  List.inj_on_of_nodup_map h.distinct.of_append_right ha ha' same

/-- A started command was accepted on the connection of the reporter. -/
theorem Owned.accepted_of_started (h : Owned before s) {k : K} {c : Command}
    (started : (k, c) ∈ s.log.started) : ∃ a ∈ s.log.accepted, a.link = k ∧ a.command = c :=
  mem_acceptedAt.mp ((h.links k).onWay.mem_iff.mpr
    (List.mem_append_left _ (mem_startedAt.mpr started)))

/-- A command that is on its way has not been started anywhere. -/
theorem Owned.not_started (h : Owned before s) {k : K} {c : Command}
    (onWay : c ∈ commands (s.links k).responses) : ∀ p ∈ s.log.started, p.2.id ≠ c.id := by
  rintro ⟨j, c'⟩ started same
  have perm := (h.links k).onWay
  obtain ⟨a, ha, rfl, rfl⟩ := mem_acceptedAt.mp (perm.mem_iff.mpr (List.mem_append_right _ onWay))
  obtain ⟨a', ha', rfl, rfl⟩ := h.accepted_of_started started
  obtain rfl := h.accepted_unique ha' ha same
  have once : (s.log.acceptedAt a'.link).Nodup := by
    refine List.Nodup.of_map Command.id ?_
    rw [Log.acceptedAt, List.map_map]
    exact h.distinct.of_append_right.sublist (List.filter_sublist.map _)
  exact (List.nodup_append.mp (perm.nodup_iff.mp once)).2.2 _ (mem_startedAt.mpr started) _ onWay rfl

theorem LinkOwned.relink {log : Log K} {k : K} {l l' : Link Thread} (h : LinkOwned log k l)
    (reporter : l'.reporter = l.reporter)
    (responses : (commands l.responses).Perm (commands l'.responses))
    (exchanged : ∀ x, l'.exchange = some x → Reported log k x.rest ∧
      ∀ item p, x.running = some (item, p) → Reported log k [item] ∧ p.Only (Asks item)) :
    LinkOwned log k l' where
  started := reporter ▸ h.started
  onWay := h.onWay.trans (responses.append_left _)
  running := reporter ▸ h.running
  alone := reporter ▸ h.alone
  carried := reporter ▸ h.carried
  exchanged := exchanged

/-- The rows after a step, where the log stays as it is. -/
theorem Owned.setLink {t : State K Thread} (h : Owned before s) {k : K} {l : Link Thread}
    (links : t.links = Function.update s.links k l) (log : t.log = s.log)
    (own : LinkOwned s.log k l)
    (rows : ∃ rows, t.conn.db.executors.rows = before ++ rows ∧
      List.Forall₂ (RowOf s.log) s.log.accepted rows) : Owned before t where
  links := by
    intro j
    rw [links, log]
    by_cases hj : j = k
    · subst hj
      rw [Function.update_self]
      exact own
    · rw [Function.update_of_ne hj]
      exact h.links j
  log := log ▸ h.log
  rows := log ▸ rows

/-- What a growing log leaves of another connection. -/
theorem LinkOwned.frame {log log' : Log K} {j : K} {l : Link Thread} (h : LinkOwned log j l)
    (accepted : log'.acceptedAt j = log.acceptedAt j)
    (startedAt : log'.startedAt j = log.startedAt j) (ended : log.ended ⊆ log'.ended)
    (running : ∀ u id, l.reporter.senders u = .running id → ∀ p ∈ log'.ended, p.2.id ≠ id) :
    LinkOwned log' j l where
  started := h.started
  onWay := by rw [accepted, startedAt]; exact h.onWay
  running := fun u id run => by
    obtain ⟨⟨c, hc, same⟩, -⟩ := h.running u id run
    exact ⟨⟨c, mem_startedAt.mp (startedAt ▸ mem_startedAt.mpr hc), same⟩, running u id run⟩
  alone := h.alone
  carried := fun req carries result mem => ended (h.carried req carries result mem)
  exchanged := fun x hx => by
    obtain ⟨rest, running⟩ := h.exchanged x hx
    refine ⟨fun result mem => ended (rest result mem), fun item p hp => ?_⟩
    obtain ⟨reported, only⟩ := running item p hp
    exact ⟨fun result mem => ended (reported result mem), only⟩

omit [DecidableEq K] in
theorem RowOf.mono {log log' : Log K} (ended : log.ended ⊆ log'.ended) {a : Accepted K}
    {r : ExecutorRow} (h : RowOf log a r) : RowOf log' a r where
  executorId := h.executorId
  computerId := h.computerId
  startTime := h.startTime
  name := h.name
  result := h.result.imp_right fun ⟨result, mem, values⟩ => ⟨result, ended mem, values⟩

omit [DecidableEq K] in
theorem forall₂_accept {log : Log K} {rows : List ExecutorRow}
    (commands : List.Forall₂ (RowOf log) log.accepted rows) {a : Accepted K} {r : ExecutorRow}
    (row : RowOf log a r) :
    List.Forall₂ (RowOf (log.accept a)) (log.accept a).accepted (rows ++ [r]) := by
  have same : log.ended ⊆ (log.accept a).ended := List.Subset.refl _
  exact List.rel_append (commands.imp fun _ _ old => old.mono same) (.cons (row.mono same) .nil)

end Ownership

section Inserting

variable {misread : List Char → Db → Option Outcome}

/-- A command is refused, or it is given the id of its row. -/
theorem run_runCommand (documented : Documented misread) {cmd : String}
    (quoteless : SqlLiteral.quote ∉ cmd.toList) {conn : Connection}
    (unstopped : stopsAfter conn = none) (fits : InInt (newRowid conn.db.executors.ids))
    (computerId timestamp : Int) :
    let r := (Server.runCommand computerId timestamp cmd).run (answer misread) conn
    (r.1 = none ∧ r.2.db = conn.db) ∨
      r.1 = some {
        dataType := .kRunCommand
        data := { command := { command := cmd, id := newRowid conn.db.executors.ids } } } ∧
      r.2.db.executors.rows = conn.db.executors.rows ++
        [⟨newRowid conn.db.executors.ids, computerId, none, none, timestamp, none, cmd⟩] := by
  have free : Quoteless (.insertExecutor computerId timestamp cmd) := by
    simpa [Quoteless, Query.strings] using quoteless
  have first := answered_insertExecutor (answer_quoteless documented free true conn) unstopped
  simp only [Server.runCommand, bind_eq, pure_eq, run_bind, run_ask]
  obtain ⟨failed, same⟩ | ⟨success, lastId, rows⟩ := first
  · exact Or.inl (by simp [failed, same])
  · exact Or.inr (by simp [success, lastId, toInt32_of_inInt fits, rows])

end Inserting

section ServerSteps

variable {K Thread : Type} [DecidableEq K] [DecidableEq Thread]
variable {misread : List Char → Db → Option Outcome}
variable {before : List ExecutorRow} {s t : State K Thread}

omit [DecidableEq K] [DecidableEq Thread] in
/-- A new command is on its way as soon as its thread is about to add it. -/
theorem inserted_onWay {accepted started : List Command} {l : Link Thread}
    (onWay : accepted.Perm (started ++ commands l.responses)) (data : RmsResponseData)
    (command : data.dataType = .kRunCommand) :
    (accepted ++ [data.data.command]).Perm
      (started ++ commands { l with pending := l.pending ++ [data] }.responses) := by
  rw [List.perm_iff_count] at onWay ⊢
  intro c
  have own := onWay c
  simp only [Link.responses, commands_append, commands_cons_command command, commands_nil,
    List.count_append] at own ⊢
  omega

omit [DecidableEq Thread] in
theorem owned_exec (documented : Documented misread) (h : Owned before s) {k : K}
    {timestamp : Int} {cmd : String} (quoteless : SqlLiteral.quote ∉ cmd.toList)
    (unstopped : stopsAfter s.conn = none) (fits : InInt (newRowid s.conn.db.executors.ids))
    (ht : execStep misread s k timestamp cmd = some t) : Owned before t := by
  simp only [execStep, Option.bind_eq_bind, Option.bind_eq_some_iff] at ht
  obtain ⟨c, -, ht⟩ := ht
  obtain ⟨rows, table, commands⟩ := h.rows
  have result := run_runCommand documented quoteless unstopped fits c.computerId timestamp
  cases ran : (Server.runCommand c.computerId timestamp cmd).run (answer misread) s.conn with
  | mk out conn =>
    rw [ran] at result ht
    obtain ⟨rfl, same⟩ | ⟨rfl, inserted⟩ := result
    · obtain rfl := Option.some.inj ht
      exact ⟨h.links, h.log, rows, by rw [same, table], commands⟩
    · obtain rfl := Option.some.inj ht
      refine ⟨fun j => ?_, ⟨?_, h.log.startedOnce, h.log.ended, h.log.endedOnce⟩, ?_⟩
      · have own := h.links j
        by_cases hj : j = k
        · subst hj
          simp only [State.setLink, Function.update_self]
          refine ⟨own.started, ?_, own.running, own.alone, own.carried, own.exchanged⟩
          rw [acceptedAt_accept, if_pos rfl]
          exact inserted_onWay own.onWay { dataType := .kRunCommand, data := { command := _ } } rfl
        · simp only [State.setLink, Function.update_of_ne hj]
          refine own.frame ?_ rfl (List.Subset.refl _) fun u id run => (own.running u id run).2
          rw [acceptedAt_accept, if_neg (Ne.symm hj), List.append_nil]
      · intro a ha
        rcases List.mem_append.mp ha with old | new
        · exact h.log.fits a old
        · exact List.mem_singleton.mp new ▸ fits
      · refine ⟨_, by rw [inserted, table, List.append_assoc], forall₂_accept commands ?_⟩
        exact ⟨rfl, rfl, rfl, rfl, Or.inl ⟨rfl, rfl, rfl⟩⟩

omit [DecidableEq Thread] in
theorem owned_queue (h : Owned before s) {k : K} {i : Nat} (ht : queueStep s k i = some t) :
    Owned before t := by
  simp only [queueStep, Option.bind_eq_bind, Option.bind_eq_some_iff, pure, Option.some.injEq] at ht
  obtain ⟨data, hdata, rfl⟩ := ht
  obtain ⟨hi, rfl⟩ := List.getElem?_eq_some_iff.mp hdata
  refine h.setLink rfl rfl ((h.links k).relink rfl ?_ (h.links k).exchanged) h.rows
  refine List.Perm.filterMap _ ?_
  have taken := List.getElem_cons_eraseIdx_perm hi
  rw [List.perm_iff_count] at taken ⊢
  intro d
  have own := taken d
  simp only [Link.responses, List.count_append, List.count_cons, List.count_nil] at own ⊢
  omega

omit [DecidableEq Thread] in
theorem owned_getSysInfo (h : Owned before s) (k : K) :
    Owned before (s.setLink k { s.links k with
      responseQueue := (s.links k).responseQueue ++ [{ dataType := .kSendSystemInfo }] }) := by
  refine h.setLink rfl rfl ((h.links k).relink rfl (List.Perm.of_eq ?_) (h.links k).exchanged) h.rows
  simp [Link.responses, commands]

omit [DecidableEq Thread] in
theorem owned_report (h : Owned before s) {k : K} {timestamp : Int}
    (ht : reportStep s k timestamp = some t) : Owned before t := by
  simp only [reportStep] at ht
  split at ht
  · rename_i req rest sending queue free
    obtain rfl := Option.some.inj ht
    refine h.setLink rfl rfl ((h.links k).relink rfl (List.Perm.of_eq ?_) ?_) h.rows
    · simp [Link.responses, free, Responses.data_drain, Responses.baseResponse]
    · rintro x ⟨⟩
      have mem : (ReporterThreads.RequestProtocol.kTCP, req) ∈ (s.links k).reporter.requestQueue := by
        rw [queue]
        exact List.mem_cons_self
      refine ⟨(h.links k).carried req (Or.inr ⟨_, mem⟩), ?_⟩
      rintro item p ⟨⟩
  · cases ht

omit [DecidableEq Thread] in
theorem owned_ingest (h : Owned before s) {k : K} {clock : Clock}
    (ht : ingestStep s k clock = some t) : Owned before t := by
  simp only [ingestStep] at ht
  split at ht
  · rename_i res item rest here
    obtain rfl := Option.some.inj ht
    obtain ⟨reported, -⟩ := (h.links k).exchanged _ here
    refine h.setLink rfl rfl ((h.links k).relink rfl (List.Perm.of_eq ?_) ?_) h.rows
    · simp [Link.responses, here]
    · rintro x ⟨⟩
      refine ⟨fun result mem => reported result ?_, ?_⟩
      · exact ((List.sublist_cons_self item rest).filterMap _).subset mem
      · rintro item' p ⟨⟩
        refine ⟨fun result mem => reported result ?_, ingestRequestData_only clock item _ _⟩
        exact ((List.singleton_sublist.mpr List.mem_cons_self).filterMap _).subset mem
  · cases ht

/-- A query of an ingestion writes at most the result of its item. -/
theorem rows_asked (misread : List Char → Db → Option Outcome) {item : RmsRequestData}
    {q : Query × Bool} (asks : Asks item q) (conn : Connection) :
    let rows := (answer misread q conn).2.db.executors.rows
    rows = conn.db.executors.rows ∨ item.dataType = .kExecutorResult ∧
      q = (executorQuery item, false) ∧
      rows = conn.db.executors.rows.map (written item.data.executorResult) := by
  rcases asks with ⟨result, rfl⟩ | usage
  · exact (executors_executorQuery misread item false conn).imp_right
      fun rows => ⟨result, rfl, rows⟩
  · exact Or.inl (congrArg Table.rows
      (executors_elsewhere misread usage.readable usage.elsewhere q.2 conn))

omit [DecidableEq Thread] in
/-- The result of an ended command is written to the row of that command. -/
theorem Owned.written (h : Owned before s) {k : K} {result : ExecutorResult}
    (ended : (k, result) ∈ s.log.ended) {rows : List ExecutorRow}
    (commands : List.Forall₂ (RowOf s.log) s.log.accepted rows) :
    before.map (ExecutorTable.written result) = before ∧
      List.Forall₂ (RowOf s.log) s.log.accepted (rows.map (ExecutorTable.written result)) := by
  obtain ⟨c, started, same⟩ := h.log.ended _ ended
  obtain ⟨a, ha, rfl, rfl⟩ := h.accepted_of_started started
  constructor
  · refine (List.map_congr_left fun r hr => ?_).trans (List.map_id _)
    refine written_of_ne fun own => ?_
    exact (List.nodup_append.mp h.distinct).2.2 _ (List.mem_map_of_mem hr) _
      (List.mem_map_of_mem ha) (own.trans same.symm)
  · rw [List.forall₂_map_right_iff]
    refine List.forall₂_iff_get.mpr ⟨commands.length_eq, fun i hi hi' => ?_⟩
    have row := commands.get hi hi'
    by_cases own : (rows.get ⟨i, hi'⟩).executorId = result.id
    · obtain rfl := h.accepted_unique (List.get_mem _ ⟨i, hi⟩) ha
        (row.executorId.symm.trans (own.trans same.symm))
      simp only [ExecutorTable.written, if_pos own]
      exact ⟨row.executorId, row.computerId, row.startTime, row.name,
        Or.inr ⟨result, ended, same.symm, rfl, rfl, rfl⟩⟩
    · rw [written_of_ne own]
      exact row

omit [DecidableEq Thread] in
theorem owned_query (h : Owned before s) {k : K} (ht : queryStep misread s k = some t) :
    Owned before t := by
  have own := h.links k
  simp only [queryStep] at ht
  split at ht
  · rename_i res rest item q next here
    obtain rfl := Option.some.inj ht
    obtain ⟨reported, running⟩ := own.exchanged _ here
    obtain ⟨result, asks, later⟩ := running item _ rfl
    obtain ⟨rows, table, commands⟩ := h.rows
    refine h.setLink rfl rfl (own.relink rfl (List.Perm.of_eq ?_) ?_) ?_
    · simp [Link.responses, here]
    · rintro x ⟨⟩
      refine ⟨reported, ?_⟩
      rintro item' p ⟨⟩
      exact ⟨result, later _⟩
    · rcases rows_asked misread asks s.conn with same | ⟨type, -, same⟩
      · exact ⟨rows, same.trans table, commands⟩
      · have ended : (k, item.data.executorResult) ∈ s.log.ended := result _ (by simp [results, type])
        obtain ⟨untouched, commands⟩ := h.written ended commands
        exact ⟨_, by rw [same, table, List.map_append, untouched], commands⟩
  · rename_i res rest item out here
    obtain rfl := Option.some.inj ht
    obtain ⟨reported, -⟩ := own.exchanged _ here
    refine h.setLink rfl rfl (own.relink rfl (List.Perm.of_eq ?_) ?_) h.rows
    · simp [Link.responses, here]
    · rintro x ⟨⟩
      refine ⟨reported, ?_⟩
      rintro item' p ⟨⟩
  · cases ht

end ServerSteps

section ReporterSteps

variable {K Thread : Type} [DecidableEq K] [DecidableEq Thread]
variable {before : List ExecutorRow} {s t : State K Thread}

omit [DecidableEq Thread] in
/-- The result that a thread makes is the first one for its command. -/
theorem Owned.new_ended (h : Owned before s) {k : K} {e : RequestClient.Event Thread}
    {result : ExecutorResult} (new : result ∈ endedBy (s.links k).reporter e) :
    ∃ u time, e = .notifyEnd u time ∧ (s.links k).reporter.senders u = .running result.id ∧
      ∃ c, (k, c) ∈ s.log.started ∧ c.id = result.id := by
  obtain ⟨u, id, time, rfl, running, rfl⟩ := mem_endedBy.mp new
  obtain ⟨c, started, rfl⟩ := ((h.links k).running u id running).1
  obtain ⟨a, ha, -, rfl⟩ := h.accepted_of_started started
  have cut := toInt32_of_inInt (h.log.fits a ha)
  exact ⟨u, time, rfl, by rw [cut, running], a.command, started, cut.symm⟩

omit [DecidableEq Thread] in
/-- A reply hands over the whole exchange, and nothing else ends one. -/
theorem exchange_answered {l : Link Thread} {e : RequestClient.Event Thread}
    {exchange : Option Exchange} (answered : l.answered e = some exchange) :
    (∃ res, e = .poll (.replied res.data) ∧ l.exchange = some ⟨res, [], none⟩ ∧ exchange = none) ∨
      (∀ data, e ≠ .poll (.replied data)) ∧ exchange = l.exchange := by
  simp only [Link.answered] at answered
  split at answered
  · split at answered
    · rename_i data _ res here
      rw [Option.ite_none_right_eq_some] at answered
      obtain ⟨rfl, same⟩ := answered
      exact Or.inl ⟨res, rfl, here, (Option.some.inj same).symm⟩
    · cases answered
  · cases answered
  · cases answered
  · cases answered
  · cases answered
  · rename_i other _ _ _ _
    exact Or.inr ⟨fun data same => other data same, (Option.some.inj answered).symm⟩

theorem responses_answered {l : Link Thread} {e : RequestClient.Event Thread}
    {exchange : Option Exchange} {reporter : RequestClient.State Thread}
    (started : Started l.reporter) (answered : l.answered e = some exchange)
    (h : RequestClient.step l.reporter e = some reporter) :
    (commands l.responses).Perm (startedBy l.reporter e ++
      commands { l with exchange := exchange, reporter := reporter }.responses) := by
  have connected : e ≠ .poll (.sysInfoSent false) := by
    rintro rfl
    cases answered
  rcases step_commands started connected h with ⟨data, rfl, sending, handed⟩ | ⟨other, kept⟩
  · rcases exchange_answered answered with ⟨res, reply, here, rfl⟩ | ⟨other, -⟩
    · obtain rfl := Answer.replied.inj (Event.poll.inj reply)
      have empty : handled l.reporter.poll = [] := by rw [sending]; rfl
      exact List.Perm.of_eq (by simp [Link.responses, here, empty, handed, startedBy])
    · exact absurd rfl (other data)
  · rcases exchange_answered answered with ⟨res, rfl, -, -⟩ | ⟨-, rfl⟩
    · exact absurd rfl (other res.data)
    rw [List.perm_iff_count]
    intro c
    simp only [Link.responses, commands_append, kept, List.count_append]
    omega

/-- A command that a step starts has not been started before. -/
theorem Owned.starts_new (h : Owned before s) {k : K} {e : RequestClient.Event Thread}
    {exchange : Option Exchange} {reporter : RequestClient.State Thread}
    (answered : (s.links k).answered e = some exchange)
    (stepped : RequestClient.step (s.links k).reporter e = some reporter) {c : Command}
    (hc : startedBy (s.links k).reporter e = [c]) : ∀ p ∈ s.log.started, p.2.id ≠ c.id :=
  h.not_started ((responses_answered (h.links k).started answered stepped).mem_iff.mpr
    (List.mem_append_left _ (by simp [hc])))

/-- A thread with a command's id was started for it and has not ended it. -/
theorem Owned.reporter_running (h : Owned before s) {k : K} {e : RequestClient.Event Thread}
    {exchange : Option Exchange} {reporter : RequestClient.State Thread}
    (answered : (s.links k).answered e = some exchange)
    (stepped : RequestClient.step (s.links k).reporter e = some reporter) {u : Thread} {id : Int}
    (run : reporter.senders u = .running id) :
    let log := s.log.record k (startedBy (s.links k).reporter e) (endedBy (s.links k).reporter e)
    (∃ c, (k, c) ∈ log.started ∧ c.id = id) ∧ ∀ p ∈ log.ended, p.2.id ≠ id := by
  have own := h.links k
  rcases step_running stepped run with ⟨old, other⟩ | ⟨c, rfl, hc, rfl⟩
  · obtain ⟨⟨c, started, same⟩, unended⟩ := own.running u id old
    refine ⟨⟨c, List.mem_append_left _ started, same⟩, fun p hp => ?_⟩
    rcases List.mem_append.mp hp with before | now
    · exact unended p before
    · obtain ⟨result, made, rfl⟩ := List.mem_map.mp now
      obtain ⟨v, time, rfl, run', -⟩ := h.new_ended made
      intro clash
      exact other time (own.alone u v id old (clash ▸ run') ▸ rfl)
  · refine ⟨⟨c, List.mem_append_right _ (by simp [hc]), rfl⟩, fun p hp => ?_⟩
    have before : p ∈ s.log.ended := by simpa [Log.record, endedBy] using hp
    obtain ⟨c', started, same⟩ := h.log.ended p before
    exact same ▸ h.starts_new answered stepped hc _ started

/-- No two threads have one id. -/
theorem Owned.reporter_alone (h : Owned before s) {k : K} {e : RequestClient.Event Thread}
    {exchange : Option Exchange} {reporter : RequestClient.State Thread}
    (answered : (s.links k).answered e = some exchange)
    (stepped : RequestClient.step (s.links k).reporter e = some reporter) {u v : Thread} {id : Int}
    (run : reporter.senders u = .running id) (run' : reporter.senders v = .running id) : u = v := by
  have own := h.links k
  have clash {w : Thread} {c : Command} (old : (s.links k).reporter.senders w = .running c.id)
      (hc : startedBy (s.links k).reporter e = [c]) : False := by
    obtain ⟨⟨c', started, same⟩, -⟩ := own.running w _ old
    exact h.starts_new answered stepped hc _ started same
  rcases step_running stepped run with ⟨old, -⟩ | ⟨c, executes, hc, rfl⟩
  · rcases step_running stepped run' with ⟨old', -⟩ | ⟨c, -, hc, rfl⟩
    · exact own.alone u v id old old'
    · exact (clash old hc).elim
  · rcases step_running stepped run' with ⟨old', -⟩ | ⟨c', executes', -, -⟩
    · exact (clash old' hc).elim
    · exact Answer.executing.inj (Event.poll.inj (executes.symm.trans executes'))

/-- What a step of the reporter leaves of its own connection. -/
theorem Owned.reporter_own (h : Owned before s) {k : K} {e : RequestClient.Event Thread}
    (honest : ∀ u type req, e = .call u type req → results req.data = [])
    {exchange : Option Exchange} {reporter : RequestClient.State Thread}
    (answered : (s.links k).answered e = some exchange)
    (stepped : RequestClient.step (s.links k).reporter e = some reporter) :
    LinkOwned (s.log.record k (startedBy (s.links k).reporter e) (endedBy (s.links k).reporter e)) k
      { s.links k with exchange := exchange, reporter := reporter } := by
  have own := h.links k
  have responses := responses_answered own.started answered stepped
  have reported {data : List RmsRequestData} (old : Reported s.log k data) :
      Reported (s.log.record k (startedBy (s.links k).reporter e)
        (endedBy (s.links k).reporter e)) k data :=
    fun result mem => List.mem_append_left _ (old result mem)
  refine ⟨step_started _ e _ own.started stepped, ?_,
    fun u id run => h.reporter_running answered stepped run,
    fun u v id run run' => h.reporter_alone answered stepped run run', ?_, ?_⟩
  · have later := own.onWay.trans (responses.append_left _)
    rw [startedAt_record, if_pos rfl, List.append_assoc]
    exact later
  · intro req carries
    rcases step_carries stepped carries with old | ⟨u, type, call⟩ | ⟨u, id, time, rfl, run, rfl⟩
    · exact reported (own.carried req old)
    · intro result mem
      rw [honest u type req call] at mem
      cases mem
    · intro result mem
      refine List.mem_append_right _ (List.mem_map_of_mem (mem_endedBy.mpr ⟨u, id, time, rfl, run, ?_⟩))
      simpa [results_notifyEnd] using mem
  · intro x hx
    rcases exchange_answered answered with ⟨-, -, -, none⟩ | ⟨-, same⟩
    · rw [none] at hx
      cases hx
    · obtain ⟨rest, running⟩ := own.exchanged x (same ▸ hx)
      refine ⟨reported rest, fun item p hp => ?_⟩
      obtain ⟨result, only⟩ := running item p hp
      exact ⟨reported result, only⟩

/-- What a step of a reporter leaves of the log. -/
theorem Owned.reporter_log (h : Owned before s) {k : K} {e : RequestClient.Event Thread}
    {exchange : Option Exchange} {reporter : RequestClient.State Thread}
    (answered : (s.links k).answered e = some exchange)
    (stepped : RequestClient.step (s.links k).reporter e = some reporter) :
    LogOwned (s.log.record k (startedBy (s.links k).reporter e)
      (endedBy (s.links k).reporter e)) where
  fits := h.log.fits
  startedOnce := by
    rcases startedBy_cases (s.links k).reporter e with none | ⟨c, one⟩
    · simpa [Log.record, none] using h.log.startedOnce
    · simp only [Log.record, one, List.map_append, List.map_cons, List.map_nil]
      refine List.nodup_append.mpr ⟨h.log.startedOnce, List.nodup_singleton _, ?_⟩
      intro i hi j hj same
      obtain ⟨p, hp, rfl⟩ := List.mem_map.mp hi
      exact h.starts_new answered stepped one p hp (same.trans (List.mem_singleton.mp hj))
  ended := by
    intro p hp
    rcases List.mem_append.mp hp with before | now
    · obtain ⟨c, started, same⟩ := h.log.ended p before
      exact ⟨c, List.mem_append_left _ started, same⟩
    · obtain ⟨result, made, rfl⟩ := List.mem_map.mp now
      obtain ⟨-, -, -, -, c, started, same⟩ := h.new_ended made
      exact ⟨c, List.mem_append_left _ started, same⟩
  endedOnce := by
    rcases endedBy_cases (s.links k).reporter e with none | ⟨result, one⟩
    · simpa [Log.record, none] using h.log.endedOnce
    · obtain ⟨u, -, -, run, -⟩ := h.new_ended (k := k) (by rw [one]; exact List.mem_singleton_self _)
      simp only [Log.record, one, List.map_append, List.map_cons, List.map_nil]
      refine List.nodup_append.mpr ⟨h.log.endedOnce, List.nodup_singleton _, ?_⟩
      intro i hi j hj same
      obtain ⟨p, hp, rfl⟩ := List.mem_map.mp hi
      exact ((h.links k).running u _ run).2 p hp (same.trans (List.mem_singleton.mp hj))

theorem owned_reporter (h : Owned before s) {k : K} {e : RequestClient.Event Thread}
    (honest : ∀ u type req, e = .call u type req → results req.data = [])
    (ht : reporterStep s k e = some t) : Owned before t := by
  simp only [reporterStep, Option.bind_eq_bind, Option.bind_eq_some_iff, pure,
    Option.some.injEq] at ht
  obtain ⟨exchange, answered, reporter, stepped, rfl⟩ := ht
  have ended : s.log.ended ⊆ (s.log.record k (startedBy (s.links k).reporter e)
      (endedBy (s.links k).reporter e)).ended := List.subset_append_left _ _
  refine ⟨fun j => ?_, h.reporter_log answered stepped, ?_⟩
  · by_cases hj : j = k
    · subst hj
      simp only [State.setLink, Function.update_self]
      exact h.reporter_own honest answered stepped
    · simp only [State.setLink, Function.update_of_ne hj]
      refine (h.links j).frame rfl ?_ ended fun u id run p hp => ?_
      · rw [startedAt_record, if_neg (Ne.symm hj), List.append_nil]
      · -- a result of this reporter is for a command of its own connection
        obtain ⟨⟨c, started, rfl⟩, unended⟩ := (h.links j).running u id run
        rcases List.mem_append.mp hp with before | now
        · exact unended p before
        · obtain ⟨result, made, rfl⟩ := List.mem_map.mp now
          obtain ⟨-, -, -, -, c', started', same'⟩ := h.new_ended made
          obtain ⟨a, ha, rfl, rfl⟩ := h.accepted_of_started started
          obtain ⟨a', ha', rfl, rfl⟩ := h.accepted_of_started started'
          intro clash
          exact hj (h.accepted_unique ha ha' (clash.symm.trans same'.symm) ▸ rfl)
  · obtain ⟨rows, table, commands⟩ := h.rows
    exact ⟨rows, table, commands.imp fun _ _ row => row.mono ended⟩

end ReporterSteps

section Runs

variable {K Thread : Type} [DecidableEq K] [DecidableEq Thread]
variable {misread : List Char → Db → Option Outcome}
variable {before : List ExecutorRow} {s t : State K Thread}

theorem step_owned (documented : Documented misread) (s : State K Thread) (e : Event K Thread)
    (t : State K Thread) (h : Owned before s) (guard : Honest s e ∧ Unstopped s e)
    (ht : step misread s e = some t) : Owned before t := by
  obtain ⟨honest, unstopped⟩ := guard
  cases e with
  | exec k timestamp cmd => exact owned_exec documented h honest.1 unstopped honest.2 ht
  | queue k i => exact owned_queue h ht
  | getSysInfo k => exact Option.some.inj ht ▸ owned_getSysInfo h k
  | report k timestamp => exact owned_report h ht
  | ingest k clock => exact owned_ingest h ht
  | query k => exact owned_query h ht
  | reporter k e =>
    refine owned_reporter h ?_ ht
    rintro u type req rfl
    exact honest
  | elsewhere k computer conn =>
    simp only [step, Option.ite_none_right_eq_some, Option.some.injEq] at ht
    obtain ⟨same, rfl⟩ := ht
    obtain ⟨rows, table, commands⟩ := h.rows
    have own := h.links k
    exact h.setLink rfl rfl (own.relink rfl (List.Perm.refl _) own.exchanged)
      ⟨rows, same.trans table, commands⟩

omit [DecidableEq Thread] in
theorem owned_start (computers : K → Option RmsComputer) (configs : K → RmsConfig.Config)
    (ingestor : DbRequestIngestor) (conn : Connection) :
    Owned conn.db.executors.rows (start computers configs ingestor conn : State K Thread) where
  links := by
    intro k
    refine ⟨started_start _, List.Perm.refl _, nofun, nofun, ?_, ?_⟩
    · rintro req (⟨u, type, hold⟩ | ⟨type, queued⟩)
      · cases hold
      · cases queued
    · intro x hx
      cases hx
  log := ⟨nofun, List.nodup_nil, nofun, List.nodup_nil⟩
  rows := ⟨[], (List.append_nil _).symm, .nil⟩

/-- Each accepted command has its one row, is started at most once and on its
own connection, and ends at most once; the rows that were there stay as they
were. -/
structure Attributed (before : List ExecutorRow) (s : State K Thread) : Prop where
  oneRow : ∀ a ∈ s.log.accepted, ∃ r, RowOf s.log a r ∧
    s.conn.db.executors.rows.filter (fun r => r.executorId = a.command.id) = [r]
  others : ∃ rows, s.conn.db.executors.rows = before ++ rows
  startedOnce : (s.log.started.map (fun p => p.2.id)).Nodup
  started : ∀ k c, (k, c) ∈ s.log.started → ∃ a ∈ s.log.accepted, a.link = k ∧ a.command = c
  endedOnce : (s.log.ended.map (fun p => p.2.id)).Nodup
  ended : ∀ k result, (k, result) ∈ s.log.ended → ∃ c, (k, c) ∈ s.log.started ∧ c.id = result.id

omit [DecidableEq Thread] in
theorem Owned.attributed (h : Owned before s) : Attributed before s where
  oneRow := by
    intro a ha
    obtain ⟨rows, table, commands⟩ := h.rows
    obtain ⟨i, hi, rfl⟩ := List.getElem_of_mem ha
    have row := commands.get hi (commands.length_eq ▸ hi)
    refine ⟨_, row, ?_⟩
    have mem : rows.get ⟨i, commands.length_eq ▸ hi⟩ ∈ s.conn.db.executors.rows.filter
        (fun r => r.executorId = s.log.accepted[i].command.id) := by
      rw [List.mem_filter, table]
      exact ⟨List.mem_append_right _ (List.getElem_mem _), decide_eq_true row.executorId⟩
    rw [KeyedList.filter_key_eq_lookup s.conn.db.executors.distinct] at mem ⊢
    rw [Option.mem_toList.mp mem]
    rfl
  others := h.rows.imp fun _ rows => rows.1
  startedOnce := h.log.startedOnce
  started := fun _ _ started => h.accepted_of_started started
  endedOnce := h.log.endedOnce
  ended := fun k result mem => h.log.ended (k, result) mem

/-- The next query of the connection is the update for the result. -/
def Writing (s : State K Thread) (k : K) (result : ExecutorResult) : Prop :=
  ∃ res rest item next,
    (s.links k).exchange = some ⟨res, rest, some (item, .query (executorQuery item, false) next)⟩ ∧
      item.dataType = .kExecutorResult ∧ item.data.executorResult = result

/-- A row stays as it is, or the result of its command is written to it. -/
theorem step_rows (documented : Documented misread) {e : Event K Thread} (h : Owned before s)
    (honest : Honest s e) (unstopped : Unstopped s e) (ht : step misread s e = some t) :
    ∀ r ∈ s.conn.db.executors.rows, r ∈ t.conn.db.executors.rows ∨
      ∃ k result, e = .query k ∧ Writing s k result ∧ (k, result) ∈ s.log.ended ∧
        result.id = r.executorId ∧ written result r ∈ t.conn.db.executors.rows := by
  intro r hr
  cases e with
  | exec k timestamp cmd =>
    simp only [step, execStep, Option.bind_eq_bind, Option.bind_eq_some_iff] at ht
    obtain ⟨c, -, ht⟩ := ht
    have result := run_runCommand documented honest.1 unstopped honest.2 c.computerId timestamp
    cases ran : (Server.runCommand c.computerId timestamp cmd).run (answer misread) s.conn with
    | mk out conn =>
      rw [ran] at result ht
      obtain ⟨rfl, same⟩ | ⟨rfl, inserted⟩ := result
      · exact Or.inl (Option.some.inj ht ▸ same ▸ hr)
      · exact Or.inl (Option.some.inj ht ▸ inserted ▸ List.mem_append_left _ hr)
  | queue k i =>
    simp only [step, queueStep, Option.bind_eq_bind, Option.bind_eq_some_iff, pure,
      Option.some.injEq] at ht
    obtain ⟨data, -, rfl⟩ := ht
    exact Or.inl hr
  | getSysInfo k => exact Or.inl (Option.some.inj ht ▸ hr)
  | report k timestamp =>
    simp only [step, reportStep] at ht
    split at ht
    · exact Or.inl (Option.some.inj ht ▸ hr)
    · cases ht
  | ingest k clock =>
    simp only [step, ingestStep] at ht
    split at ht
    · exact Or.inl (Option.some.inj ht ▸ hr)
    · cases ht
  | query k =>
    simp only [step, queryStep] at ht
    split at ht
    · rename_i res rest item q next here
      obtain rfl := Option.some.inj ht
      obtain ⟨-, running⟩ := (h.links k).exchanged _ here
      obtain ⟨reported, asks, -⟩ := running item _ rfl
      rcases rows_asked misread asks s.conn with same | ⟨type, rfl, same⟩
      · exact Or.inl (same ▸ hr)
      · by_cases own : r.executorId = item.data.executorResult.id
        · refine Or.inr ⟨k, item.data.executorResult, rfl, ⟨res, rest, item, next, here, type, rfl⟩,
            reported _ (by simp [results, type]), own.symm, ?_⟩
          exact same ▸ List.mem_map_of_mem hr
        · refine Or.inl (same ▸ List.mem_map.mpr ⟨r, hr, written_of_ne own⟩)
    · exact Or.inl (Option.some.inj ht ▸ hr)
    · cases ht
  | reporter k e =>
    simp only [step, reporterStep, Option.bind_eq_bind, Option.bind_eq_some_iff, pure,
      Option.some.injEq] at ht
    obtain ⟨_, -, _, -, rfl⟩ := ht
    exact Or.inl hr
  | elsewhere k computer conn =>
    simp only [step, Option.ite_none_right_eq_some, Option.some.injEq] at ht
    obtain ⟨same, rfl⟩ := ht
    exact Or.inl (same ▸ hr)

/-- In every run over reliable connections that stops no insert of a command, the
results reach their own rows. -/
theorem honest_run_attributed (documented : Documented misread)
    (computers : K → Option RmsComputer) (configs : K → RmsConfig.Config)
    (ingestor : DbRequestIngestor) (conn : Connection) {es : List (Event K Thread)}
    (guarded : Guarded (step misread) (fun s e => Honest s e ∧ Unstopped s e)
      (start computers configs ingestor conn) es)
    (arrives : run (step misread) (start computers configs ingestor conn) es = some s) :
    Attributed conn.db.executors.rows s ∧
      ∀ e t, Honest s e → Unstopped s e → step misread s e = some t →
        ∀ r ∈ s.conn.db.executors.rows, r ∈ t.conn.db.executors.rows ∨
          ∃ k result, e = .query k ∧ Writing s k result ∧ (k, result) ∈ s.log.ended ∧
            result.id = r.executorId ∧ written result r ∈ t.conn.db.executors.rows := by
  have owned := run_invariant (step_owned documented)
    (owned_start computers configs ingestor conn) guarded arrives
  exact ⟨owned.attributed,
    fun e t honest unstopped ht => step_rows documented owned honest unstopped ht⟩

end Runs

/-- Steps of one of two reporters. -/
def steps (k : Bool) (es : List (RequestClient.Event Bool)) : List (Event Bool Bool) :=
  es.map (.reporter k)

/-- The poll thread comes to the front request of its queue, and the server begins
to answer it. -/
def exchanges (k : Bool) (timestamp : Int) : List (Event Bool Bool) :=
  steps k [.poll .quiet, .poll .quiet, .poll .quiet] ++ [.report k timestamp]

/-- The reply brings a command. -/
def replied (k : Bool) (id : Int) (cmd : String) : List (Event Bool Bool) :=
  let data := { dataType := .kRunCommand, data := { command := { command := cmd, id := id } } }
  steps k [.poll (.replied [data]), .poll (.executing true), .poll .quiet, .poll .quiet]

/-- The command ends, and its result is sent and written. -/
def ends (k : Bool) (timeFinished : Int) : List (Event Bool Bool) :=
  steps k [.notifyEnd true timeFinished, .sender true, .sender true, .sender true] ++
    exchanges k (timeFinished + 1) ++ [.ingest k ⟨0, 0, ⟨2022, 1, 1⟩⟩, .query k, .query k] ++
    steps k [.poll (.replied []), .poll .quiet]

/-- Two reporters are given a command each, and the second command ends first. -/
def roundTrips : List (Event Bool Bool) :=
  steps true (.control :: connects 1 ++ sends false {}) ++
    steps false (.control :: connects 2 ++ sends false {}) ++
    [.exec true 5 "df", .exec false 6 "uptime", .queue false 0, .queue true 0] ++
    exchanges true 7 ++ exchanges false 8 ++ replied false 2 "uptime" ++ replied true 1 "df" ++
    ends false 9 ++ ends true 11

def twoReporters (faults : List (Option Fault)) : State Bool Bool :=
  start (fun k => some (RmsComputer.create (if k then 1 else 2))) (fun _ => RmsConfig.unregistered)
    (.create 0) { freshConn with faults := faults }

example : (run (step fun _ _ => none) (twoReporters []) roundTrips).map
    (fun s => s.conn.db.executors.rows) = some [⟨1, 1, some 0, some 0, 5, some 11, "df"⟩,
      ⟨2, 2, some 0, some 0, 6, some 9, "uptime"⟩] := by
  decide +kernel

theorem roundTrips_attributed :
    ∃ s, run (step fun _ _ => none) (twoReporters []) roundTrips = some s ∧
      Attributed [] s ∧ ∀ e t, Honest s e → Unstopped s e → step (fun _ _ => none) s e = some t →
        ∀ r ∈ s.conn.db.executors.rows, r ∈ t.conn.db.executors.rows ∨
          ∃ k result, e = .query k ∧ Writing s k result ∧ (k, result) ∈ s.log.ended ∧
            result.id = r.executorId ∧ written result r ∈ t.conn.db.executors.rows := by
  have ends : (run (step fun _ _ => none) (twoReporters []) roundTrips).isSome = true := by
    decide +kernel
  obtain ⟨s, arrives⟩ := Option.isSome_iff_exists.mp ends
  exact ⟨s, arrives,
    honest_run_attributed documented_none _ _ _ freshConn (by decide +kernel) arrives⟩

/-- The insert of the first command is stopped, which is reported as a success. -/
def stoppedInsert : State Bool Bool := twoReporters [some (.step 0 .busy busy_ne_done)]

/-- The command is accepted with an id that no row has. -/
theorem stoppedInsert_not_attributed :
    ∃ s, run (step fun _ _ => none) stoppedInsert [.exec true 5 "df"] = some s ∧
      Guarded (step fun _ _ => none) Honest stoppedInsert [.exec true 5 "df"] ∧
      s.log.accepted.length = 1 ∧ s.conn.db.executors.rows = [] ∧ ¬ Attributed [] s := by
  have ends : (run (step fun _ _ => none) stoppedInsert [.exec true 5 "df"]).map (fun s =>
      (s.log.accepted.length, s.conn.db.executors.rows)) = some (1, []) := by
    decide +kernel
  obtain ⟨s, arrives, same⟩ := Option.map_eq_some_iff.mp ends
  obtain ⟨accepted, rows⟩ := Prod.mk.inj same
  refine ⟨s, arrives, by decide +kernel, accepted, rows, fun attributed => ?_⟩
  obtain ⟨a, mem⟩ := List.exists_mem_of_length_pos (l := s.log.accepted) (by omega)
  obtain ⟨r, -, only⟩ := attributed.oneRow a mem
  rw [rows] at only
  cases only

end CommandResults
