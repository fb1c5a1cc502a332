import RemoteManagement.Server
import RemoteManagement.Library.RunTrace

/-!
# The response queue

Terminal threads add responses to the queue of a client and its own thread
empties it into the reply of a report. The queue is only touched under its
mutex, so that adding and emptying are one step each. What `runCommand` asks of
the database and what `report` does with the request come outside the mutex,
with anything in between.
-/

namespace Responses

open ThriftTypes ExecuteQuery Database QueryProgram Program GuardedRun RunTrace
open Computer Ingestor Server

/-- The loop of `report` that empties the queue. -/
def drain (res : RmsResponse) : List RmsResponseData → RmsResponse
  | [] => res
  | data :: queue =>
    drain { header := { res.header with dataCount := res.header.dataCount + 1 }
            data := res.data ++ [data] } queue

/-- The reply before the queue is looked at. -/
def baseResponse (res : RmsResponse) (timestamp : Int) : RmsResponse :=
  { res with header := { timestamp := timestamp, dataCount := 0 } }

theorem data_drain (res : RmsResponse) (queue : List RmsResponseData) :
    (drain res queue).data = res.data ++ queue := by
  induction queue generalizing res with
  | nil => exact (List.append_nil _).symm
  | cons data queue ih => rw [drain, ih, List.append_assoc, List.singleton_append]

theorem header_drain (res : RmsResponse) (queue : List RmsResponseData) :
    (drain res queue).header =
      { res.header with dataCount := res.header.dataCount + queue.length } := by
  induction queue generalizing res with
  | nil => simp [drain]
  | cons data queue ih =>
    rw [drain, ih]
    simp only [List.length_cons, RmsHeader.mk.injEq, true_and]
    omega

section Ingesting

variable (misread : List Char → Db → Option Outcome)

/-- Both ingestors are handed the reply, and neither adds to it. -/
def ingestRequestData (item : Clock × RmsRequestData) (res : RmsResponse)
    (computer : Option RmsComputer) : Backend → Option (RmsResponse × Option RmsComputer × Backend)
  | .log => some (res, computer, .log)
  | .sqlite ing conn =>
    match (Ingestor.ingestRequestData item.1 item.2 ing computer).run (answer misread) conn with
    | (none, _) => none
    | (some out, conn) => some (res, out.computer, .sqlite out.ingestor conn)

/-- Nothing happens in between. -/
def ingestRequest (res : RmsResponse) (computer : Option RmsComputer) (backend : Backend) :
    List (Clock × RmsRequestData) → Option (RmsResponse × Option RmsComputer × Backend)
  | [] => some (res, computer, backend)
  | item :: rest =>
    (ingestRequestData misread item res computer backend).bind
      (fun out => ingestRequest out.1 out.2.1 out.2.2 rest)

theorem ingestRequestData_res {item : Clock × RmsRequestData} {res : RmsResponse}
    {computer : Option RmsComputer} {backend : Backend}
    {out : RmsResponse × Option RmsComputer × Backend}
    (h : ingestRequestData misread item res computer backend = some out) : out.1 = res := by
  cases backend with
  | log => exact (congrArg Prod.fst (Option.some.inj h)).symm
  | sqlite ing conn =>
    simp only [ingestRequestData] at h
    split at h
    · cases h
    · exact (congrArg Prod.fst (Option.some.inj h)).symm

theorem ingestRequest_log (res : RmsResponse) (computer : Option RmsComputer)
    (data : List (Clock × RmsRequestData)) :
    ingestRequest misread res computer .log data = some (res, computer, .log) := by
  induction data with
  | nil => rfl
  | cons item rest ih => exact ih

theorem ingestRequest_sqlite (res : RmsResponse) (computer : Option RmsComputer)
    (ing : DbRequestIngestor) (conn : Connection) (data : List (Clock × RmsRequestData)) :
    ingestRequest misread res computer (.sqlite ing conn) data =
      match (Ingestor.ingestRequest ing computer data).run (answer misread) conn with
      | (none, _) => none
      | (some (ing, computer), conn) => some (res, computer, .sqlite ing conn) := by
  induction data generalizing computer ing conn with
  | nil => rfl
  | cons item rest ih =>
    simp only [ingestRequest, ingestRequestData, Ingestor.ingestRequest, bind_eq, run_bind]
    cases (Ingestor.ingestRequestData item.1 item.2 ing computer).run (answer misread) conn with
    | mk out conn =>
      cases out with
      | none => rfl
      | some out => exact ih out.computer out.ingestor conn

/-- A report with nothing in between is the server's. -/
theorem report_eq (client : RmsClient) (timestamp : Int) (data : List (Clock × RmsRequestData))
    (backend : Backend) :
    report misread client timestamp data backend =
      (ingestRequest misread (drain (baseResponse {} timestamp) client.responseQueue)
        client.computer backend data).map (fun out => (out.1, ⟨out.2.1, []⟩, out.2.2)) := by
  have res : drain (baseResponse {} timestamp) client.responseQueue =
      { header := { timestamp := timestamp, dataCount := client.responseQueue.length }
        data := client.responseQueue } := by
    rw [RmsResponse.mk.injEq]
    refine ⟨?_, data_drain _ _⟩
    rw [header_drain]
    simp [baseResponse]
  rw [res]
  cases backend with
  | log =>
    rw [ingestRequest_log]
    rfl
  | sqlite ing conn =>
    rw [ingestRequest_sqlite]
    simp only [report]
    cases (Ingestor.ingestRequest ing client.computer data).run (answer misread) conn with
    | mk out conn => cases out <;> rfl

end Ingesting

/-- A call of `report` after it has emptied the queue, with the data it has
still to ingest. -/
structure Report where
  res : RmsResponse
  rest : List (Clock × RmsRequestData)

/-- One client. `inserted` has what each thread in `runCommand` will add. The
reports are in the order in which they emptied the queue. -/
structure State (Caller : Type) where
  computer : Option RmsComputer
  backend : Backend
  responseQueue : List RmsResponseData := []
  inserted : Caller → Option RmsResponseData := fun _ => none
  reports : List Report := []

inductive Event (Caller : Type) where
  | addResponse (data : RmsResponseData)
  | insert (k : Caller) (timestamp : Int) (cmd : String)
  | queue (k : Caller)
  | report (res : RmsResponse) (timestamp : Int) (data : List (Clock × RmsRequestData))
  | ingest (i : Nat)
  /-- Other calls handshake, or use the database and the ingestor. -/
  | elsewhere (computer : Option RmsComputer) (backend : Backend)

section Queue

variable {Caller : Type}

def start (computer : Option RmsComputer) (backend : Backend) : State Caller :=
  { computer := computer, backend := backend }

def State.addResponse (s : State Caller) (data : RmsResponseData) : State Caller :=
  { s with responseQueue := s.responseQueue ++ [data] }

/-- The responses that `addResponse` is called with. -/
def added (s : State Caller) : Event Caller → List RmsResponseData
  | .addResponse data => [data]
  | .queue k => (s.inserted k).toList
  | .insert _ _ _ | .report _ _ _ | .ingest _ | .elsewhere _ _ => []

/-- Every report is given an empty response. -/
def GivenEmpty : Event Caller → Prop
  | .report res _ _ => res.data = []
  | _ => True

/-- What was added so far is in the replies and then in the queue, and each reply
counts its data. -/
structure Returned (s : State Caller) (responses : List RmsResponseData) : Prop where
  data : s.reports.flatMap (fun r => r.res.data) ++ s.responseQueue = responses
  count : ∀ r ∈ s.reports, r.res.header.dataCount = r.res.data.length

variable {s : State Caller} {responses : List RmsResponseData}

theorem returned_addResponse (hs : Returned s responses) (data : RmsResponseData) :
    Returned (s.addResponse data) (responses ++ [data]) where
  data := by rw [State.addResponse, ← List.append_assoc, hs.data]
  count := hs.count

theorem returned_report (hs : Returned s responses) {res : RmsResponse} (empty : res.data = [])
    (timestamp : Int) (data : List (Clock × RmsRequestData)) :
    Returned { s with
      responseQueue := []
      reports := s.reports ++ [⟨drain (baseResponse res timestamp) s.responseQueue, data⟩] }
      responses where
  data := by
    have drained : (drain (baseResponse res timestamp) s.responseQueue).data = s.responseQueue := by
      rw [data_drain, baseResponse, empty, List.nil_append]
    simp only [List.flatMap_append, List.flatMap_singleton, drained, List.append_nil, hs.data]
  count := by
    intro r hr
    rcases List.mem_append.mp hr with old | new
    · exact hs.count r old
    · obtain rfl := List.mem_singleton.mp new
      simp [header_drain, data_drain, baseResponse, empty]

/-- A report that goes on keeps its reply. -/
theorem returned_ingest (hs : Returned s responses) {i : Nat} {report : Report}
    (hi : s.reports[i]? = some report) (rest : List (Clock × RmsRequestData)) :
    Returned { s with reports := s.reports.set i ⟨report.res, rest⟩ } responses := by
  obtain ⟨bound, rfl⟩ := List.getElem?_eq_some_iff.mp hi
  have replies : (s.reports.set i ⟨s.reports[i].res, rest⟩).map Report.res =
      s.reports.map Report.res := by
    rw [List.map_set, ← List.getElem_map Report.res (h := by simpa using bound),
      List.set_getElem_self]
  constructor
  · have data := hs.data
    rw [← List.flatMap_map Report.res] at data
    rwa [← List.flatMap_map Report.res, replies]
  · intro r hr
    have mem : r.res ∈ s.reports.map Report.res := replies ▸ List.mem_map_of_mem hr
    obtain ⟨r', hr', same⟩ := List.mem_map.mp mem
    rw [← same]
    exact hs.count r' hr'

end Queue

section Runs

variable {Caller : Type} [DecidableEq Caller] (misread : List Char → Db → Option Outcome)

def step (s : State Caller) : Event Caller → Option (State Caller)
  | .addResponse data => some (s.addResponse data)
  | .insert k timestamp cmd => do
    if (s.inserted k).isSome then none else
      let c ← s.computer
      let (data, backend) ←
        withDatabase misread (runCommand c.computerId timestamp cmd) s.backend
      return { s with backend := backend, inserted := Function.update s.inserted k data }
  | .queue k => do
    let data ← s.inserted k
    return { s with inserted := Function.update s.inserted k none }.addResponse data
  | .report res timestamp data => some { s with
      responseQueue := []
      reports := s.reports ++ [⟨drain (baseResponse res timestamp) s.responseQueue, data⟩] }
  | .ingest i => do
    let report ← s.reports[i]?
    match report.rest with
    | [] => none
    | item :: rest =>
      let out ← ingestRequestData misread item report.res s.computer s.backend
      return { s with
        computer := out.2.1, backend := out.2.2, reports := s.reports.set i ⟨out.1, rest⟩ }
  | .elsewhere computer backend => some { s with computer := computer, backend := backend }

theorem step_returned (s : State Caller) (e : Event Caller) (t : State Caller)
    (responses : List RmsResponseData) (hs : Returned s responses) (empty : GivenEmpty e)
    (h : step misread s e = some t) : Returned t (responses ++ added s e) := by
  cases e with
  | addResponse data => exact Option.some.inj h ▸ returned_addResponse hs data
  | insert k timestamp cmd =>
    simp only [step, Option.bind_eq_bind, Option.bind_eq_some_iff, Option.ite_none_left_eq_some,
      pure, Option.some.injEq] at h
    obtain ⟨-, c, -, r, -, rfl⟩ := h
    rw [added, List.append_nil]
    exact ⟨hs.data, hs.count⟩
  | queue k =>
    simp only [step, Option.bind_eq_bind, Option.bind_eq_some_iff, pure, Option.some.injEq] at h
    obtain ⟨data, inserted, rfl⟩ := h
    have same : Returned { s with inserted := Function.update s.inserted k none } responses :=
      ⟨hs.data, hs.count⟩
    rw [added, inserted]
    exact returned_addResponse same data
  | report res timestamp data =>
    rw [added, List.append_nil]
    exact Option.some.inj h ▸ returned_report hs empty timestamp data
  | ingest i =>
    simp only [step, Option.bind_eq_bind, Option.bind_eq_some_iff] at h
    obtain ⟨report, hi, h⟩ := h
    split at h
    · cases h
    · rename_i item rest _
      simp only [Option.bind_eq_some_iff, pure, Option.some.injEq] at h
      obtain ⟨out, ingested, rfl⟩ := h
      have kept := returned_ingest hs hi rest
      rw [← ingestRequestData_res misread ingested] at kept
      rw [added, List.append_nil]
      exact ⟨kept.data, kept.count⟩
  | elsewhere computer backend =>
    rw [added, List.append_nil]
    exact Option.some.inj h ▸ ⟨hs.data, hs.count⟩

end Runs

/-- Two threads run commands and a third response comes directly, around a
report of the first. -/
def crossing : List (Event Bool) :=
  [.insert true 5 "uptime", .insert false 5 "df", .queue false, .report {} 6 [(⟨0, 0, ⟨2022, 1, 1⟩⟩,
    ping)], .queue true, .ingest 0, .addResponse {}, .report {} 7 []]

example : (observed (step fun _ _ => none) added (start (some (RmsComputer.create 1)) sqlite)
    crossing).map (fun data => data.data.command.command) = ["df", "uptime", ""] := by
  decide +kernel

end Responses
