import RemoteManagement.Ingestor

/-!
# The executor table

The only statement of the ingestor that touches the executor table is the
update for a result, and it names nothing but the executor's id. The machine
that a row belongs to plays no part.
-/

namespace ExecutorTable

open ThriftTypes SqlStatements ExecuteQuery Database QueryProgram Program
open Computer Usage Ingestor

/-- The statement does not name the executor table. -/
def Elsewhere : Query → Prop
  | .insertExecutor .. | .updateExecutor .. => False
  | _ => True

/-- A row after the update for a result. -/
def written (result : ExecutorResult) (r : ExecutorRow) : ExecutorRow :=
  if r.executorId = result.id then
    { r with
      endTime := some result.timeFinished, returnCode := some result.code
      returnType := some result.returnType.toInt }
  else r

theorem written_of_ne {result : ExecutorResult} {r : ExecutorRow} (h : r.executorId ≠ result.id) :
    written result r = r := if_neg h

section Frame

variable (misread : List Char → Db → Option Outcome)

theorem executors_elsewhere {q : Query} (readable : Readable q) (elsewhere : Elsewhere q)
    (asked : Bool) (conn : Connection) :
    (answer misread (q, asked) conn).2.db.executors = conn.db.executors := by
  rcases answer_db_of_readable misread asked readable conn with same | ⟨o, ho, same⟩
  · rw [same]
  · rw [same]
    cases q with
    | insertExecutor | updateExecutor => exact elsewhere.elim
    | updateUsage tick value date dataType dataId =>
      simp only [execute] at ho
      split at ho
      · exact Option.some.inj ho ▸ rfl
      · cases ho
    | insertComputer | updateComputer | fetchComputerById | fetchStorageByComputerId
    | insertStorage | updateStorage | insertUsage | doesUsageEntryExist =>
      exact Option.some.inj ho ▸ rfl

/-- The statements of a push carry no strings and leave the executors alone. -/
structure OfUsage (ask : Query × Bool) : Prop where
  strings : ask.1.strings = []
  fits : Fits ask.1
  elsewhere : Elsewhere ask.1

theorem OfUsage.readable {ask : Query × Bool} (h : OfUsage ask) : Readable ask.1 :=
  readable_usage h.strings h.fits

theorem pushUsages_only (tick : Int) (date : Date) (us : List UsageContainer) :
    (pushUsages tick date us).Only OfUsage := by
  induction us with
  | nil => exact trivial
  | cons u us ih =>
    refine only_bind ?_ fun _ => only_bind (only_ask ?_) fun _ => ih
    · rw [ensureEntry]
      split
      · refine only_bind (only_ask ⟨rfl, trivial, trivial⟩) fun res => ?_
        rw [insertEntry]
        split
        · exact only_bind (only_ask ⟨rfl, trivial, trivial⟩) fun _ => trivial
        · exact trivial
      · exact trivial
    · exact ⟨rfl, trivial, trivial⟩

theorem pushIfDue_only (clock : Clock) (ing : DbRequestIngestor) (computer : Option RmsComputer) :
    (pushIfDue clock ing computer).Only OfUsage := by
  simp only [pushIfDue]
  split
  · exact trivial
  · exact trivial
  · exact only_bind (only_bind (pushUsages_only _ _ _) fun _ => trivial) fun _ => trivial

theorem executors_of_only {α : Type} {p : DbProgram α} (only : p.Only OfUsage)
    (conn : Connection) :
    (p.run (answer misread) conn).2.db.executors = conn.db.executors :=
  run_only (answer misread) (fun s t => t.db.executors = s.db.executors) (fun _ => rfl)
    (fun _ _ _ first second => second.trans first)
    (fun q s h => executors_elsewhere misread h.readable h.elsewhere q.2 s) only conn

/-- The update for a result writes it, or nothing. -/
theorem executors_executorQuery (data : RmsRequestData) (asked : Bool) (conn : Connection) :
    let rows := (answer misread (executorQuery data, asked) conn).2.db.executors.rows
    rows = conn.db.executors.rows ∨
      rows = conn.db.executors.rows.map (written data.data.executorResult) := by
  have readable : Readable (executorQuery data) :=
    readable_of_plain (by simp [executorQuery, Query.strings]) trivial
  rcases answer_db_of_readable misread asked readable conn with same | ⟨o, ho, same⟩
  · exact Or.inl (by rw [same])
  · obtain rfl := Option.some.inj ho
    exact Or.inr (by rw [same]; rfl)

/-- Before the push there is at most the update for the result. -/
theorem executors_updateExecutor (computer : Option RmsComputer) (data : RmsRequestData)
    (conn : Connection) :
    let rows := ((updateExecutor computer data).run (answer misread) conn).2.db.executors.rows
    rows = conn.db.executors.rows ∨
      data.dataType = .kExecutorResult ∧
        rows = conn.db.executors.rows.map (written data.data.executorResult) := by
  rw [updateExecutor]
  split
  · rename_i result
    exact (executors_executorQuery misread data false conn).imp_right fun rows => ⟨result, rows⟩
  · exact Or.inl rfl

/-- All that the ingestion of one item asks. -/
theorem ingestRequestData_only (clock : Clock) (data : RmsRequestData) (ing : DbRequestIngestor)
    (computer : Option RmsComputer) :
    (ingestRequestData clock data ing computer).Only fun ask =>
      data.dataType = .kExecutorResult ∧ ask = (executorQuery data, false) ∨ OfUsage ask := by
  rw [ingestRequestData]
  split
  · exact trivial
  · refine only_bind ?_ fun served => ?_
    · rw [updateExecutor]
      split
      · rename_i result
        exact only_bind (only_ask (Or.inl ⟨result, rfl⟩)) fun _ => trivial
      · exact trivial
    · split
      · exact only_mono (fun _ => Or.inr) (pushIfDue_only clock ing _)
      · exact trivial

theorem executors_ingestRequestData (clock : Clock) (data : RmsRequestData)
    (ing : DbRequestIngestor) (computer : Option RmsComputer) (conn : Connection) :
    let rows :=
      ((ingestRequestData clock data ing computer).run (answer misread) conn).2.db.executors.rows
    rows = conn.db.executors.rows ∨
      data.dataType = .kExecutorResult ∧
        rows = conn.db.executors.rows.map (written data.data.executorResult) := by
  rw [ingestRequestData]
  split
  · exact Or.inl rfl
  · rename_i computer' _
    simp only [bind_eq, run_bind]
    have rest (served : Bool) (conn' : Connection) :
        ((if served then pushIfDue clock ing computer' else .ret none).run
          (answer misread) conn').2.db.executors = conn'.db.executors := by
      cases served with
      | true => exact executors_of_only misread (pushIfDue_only clock ing computer') conn'
      | false => rfl
    simp only [pure_eq, rest]
    exact executors_updateExecutor misread computer' data conn

end Frame

section Requests

/-- The executors that the results of a request name. -/
def resultIds (data : List (Clock × RmsRequestData)) : List Int :=
  (data.filter (fun d => d.2.dataType = .kExecutorResult)).map (fun d => d.2.data.executorResult.id)

/-- Every row stays in its place and keeps whose it is and what it runs, and a
row that is none of these executors' stays as it is. -/
structure ResultsOnly (ids : List Int) (f : ExecutorRow → ExecutorRow) : Prop where
  executorId : ∀ r, (f r).executorId = r.executorId
  computerId : ∀ r, (f r).computerId = r.computerId
  startTime : ∀ r, (f r).startTime = r.startTime
  name : ∀ r, (f r).name = r.name
  others : ∀ r, r.executorId ∉ ids → f r = r

theorem resultsOnly_id (ids : List Int) : ResultsOnly ids id :=
  ⟨fun _ => rfl, fun _ => rfl, fun _ => rfl, fun _ => rfl, fun _ _ => rfl⟩

theorem resultsOnly_written {ids : List Int} {result : ExecutorResult} (h : result.id ∈ ids) :
    ResultsOnly ids (written result) := by
  refine ⟨?_, ?_, ?_, ?_, fun r hr => written_of_ne fun same => hr (same ▸ h)⟩ <;>
    (intro r; rw [written]; split <;> rfl)

theorem ResultsOnly.comp {ids : List Int} {f g : ExecutorRow → ExecutorRow}
    (hg : ResultsOnly ids g) (hf : ResultsOnly ids f) : ResultsOnly ids (g ∘ f) where
  executorId := fun r => (hg.executorId (f r)).trans (hf.executorId r)
  computerId := fun r => (hg.computerId (f r)).trans (hf.computerId r)
  startTime := fun r => (hg.startTime (f r)).trans (hf.startTime r)
  name := fun r => (hg.name (f r)).trans (hf.name r)
  others := fun r hr => by
    rw [Function.comp_apply, hf.others r hr, hg.others r hr]

theorem ResultsOnly.mono {ids ids' : List Int} {f : ExecutorRow → ExecutorRow}
    (hf : ResultsOnly ids f) (sub : ids ⊆ ids') : ResultsOnly ids' f :=
  ⟨hf.executorId, hf.computerId, hf.startTime, hf.name, fun r hr => hf.others r fun h => hr (sub h)⟩

variable (misread : List Char → Db → Option Outcome)

/-- Whatever a request reports, and whatever the database answers, the only rows
that differ afterwards are those that a result of the request names. -/
theorem ingestRequest_resultsOnly (ing : DbRequestIngestor) (c : RmsComputer)
    (data : List (Clock × RmsRequestData)) (conn : Connection) :
    ∃ f, ResultsOnly (resultIds data) f ∧
      ((ingestRequest ing (some c) data).run (answer misread) conn).2.db.executors.rows =
        conn.db.executors.rows.map f := by
  induction data generalizing ing c conn with
  | nil => exact ⟨id, resultsOnly_id _, (List.map_id _).symm⟩
  | cons item data ih =>
    obtain ⟨clock, item⟩ := item
    obtain ⟨c', conn', first⟩ := run_ingestRequestData (answer misread) clock item ing c conn
    have rows := executors_ingestRequestData misread clock item ing (some c) conn
    rw [first] at rows
    have own : ∃ f, ResultsOnly (resultIds ((clock, item) :: data)) f ∧
        conn'.db.executors.rows = conn.db.executors.rows.map f := by
      rcases rows with same | ⟨result, same⟩
      · exact ⟨id, resultsOnly_id _, same.trans (List.map_id _).symm⟩
      · exact ⟨_, resultsOnly_written (by simp [resultIds, result]), same⟩
    obtain ⟨f, hf, rows⟩ := own
    obtain ⟨g, hg, rest⟩ := ih (ing.usagePush clock).1 c' conn'
    refine ⟨g ∘ f, (hg.mono ?_).comp hf, ?_⟩
    · exact (((List.sublist_cons_self _ data).filter _).map _).subset
    · simp only [ingestRequest, bind_eq, run_bind, first]
      rw [rest, rows, List.map_map]

/-- A running executor of computer 2. -/
def othersExecutor : Db :=
  { emptyDb with executors := ⟨[⟨1, 2, none, none, 0, none, "uptime"⟩], by decide, by decide⟩ }

/-- The client of computer 1 reports a result for it. -/
def foreignResult : RmsRequestData where
  dataType := .kExecutorResult
  data := { executorResult := { id := 1, timeFinished := 5 } }

theorem foreignResult_written :
    ¬ ∀ r ∈ othersExecutor.executors.rows, r.computerId ≠ (RmsComputer.create 1).computerId →
      r ∈ ((ingestRequest (.create 0) (some (RmsComputer.create 1))
        [(⟨0, 0, ⟨2022, 1, 1⟩⟩, foreignResult)]).run (answer fun _ _ => none)
          ⟨othersExecutor, 0, []⟩).2.db.executors.rows := by
  decide +kernel

end Requests

end ExecutorTable
