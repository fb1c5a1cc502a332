import RemoteManagement.ThriftTypes

/-!
# RmsSqliteDatabase::executeQuery

A statement is seen through what the calls on it return: the code of prepare,
the column names, what each step returns, and the rowids it inserts. The loop
over the rows stops at the first code that is not SQLITE_ROW and forgets which
code that was; a statement without columns is stepped once and its code is not
looked at.
-/

namespace ExecuteQuery

open ThriftTypes

/-- The codes other than SQLITE_ROW that prepare and step return. -/
inductive ResultCode where
  | ok
  | done
  | error
  | busy
  | full
  | constraint
  | misuse
  | other (code : Int)
  deriving DecidableEq, Repr

/-- What the steps of a statement return, up to the first code that is not
SQLITE_ROW. A row has the text of each column, or none for NULL. -/
inductive Stepping where
  | row (cells : List (Option String)) (next : Stepping)
  | ended (code : ResultCode)
  deriving DecidableEq, Repr

def columnText : Option String → String
  | none => ""
  | some text => text

def Stepping.rows : Stepping → List (List String)
  | .row cells next => cells.map columnText :: next.rows
  | .ended _ => []

def Stepping.final : Stepping → ResultCode
  | .row _ next => next.final
  | .ended code => code

/-- `previousRowid` is the connection's last insert rowid before the statement. -/
structure Statement where
  prepareCode : ResultCode
  columnNames : List String
  stepping : Stepping
  previousRowid : Int
  inserted : List Int
  noColumns_noRows : columnNames = [] → stepping.rows = []

def Statement.lastInsertRowid (st : Statement) : Int := st.inserted.getLastD st.previousRowid

/-- `lastId` is none while the field has not been assigned. -/
structure RmsQueryResult where
  success : Bool := true
  lastId : Option Int := none
  columnNames : List String := []
  tableRows : List (List String) := []
  deriving DecidableEq, Repr

def stepLoop (res : RmsQueryResult) : Stepping → RmsQueryResult
  | .row cells next =>
    stepLoop { res with tableRows := res.tableRows ++ [cells.map columnText] } next
  | .ended _ => res

def RmsQueryResult.withLastId (res : RmsQueryResult) (st : Statement) (returnInsertId : Bool) :
    RmsQueryResult :=
  if returnInsertId then { res with lastId := some (toInt32 st.lastInsertRowid) } else res

def executeQuery (st : Statement) (returnInsertId : Bool) : RmsQueryResult :=
  if st.prepareCode ≠ .ok then { success := false }
  else if st.columnNames = [] then ({} : RmsQueryResult).withLastId st returnInsertId
  else (stepLoop { columnNames := st.columnNames } st.stepping).withLastId st returnInsertId

theorem stepLoop_eq (res : RmsQueryResult) (s : Stepping) :
    stepLoop res s = { res with tableRows := res.tableRows ++ s.rows } := by
  induction s generalizing res with
  | row cells next ih =>
    rw [stepLoop, ih]
    simp [Stepping.rows]
  | ended code => simp [stepLoop, Stepping.rows]

theorem executeQuery_of_prepare_failed {st : Statement} (h : st.prepareCode ≠ .ok)
    (returnInsertId : Bool) : executeQuery st returnInsertId = { success := false } := by
  simp [executeQuery, h]

/-- Past prepare the result does not depend on how the stepping ended. -/
theorem executeQuery_of_prepared {st : Statement} (h : st.prepareCode = .ok)
    (returnInsertId : Bool) :
    executeQuery st returnInsertId =
      { success := true
        lastId := if returnInsertId then some (toInt32 st.lastInsertRowid) else none
        columnNames := st.columnNames
        tableRows := st.stepping.rows } := by
  by_cases hc : st.columnNames = []
  · have hr := st.noColumns_noRows hc
    cases returnInsertId <;> simp [executeQuery, h, hc, hr, RmsQueryResult.withLastId]
  · cases returnInsertId <;>
      simp [executeQuery, h, hc, stepLoop_eq, RmsQueryResult.withLastId]

/-- The statement ran to its end: prepare and the stepping both succeeded. -/
def Statement.Completed (st : Statement) : Prop :=
  st.prepareCode = .ok ∧ st.stepping.final = .done

instance (st : Statement) : Decidable st.Completed := inferInstanceAs (Decidable (_ ∧ _))

/-- The result tells success from failure, and success carries the rows and
the id of an inserted row. -/
def Reports (st : Statement) (returnInsertId : Bool) (res : RmsQueryResult) : Prop :=
  (res.success = true ↔ st.Completed) ∧
    (st.Completed → res.tableRows = st.stepping.rows ∧
      (returnInsertId = true → ∃ id ∈ st.inserted, res.lastId = some id))

/-- The id that is handed out, cut to an int, is the id of an inserted row. -/
def Statement.InsertsId (st : Statement) : Prop :=
  ∃ id, st.inserted.getLast? = some id ∧ toInt32 id ∈ st.inserted

theorem mem_inserted_iff (st : Statement) (hne : st.inserted ≠ []) :
    toInt32 st.lastInsertRowid ∈ st.inserted ↔ st.InsertsId := by
  have last : st.inserted.getLast? = some (st.inserted.getLast hne) :=
    List.getLast?_eq_some_getLast hne
  have rowid : st.lastInsertRowid = st.inserted.getLast hne := by
    rw [Statement.lastInsertRowid, List.getLastD_eq_getLast?, last, Option.getD_some]
  simp [Statement.InsertsId, last, rowid]

/-- Once prepared, a statement is reported right exactly if its stepping is
done and, where an id is asked for, it inserted the row of that id. -/
theorem executeQuery_reports_iff (st : Statement) (returnInsertId : Bool) :
    Reports st returnInsertId (executeQuery st returnInsertId) ↔
      (st.prepareCode = .ok →
        st.stepping.final = .done ∧ (returnInsertId = true → st.InsertsId)) := by
  by_cases h : st.prepareCode = .ok
  · have result := executeQuery_of_prepared h returnInsertId
    constructor
    · rintro ⟨success, content⟩ -
      have completed : st.Completed := success.mp (by rw [result])
      refine ⟨completed.2, fun asked => ?_⟩
      obtain ⟨id, hid, he⟩ := (content completed).2 asked
      have hcut : toInt32 st.lastInsertRowid = id := by
        rw [result, asked] at he
        exact Option.some.inj he
      exact (mem_inserted_iff st (List.ne_nil_of_mem hid)).mp (hcut ▸ hid)
    · intro cond
      obtain ⟨hdone, hinsert⟩ := cond h
      refine ⟨by simp [result, Statement.Completed, h, hdone], fun _ => ⟨by rw [result], ?_⟩⟩
      intro asked
      have inserts := hinsert asked
      have hne : st.inserted ≠ [] := by
        obtain ⟨id, hid, -⟩ := inserts
        intro he
        simp [he] at hid
      exact ⟨_, (mem_inserted_iff st hne).mpr inserts, by rw [result, asked]; rfl⟩
  · have result := executeQuery_of_prepare_failed h returnInsertId
    simp [Reports, Statement.Completed, h, result]

/-- An insert that finds the database locked. -/
def lockedInsert : Statement where
  prepareCode := .ok
  columnNames := []
  stepping := .ended .busy
  previousRowid := 7
  inserted := []
  noColumns_noRows := fun _ => rfl

/-- The locked insert is reported as a success with the id of an older row. -/
theorem lockedInsert_not_reports :
    ¬ Reports lockedInsert true (executeQuery lockedInsert true) := by
  intro h
  have completed : lockedInsert.Completed := h.1.mp (by decide)
  exact absurd completed (by decide)

end ExecuteQuery
