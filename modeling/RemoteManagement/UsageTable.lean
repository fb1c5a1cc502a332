import RemoteManagement.UsageContainers

/-!
# The usage table

A push counts the rows of each container's key, inserts one if there is none,
and updates it. The key of a row is its date, type and id. If every query does
its work this is an upsert, container by container. If the count fails, its
answer has no rows, and that is taken for the answer that there is no entry.
-/

namespace UsageTable

open ThriftTypes SqlStatements ExecuteQuery Database QueryProgram Program GuardedRun
open Computer Usage Ingestor UsageContainers

def rowKey (r : UsageRow) : Date × Int × Option Int := (r.date, r.dataType, r.dataId)

def entryKey (date : Date) (u : UsageContainer) : Date × Int × Option Int :=
  (date, u.usageType.toInt, queryId u)

def rowKeys (db : Db) : List (Date × Int × Option Int) := db.usages.rows.map rowKey

/-- No key has more than one row. -/
def OneEach (db : Db) : Prop := (rowKeys db).Nodup

instance (db : Db) : Decidable (OneEach db) := inferInstanceAs (Decidable (List.Nodup _))

/-- What `pushUsages` does for one container. -/
def pushUsage (tick : Int) (date : Date) (u : UsageContainer) : DbProgram Unit := do
  ensureEntry tick date u
  let _ ← ask (.updateUsage tick u.getData date u.usageType.toInt (queryId u), false)
  return ()

theorem pushUsages_cons (tick : Int) (date : Date) (u : UsageContainer) (us : List UsageContainer) :
    pushUsages tick date (u :: us) =
      (pushUsage tick date u).bind (fun _ => pushUsages tick date us) := by
  simp only [pushUsages, pushUsage, bind_eq, pure_eq, Program.bind_bind, ask, query_bind, ret_bind]

/-- The answer to a query that fails this way has no rows. -/
def silent : Option Fault → Bool
  | some (.prepare _ _) => true
  | some (.step 0 _ _) => true
  | _ => false

/-- The count is asked for. -/
def Checks (tick : Int) (u : UsageContainer) : Prop := !u.tableExist ∨ tick = 0

instance (tick : Int) (u : UsageContainer) : Decidable (Checks tick u) :=
  inferInstanceAs (Decidable (_ ∨ _))

theorem ensureEntry_of_checks {tick : Int} {u : UsageContainer} (h : Checks tick u) (date : Date) :
    ensureEntry tick date u =
      (ask (.doesUsageEntryExist date u.usageType.toInt (queryId u), false)).bind
        (fun res => insertEntry date u res.tableRows) :=
  if_pos h

theorem ensureEntry_of_not_checks {tick : Int} {u : UsageContainer} (h : ¬ Checks tick u)
    (date : Date) : ensureEntry tick date u = .ret () :=
  if_neg h

theorem repr_eq_zero_iff (n : Nat) : n.repr = "0" ↔ n = 0 := by
  constructor
  · intro h
    rw [← DecimalText.ofDigitChars_repr n, h]
    rfl
  · rintro rfl
    rfl

theorem usageMatches_of_rowKey {date : Date} {u : UsageContainer} {r : UsageRow}
    (h : rowKey r = entryKey date u) :
    usageMatches date u.usageType.toInt (queryId u) r = true := by
  obtain ⟨hdate, htype, hid⟩ := by simpa only [rowKey, entryKey, Prod.mk.injEq] using h
  simp [usageMatches, hdate, htype, hid]

section Failures

variable (misread : List Char → Db → Option Outcome)

/-- No entry is seen if the count fails or is zero. -/
theorem noEntry_doesUsageEntryExist (date : Date) (dataType : Int) (dataId : Option Int)
    (conn : Connection) :
    noEntry (answer misread (.doesUsageEntryExist date dataType dataId, false) conn).1.tableRows =
      (silent conn.faults.head?.join ||
        conn.db.usages.rows.countP (usageMatches date dataType dataId) = 0) := by
  have readable : Readable (.doesUsageEntryExist date dataType dataId) := readable_usage rfl trivial
  have zero := repr_eq_zero_iff (conn.db.usages.rows.countP (usageMatches date dataType dataId))
  cases hf : conn.faults.head?.join with
  | none =>
    rw [answer_of_no_fault misread false hf readable rfl]
    simp [Outcome.select, noEntry, columnText, silent, zero]
  | some fault =>
    cases fault with
    | prepare code failed =>
      rw [answer_of_prepare_fault misread _ false hf]
      simp [noEntry, silent]
    | step n code failed =>
      have result : outcome misread (.doesUsageEntryExist date dataType dataId) conn.db =
          execute (.doesUsageEntryExist date dataType dataId) conn.db := if_pos readable
      simp only [answer, statement, hf, result, execute]
      rw [executeQuery_of_prepared rfl, rows_rowsSteps]
      cases n with
      | zero => simp [noEntry, silent]
      | succ n => simp [Outcome.select, noEntry, columnText, silent, zero]

theorem db_doesUsageEntryExist (date : Date) (dataType : Int) (dataId : Option Int)
    (conn : Connection) :
    (answer misread (.doesUsageEntryExist date dataType dataId, false) conn).2.db = conn.db := by
  have readable : Readable (.doesUsageEntryExist date dataType dataId) := readable_usage rfl trivial
  rcases answer_db_of_readable misread false readable conn with h | ⟨o, ho, h⟩
  · exact h
  · obtain rfl := Option.some.inj ho
    exact h

theorem rowKeys_insertUsage (date : Date) (dataType : Int) (dataId : Option Int)
    (conn : Connection) :
    rowKeys (answer misread (.insertUsage date dataType dataId, false) conn).2.db =
      rowKeys conn.db ++
        if conn.faults.head?.join.isNone then [(date, dataType, dataId)] else [] := by
  have readable : Readable (.insertUsage date dataType dataId) := by
    cases dataId <;> exact readable_usage rfl trivial
  cases hf : conn.faults.head?.join with
  | none =>
    rw [answer_of_no_fault misread false hf readable rfl]
    simp [Outcome.write, rowKeys, rowKey]
  | some fault => simp [answer_db_of_fault misread false hf]

theorem rowKeys_updateUsage (tick : Int) (value : Double) (date : Date) (dataType : Int)
    (dataId : Option Int) (conn : Connection) :
    rowKeys (answer misread (.updateUsage tick value date dataType dataId, false) conn).2.db =
      rowKeys conn.db := by
  have readable : Readable (.updateUsage tick value date dataType dataId) :=
    readable_usage rfl trivial
  rcases answer_db_of_readable misread false readable conn with h | ⟨o, ho, h⟩
  · rw [h]
  · simp only [execute] at ho
    split at ho
    · obtain rfl := Option.some.inj ho
      rw [h]
      simp only [Outcome.write, rowKeys, RowTable.Table.rows_update, List.map_map]
      apply List.map_congr_left
      intro r _
      simp only [Function.comp_apply]
      split <;> rfl
    · cases ho

/-- The container's row is inserted. -/
def Inserts (tick : Int) (date : Date) (u : UsageContainer) (conn : Connection) : Prop :=
  Checks tick u ∧ (silent conn.faults.head?.join = true ∨
    conn.db.usages.rows.countP (usageMatches date u.usageType.toInt (queryId u)) = 0) ∧
  conn.faults.tail.head?.join.isNone

instance (tick : Int) (date : Date) (u : UsageContainer) (conn : Connection) :
    Decidable (Inserts tick date u conn) := inferInstanceAs (Decidable (_ ∧ _))

theorem rowKeys_pushUsage (tick : Int) (date : Date) (u : UsageContainer) (conn : Connection) :
    rowKeys ((pushUsage tick date u).run (answer misread) conn).2.db =
      rowKeys conn.db ++ if Inserts tick date u conn then [entryKey date u] else [] := by
  simp only [pushUsage, bind_eq, pure_eq, run_bind, run_ask, run_ret, rowKeys_updateUsage]
  by_cases checks : Checks tick u
  · rw [ensureEntry_of_checks checks]
    simp only [run_bind, run_ask, insertEntry, noEntry_doesUsageEntryExist, Bool.or_eq_true,
      decide_eq_true_eq]
    split
    · rename_i unseen
      simp only [bind_eq, pure_eq, run_bind, run_ask, run_ret, rowKeys_insertUsage,
        db_doesUsageEntryExist, answer_faults, Inserts, checks, unseen, true_and, entryKey]
      rfl
    · rename_i seen
      simp only [pure_eq, run_ret, db_doesUsageEntryExist, Inserts, seen, false_and, and_false,
        if_false, List.append_nil]
  · rw [ensureEntry_of_not_checks checks]
    simp only [run_ret, Inserts, checks, false_and, if_false, List.append_nil]

/-- The count fails although the entry exists, and the insert succeeds. -/
def Duplicates (tick : Int) (date : Date) (u : UsageContainer) (conn : Connection) : Prop :=
  Checks tick u ∧ silent conn.faults.head?.join = true ∧
    conn.faults.tail.head?.join.isNone ∧ entryKey date u ∈ rowKeys conn.db

theorem oneEach_pushUsage_iff (tick : Int) (date : Date) (u : UsageContainer) (conn : Connection) :
    OneEach ((pushUsage tick date u).run (answer misread) conn).2.db ↔
      OneEach conn.db ∧ ¬ Duplicates tick date u conn := by
  rw [OneEach, rowKeys_pushUsage]
  -- a count of zero sees every row of the key
  have unseen (h : conn.db.usages.rows.countP
      (usageMatches date u.usageType.toInt (queryId u)) = 0) : entryKey date u ∉ rowKeys conn.db := by
    intro mem
    obtain ⟨r, hr, own⟩ := List.mem_map.mp mem
    exact List.countP_eq_zero.mp h r hr (usageMatches_of_rowKey own)
  by_cases inserts : Inserts tick date u conn
  · obtain ⟨checks, seen, inserted⟩ := inserts
    rw [if_pos ⟨checks, seen, inserted⟩, List.nodup_append_comm, List.singleton_append,
      List.nodup_cons, and_comm]
    refine and_congr Iff.rfl (not_congr ⟨fun mem => ⟨checks, ?_, inserted, mem⟩, fun d => d.2.2.2⟩)
    exact seen.resolve_right fun h => unseen h mem
  · rw [if_neg inserts, List.append_nil]
    refine (and_iff_left fun duplicates => inserts ?_).symm
    exact ⟨duplicates.1, Or.inl duplicates.2.1, duplicates.2.2.1⟩

/-- No container of the push has its row inserted twice. -/
def Unduplicated (tick : Int) (date : Date) : List UsageContainer → Connection → Prop
  | [], _ => True
  | u :: us, conn => ¬ Duplicates tick date u conn ∧
      Unduplicated tick date us ((pushUsage tick date u).run (answer misread) conn).2

theorem oneEach_pushUsages_iff (tick : Int) (date : Date) (us : List UsageContainer)
    (conn : Connection) :
    OneEach ((pushUsages tick date us).run (answer misread) conn).2.db ↔
      OneEach conn.db ∧ Unduplicated misread tick date us conn := by
  induction us generalizing conn with
  | nil => exact (and_iff_left trivial).symm
  | cons u us ih =>
    rw [pushUsages_cons, run_bind, ih, oneEach_pushUsage_iff, and_assoc, Unduplicated]

def step (db : Db) (p : Push) : Option Db :=
  some ((pushUsageToDB p.computer p.tick p.date).run (answer misread) ⟨db, 0, p.faults⟩).2.db

def Sound (db : Db) (p : Push) : Prop :=
  Unduplicated misread p.tick p.date p.computer.usageInfo ⟨db, 0, p.faults⟩

/-- Pushes keep the keys apart exactly as long as no count fails on an entry
that exists and is followed by an insert that succeeds. -/
theorem run_oneEach_iff {db db' : Db} {ps : List Push} (one : OneEach db)
    (arrives : run (step misread) db ps = some db') :
    OneEach db' ↔ Guarded (step misread) (Sound misread) db ps := by
  have exact (db : Db) (p : Push) (db' : Db) (h : step misread db p = some db') :
      OneEach db' ↔ OneEach db ∧ Sound misread db p := by
    obtain rfl := Option.some.inj h
    simp only [pushUsageToDB, bind_eq, pure_eq, run_bind, run_ret]
    exact oneEach_pushUsages_iff misread p.tick p.date p.computer.usageInfo ⟨db, 0, p.faults⟩
  exact (run_invariant_iff exact arrives).trans (and_iff_right one)

end Failures

/-- A count that fails where there is no entry yet does no harm. -/
theorem run_oneEach_firstCount :
    OneEach ((run (step fun _ _ => none) emptyDb
      [{ pushLoad 1 80 3 with faults := [some .busy] }, pushLoad 1 80 4]).get (by rfl)) := by
  refine (run_oneEach_iff (fun _ _ => none) (by decide) (Option.some_get _).symm).mpr ?_
  refine ⟨⟨?_, trivial⟩, fun db hdb => ⟨⟨?_, trivial⟩, fun _ _ => trivial⟩⟩
  · rintro ⟨-, -, -, mem⟩
    cases mem
  · rintro ⟨-, failed, -⟩
    cases failed

/-- The count of the second push fails, and its insert does not. -/
theorem failedCount_not_oneEach :
    OneEach emptyDb ∧ ∃ db, run (step fun _ _ => none) emptyDb
      [pushLoad 1 80 3, { pushLoad 1 80 4 with faults := [some .busy] }] = some db ∧ ¬ OneEach db := by
  exact ⟨by decide, _, rfl, by decide +kernel⟩

section Successes

variable (misread : List Char → Db → Option Outcome)

/-- The rows of a key. -/
def entriesAt (db : Db) (k : Date × Int × Option Int) : List UsageRow :=
  db.usages.rows.filter (fun r => rowKey r = k)

def setTick (tick : Fin 24) (value : ℚ) (r : UsageRow) : UsageRow :=
  { r with ticks := Function.update r.ticks tick (some (storedFloat value)) }

/-- The row that `pushUsage` finds or inserts. -/
def freshRow (db : Db) (date : Date) (u : UsageContainer) : UsageRow :=
  ⟨newRowid db.usages.ids, date, u.usageType.toInt, queryId u, fun _ => none⟩

@[simp] theorem rowKey_setTick (tick : Fin 24) (value : ℚ) (r : UsageRow) :
    rowKey (setTick tick value r) = rowKey r := rfl

@[simp] theorem rowKey_freshRow (db : Db) (date : Date) (u : UsageContainer) :
    rowKey (freshRow db date u) = entryKey date u := rfl

theorem tickColumn_val (tick : Fin 24) : tickColumn (tick.val : Int) = some tick := by
  rw [tickColumn, dif_pos ⟨by omega, by omega⟩]
  exact congrArg some (Fin.ext (Int.toNat_natCast _))

theorem queryId_of_nonneg {u : UsageContainer} (h : 0 ≤ u.id) : queryId u = some u.id := by
  rw [queryId, if_neg (by omega)]

/-- With an id, the `WHERE` clause is about one key. -/
theorem usageMatches_eq {u : UsageContainer} (h : 0 ≤ u.id) (date : Date) :
    usageMatches date u.usageType.toInt (queryId u) = fun r => decide (rowKey r = entryKey date u) := by
  funext r
  simp [usageMatches, rowKey, entryKey, queryId_of_nonneg h]

/-- The rows after the count and the insert. -/
def ensured (tick : Int) (date : Date) (u : UsageContainer) (db : Db) : List UsageRow :=
  if Checks tick u ∧ entriesAt db (entryKey date u) = [] then
    db.usages.rows ++ [freshRow db date u]
  else db.usages.rows

theorem countP_eq_zero_iff {u : UsageContainer} (id : 0 ≤ u.id) (date : Date) (db : Db) :
    db.usages.rows.countP (usageMatches date u.usageType.toInt (queryId u)) = 0 ↔
      entriesAt db (entryKey date u) = [] := by
  rw [usageMatches_eq id, List.countP_eq_length_filter, List.length_eq_zero_iff, entriesAt]

/-- When its queries succeed, the entry is there if it is looked for. -/
theorem rows_ensureEntry {tick : Int} {date : Date} {u : UsageContainer} {conn : Connection}
    (id : 0 ≤ u.id) (noStep : conn.NoStepFault)
    (success : (ensureEntry tick date u).AllAnswers (answer misread)
      (fun res => res.success = true) conn) :
    ((ensureEntry tick date u).run (answer misread) conn).2.db.usages.rows =
        ensured tick date u conn.db ∧
      ((ensureEntry tick date u).run (answer misread) conn).2.NoStepFault := by
  by_cases checks : Checks tick u
  · rw [ensureEntry_of_checks checks] at success ⊢
    simp only [allAnswers_bind, allAnswers_ask, run_ask, insertEntry,
      noEntry_doesUsageEntryExist] at success
    obtain ⟨counted, inserted⟩ := success
    have noFault := noFault_of_success misread false noStep counted
    have later := noStep.answer misread
      (.doesUsageEntryExist date u.usageType.toInt (queryId u), false)
    simp only [run_bind, run_ask, insertEntry, noEntry_doesUsageEntryExist, noFault, silent,
      Bool.false_or, decide_eq_true_eq, countP_eq_zero_iff id] at inserted ⊢
    by_cases unseen : entriesAt conn.db (entryKey date u) = []
    · simp only [unseen, if_true, bind_eq, pure_eq, allAnswers_bind, allAnswers_ask,
        allAnswers_ret, and_true] at inserted
      have readable : Readable (.insertUsage date u.usageType.toInt (queryId u)) := by
        rw [queryId_of_nonneg id]
        exact readable_usage rfl trivial
      have noFault' := noFault_of_success misread false later inserted
      simp only [unseen, if_true, bind_eq, pure_eq, run_bind, run_ask, run_ret]
      refine ⟨?_, later.answer misread _⟩
      have inserts : Checks tick u ∧ entriesAt conn.db (entryKey date u) = [] := ⟨checks, unseen⟩
      rw [answer_of_no_fault misread false noFault' readable rfl, ensured, if_pos inserts]
      simp only [Outcome.write, RowTable.Table.rows_insert, db_doesUsageEntryExist]
      rfl
    · simp only [unseen, if_false, pure_eq, run_ret, ensured, and_false, db_doesUsageEntryExist]
      exact ⟨trivial, later⟩
  · rw [ensureEntry_of_not_checks checks]
    refine ⟨?_, noStep⟩
    simp only [run_ret, ensured, checks, false_and, if_false]

/-- When its queries succeed, the entry's tick has the number of the container. -/
theorem rows_pushUsage {tick : Fin 24} {date : Date} {u : UsageContainer} {conn : Connection}
    (id : 0 ≤ u.id) (noStep : conn.NoStepFault)
    (success : (pushUsage tick.val date u).AllAnswers (answer misread)
      (fun res => res.success = true) conn) :
    ∃ value, u.getData = some value ∧
      ((pushUsage tick.val date u).run (answer misread) conn).2.db.usages.rows =
        (ensured tick.val date u conn.db).map
          (fun r => if rowKey r = entryKey date u then setTick tick value r else r) ∧
      ((pushUsage tick.val date u).run (answer misread) conn).2.NoStepFault := by
  simp only [pushUsage, bind_eq, pure_eq, allAnswers_bind, allAnswers_ask, allAnswers_ret,
    and_true] at success
  obtain ⟨entry, updated⟩ := success
  obtain ⟨rows, later⟩ := rows_ensureEntry misread id noStep entry
  have noFault := noFault_of_success misread false later updated
  simp only [pushUsage, bind_eq, pure_eq, run_bind, run_ask, run_ret]
  have readable : Readable (.updateUsage tick.val u.getData date u.usageType.toInt (queryId u)) :=
    readable_usage rfl trivial
  cases data : u.getData with
  | none =>
    -- the update of a value that is no number does not prepare
    rw [data] at readable updated
    simp [answer, statement, outcome, readable, noFault, execute,
      executeQuery_notPrepared (show ResultCode.error ≠ .ok by decide)] at updated
  | some value =>
    rw [data] at readable
    refine ⟨value, rfl, ?_, later.answer misread _⟩
    obtain ⟨o, result, updates⟩ : ∃ o,
        execute (.updateUsage tick.val (some value) date u.usageType.toInt (queryId u))
          ((ensureEntry tick.val date u).run (answer misread) conn).2.db = some o ∧
        o.db.usages.rows = (ensured tick.val date u conn.db).map
          (fun r => if rowKey r = entryKey date u then setTick tick value r else r) := by
      simp only [execute, tickColumn_val]
      refine ⟨_, rfl, ?_⟩
      simp only [Outcome.write, RowTable.Table.rows_update, rows, usageMatches_eq id,
        decide_eq_true_eq]
      rfl
    rw [answer_of_no_fault misread false noFault readable result]
    exact updates

/-- Rows of other keys are left alone. -/
theorem filter_pushUsage {tick : Fin 24} {date : Date} {u : UsageContainer} {conn : Connection}
    (id : 0 ≤ u.id) (noStep : conn.NoStepFault)
    (success : (pushUsage tick.val date u).AllAnswers (answer misread)
      (fun res => res.success = true) conn) {P : UsageRow → Bool}
    (other : ∀ r, rowKey r = entryKey date u → P r = false) :
    ((pushUsage tick.val date u).run (answer misread) conn).2.db.usages.rows.filter P =
      conn.db.usages.rows.filter P := by
  obtain ⟨value, -, rows, -⟩ := rows_pushUsage misread id noStep success
  have kept : P ∘ (fun r => if rowKey r = entryKey date u then setTick tick value r else r) = P := by
    funext r
    by_cases own : rowKey r = entryKey date u
    · simp [own, other]
    · simp [own]
  have fresh : (ensured tick.val date u conn.db).filter P = conn.db.usages.rows.filter P := by
    rw [ensured]
    split
    · simp [other _ (rowKey_freshRow conn.db date u)]
    · rfl
  rw [rows, List.filter_map, kept, fresh]
  refine (List.map_congr_left fun r hr => if_neg fun own => ?_).trans (List.map_id _)
  exact absurd ((other r own).symm.trans (List.mem_filter.mp hr).2) Bool.false_ne_true

/-- There is one row afterwards: the one there was, or else a new one, with the
number in its tick. -/
def Upserted (tick : Fin 24) (value : ℚ) (before after : List UsageRow) : Prop :=
  ∃ old, after = [setTick tick value old] ∧
    (before = [old] ∨ before = [] ∧ ∀ t, old.ticks t = none)

theorem upserted_pushUsage {tick : Fin 24} {date : Date} {u : UsageContainer} {conn : Connection}
    (id : 0 ≤ u.id) (noStep : conn.NoStepFault)
    (single : (entriesAt conn.db (entryKey date u)).length ≤ 1)
    (flag : u.tableExist = true → entriesAt conn.db (entryKey date u) ≠ [])
    (success : (pushUsage tick.val date u).AllAnswers (answer misread)
      (fun res => res.success = true) conn) :
    ∃ value, u.getData = some value ∧ Upserted tick value (entriesAt conn.db (entryKey date u))
      (entriesAt ((pushUsage tick.val date u).run (answer misread) conn).2.db
        (entryKey date u)) := by
  obtain ⟨value, data, rows, -⟩ := rows_pushUsage misread id noStep success
  refine ⟨value, data, ?_⟩
  have after : entriesAt ((pushUsage tick.val date u).run (answer misread) conn).2.db
      (entryKey date u) = ((ensured tick.val date u conn.db).filter
        (fun r => rowKey r = entryKey date u)).map (setTick tick value) := by
    have kept : (fun r => decide (rowKey r = entryKey date u)) ∘
        (fun r => if rowKey r = entryKey date u then setTick tick value r else r) =
        fun r => decide (rowKey r = entryKey date u) := by
      funext r
      by_cases own : rowKey r = entryKey date u <;> simp [own]
    rw [entriesAt, rows, List.filter_map, kept]
    refine List.map_congr_left fun r hr => if_pos ?_
    simpa using (List.mem_filter.mp hr).2
  rw [after]
  cases before : entriesAt conn.db (entryKey date u) with
  | nil =>
    have checks : Checks tick.val u := by
      by_contra unchecked
      have exist : u.tableExist = true := by simpa [Checks] using fun h => unchecked (Or.inl h)
      exact flag exist before
    refine ⟨freshRow conn.db date u, ?_, Or.inr ⟨rfl, fun _ => rfl⟩⟩
    rw [ensured, if_pos ⟨checks, before⟩, List.filter_append]
    change (entriesAt conn.db (entryKey date u) ++ _).map _ = _
    rw [before]
    simp
  | cons old rest =>
    rw [before] at single
    obtain rfl : rest = [] := List.length_eq_zero_iff.mp (by simpa using single)
    refine ⟨old, ?_, Or.inl rfl⟩
    rw [ensured, if_neg (by simp [before])]
    exact congrArg (List.map (setTick tick value)) before

theorem toInt_injective {a b : UsageType} (h : a.toInt = b.toInt) : a = b := by
  cases a <;> cases b <;> first | rfl | cases h

/-- Containers with different types or ids have different rows. -/
theorem entryKey_ne {date : Date} {u v : UsageContainer} (hu : 0 ≤ u.id) (hv : 0 ≤ v.id)
    (apart : containerKey u ≠ containerKey v) : entryKey date u ≠ entryKey date v := by
  intro same
  simp only [entryKey, queryId_of_nonneg hu, queryId_of_nonneg hv, Prod.mk.injEq,
    Option.some.injEq, true_and] at same
  exact apart (Prod.ext (toInt_injective same.1) same.2)

/-- What a push does to the rows of its containers, and that it leaves the
others alone. -/
theorem pushUsages_upserts {tick : Fin 24} {date : Date} {us : List UsageContainer}
    {conn : Connection} (distinct : (us.map containerKey).Nodup) (ids : ∀ u ∈ us, 0 ≤ u.id)
    (noStep : conn.NoStepFault)
    (single : ∀ u ∈ us, (entriesAt conn.db (entryKey date u)).length ≤ 1)
    (flags : ∀ u ∈ us, u.tableExist = true → entriesAt conn.db (entryKey date u) ≠ [])
    (success : (pushUsages tick.val date us).AllAnswers (answer misread)
      (fun res => res.success = true) conn) :
    (∀ u ∈ us, ∃ value, u.getData = some value ∧
      Upserted tick value (entriesAt conn.db (entryKey date u))
        (entriesAt ((pushUsages tick.val date us).run (answer misread) conn).2.db
          (entryKey date u))) ∧
      ∀ P : UsageRow → Bool, (∀ u ∈ us, ∀ r, rowKey r = entryKey date u → P r = false) →
        ((pushUsages tick.val date us).run (answer misread) conn).2.db.usages.rows.filter P =
          conn.db.usages.rows.filter P := by
  induction us generalizing conn with
  | nil => exact ⟨by simp, fun _ _ => rfl⟩
  | cons u us ih =>
    simp only [List.map_cons, List.nodup_cons, List.mem_map, not_exists, not_and,
      List.forall_mem_cons] at distinct ids single flags
    rw [pushUsages_cons, allAnswers_bind] at success
    obtain ⟨first, rest⟩ := success
    have apart (v) (hv : v ∈ us) : entryKey date v ≠ entryKey date u :=
      entryKey_ne (ids.2 v hv) ids.1 (distinct.1 v hv)
    -- the rows of the others are as they were before the first container
    have before (v) (hv : v ∈ us) :
        entriesAt ((pushUsage tick.val date u).run (answer misread) conn).2.db (entryKey date v) =
          entriesAt conn.db (entryKey date v) :=
      filter_pushUsage misread ids.1 noStep first fun r own => by
        simpa [own] using (apart v hv).symm
    obtain ⟨-, -, -, later⟩ := rows_pushUsage misread ids.1 noStep first
    obtain ⟨own, frame⟩ := ih distinct.2 ids.2 later
      (fun v hv => by rw [before v hv]; exact single.2 v hv)
      (fun v hv => by rw [before v hv]; exact flags.2 v hv) rest
    simp only [pushUsages_cons, run_bind, List.forall_mem_cons]
    refine ⟨⟨?_, fun v hv => ?_⟩, fun P other => ?_⟩
    · obtain ⟨value, data, upserted⟩ := upserted_pushUsage misread ids.1 noStep single.1 flags.1 first
      -- and the first row is left alone by the others
      have kept := frame (fun r => rowKey r = entryKey date u) fun v hv r hr => by
        simpa [hr] using apart v hv
      exact ⟨value, data, Eq.mpr (congrArg (Upserted tick value _) kept) upserted⟩
    · obtain ⟨value, data, upserted⟩ := own v hv
      rw [before v hv] at upserted
      exact ⟨value, data, upserted⟩
    · rw [frame P other.2, filter_pushUsage misread ids.1 noStep first other.1]

/-- If every query succeeds, each container has exactly one row of the day,
whose tick has the number as it is printed, and nothing else changes. -/
theorem pushUsageToDB_upserts {c : RmsComputer} {tick : Fin 24} {date : Date} {conn : Connection}
    (one : OneEach conn.db) (distinct : (c.usageInfo.map containerKey).Nodup)
    (ids : ∀ u ∈ c.usageInfo, 0 ≤ u.id)
    (flags : ∀ u ∈ c.usageInfo, u.tableExist = true → entryKey date u ∈ rowKeys conn.db)
    (noStep : conn.NoStepFault)
    (success : (pushUsageToDB c tick.val date).AllAnswers (answer misread)
      (fun res => res.success = true) conn) :
    let db := ((pushUsageToDB c tick.val date).run (answer misread) conn).2.db
    (∀ u ∈ c.usageInfo, ∃ value, u.getData = some value ∧
      Upserted tick value (entriesAt conn.db (entryKey date u))
        (entriesAt db (entryKey date u))) ∧
      db.usages.rows.filter (fun r => rowKey r ∉ c.usageInfo.map (entryKey date)) =
        conn.db.usages.rows.filter (fun r => rowKey r ∉ c.usageInfo.map (entryKey date)) := by
  simp only [pushUsageToDB, bind_eq, pure_eq, run_bind, run_ret, allAnswers_bind, allAnswers_ret,
    and_true] at success ⊢
  have single (u : UsageContainer) : (entriesAt conn.db (entryKey date u)).length ≤ 1 := by
    rw [entriesAt, KeyedList.filter_key_eq_lookup one]
    cases KeyedList.lookup rowKey (entryKey date u) conn.db.usages.rows <;> simp
  have entry (u) (hu : u ∈ c.usageInfo) (exist : u.tableExist = true) :
      entriesAt conn.db (entryKey date u) ≠ [] := by
    obtain ⟨r, hr, own⟩ := List.mem_map.mp (flags u hu exist)
    exact List.ne_nil_of_mem (List.mem_filter.mpr ⟨hr, by simpa using own⟩)
  obtain ⟨own, frame⟩ := pushUsages_upserts misread distinct ids noStep (fun u _ => single u) entry
    success
  refine ⟨own, frame _ fun u hu r hr => ?_⟩
  simpa [hr] using ⟨u, hu, rfl⟩

/-- Without faults the queries succeed for containers that have a number. -/
theorem allAnswers_pushUsageToDB {c : RmsComputer} (tick : Fin 24) (date : Date)
    (numbers : ∀ u ∈ c.usageInfo, u.getData ≠ none) {conn : Connection} (quiet : conn.faults = []) :
    (pushUsageToDB c tick.val date).AllAnswers (answer misread) (fun res => res.success = true)
      conn := by
  have only (us : List UsageContainer) (numbers : ∀ u ∈ us, u.getData ≠ none) :
      (pushUsages tick.val date us).Only
        (fun q => Readable q.1 ∧ ∀ db, (execute q.1 db).isSome = true) := by
    induction us with
    | nil => exact trivial
    | cons u us ih =>
      simp only [List.forall_mem_cons] at numbers
      obtain ⟨value, data⟩ := Option.ne_none_iff_exists'.mp numbers.1
      refine only_bind ?_ fun _ => only_bind (only_ask ⟨readable_usage rfl trivial, fun db => ?_⟩)
        fun _ => ih numbers.2
      · by_cases checks : Checks tick.val u
        · rw [ensureEntry_of_checks checks]
          refine only_bind (only_ask ⟨readable_usage rfl trivial, fun _ => rfl⟩) fun res => ?_
          rw [insertEntry]
          split
          · refine only_bind (only_ask ⟨?_, fun _ => rfl⟩) fun _ => trivial
            cases queryId u <;> exact readable_usage rfl trivial
          · exact trivial
        · rw [ensureEntry_of_not_checks checks]
          exact trivial
      · simp [execute, data, tickColumn_val]
  have all : (pushUsageToDB c tick.val date).Only
      (fun q => Readable q.1 ∧ ∀ db, (execute q.1 db).isSome = true) :=
    only_bind (only c.usageInfo numbers) fun _ => trivial
  refine allAnswers_of_only (answer misread) (fun conn => conn.faults = [])
    (fun q _ h => answer_quiet misread h q) (fun q conn good h => ?_) all quiet
  obtain ⟨o, result⟩ := Option.isSome_iff_exists.mp (good.2 conn.db)
  rw [answer_of_no_fault misread q.2 (noFault_of_quiet h) good.1 result]

end Successes

/-- Two containers that a computer has filled. -/
def loads : RmsComputer :=
  addUsageInfos (RmsComputer.create 1) [⟨.kCpu, some 80, 0⟩, ⟨.kRam, some 50, 0⟩]

theorem loads_upserted :
    let db := ((pushUsageToDB loads (3 : Fin 24).val newYear).run (answer fun _ _ => none)
      freshConn).2.db
    (∀ u ∈ loads.usageInfo, ∃ value, u.getData = some value ∧
      Upserted 3 value (entriesAt freshConn.db (entryKey newYear u))
        (entriesAt db (entryKey newYear u))) ∧
      db.usages.rows.filter (fun r => rowKey r ∉ loads.usageInfo.map (entryKey newYear)) =
        freshConn.db.usages.rows.filter
          (fun r => rowKey r ∉ loads.usageInfo.map (entryKey newYear)) :=
  pushUsageToDB_upserts (fun _ _ => none) (by decide) (by decide) (by decide) (by decide)
    (.of_quiet rfl) (allAnswers_pushUsageToDB (fun _ _ => none) 3 newYear (by decide) rfl)

/-- A computer whose only container has the given points. -/
def singleLoad (points : List Double) (tableExist : Bool) : RmsComputer :=
  { RmsComputer.create 1 with
    usageInfo := [{ usageType := .kCpu, id := 0, dataPoints := points, tableExist := tableExist }] }

/-- A third is stored with six decimals; and a flag that is set without a row
would keep the row from being inserted. -/
theorem third_not_stored :
    let push (c : RmsComputer) := pushUsageToDB c (3 : Fin 24).val newYear
    let pushed (c : RmsComputer) := ((push c).run (answer fun _ _ => none) freshConn).2.db
    let third := singleLoad [some 1, some 0, some 0] false
    let flagged := singleLoad [some 1] true
    (∀ c ∈ [third, flagged], (push c).AllAnswers (answer fun _ _ => none)
        (fun res => res.success = true) freshConn) ∧
      third.usageInfo.map UsageContainer.getData = [some (1 / 3)] ∧
      usageAt (pushed third) ⟨newYear, 0, some 0, 3⟩ = [333333 / 1000000] ∧
      rowKeys (pushed flagged) = [] := by
  have numbers : ∀ c ∈ [singleLoad [some 1, some 0, some 0] false, singleLoad [some 1] true],
      ∀ u ∈ c.usageInfo, u.getData ≠ none := by
    decide +kernel
  refine ⟨fun c hc => ?_, by decide +kernel⟩
  exact allAnswers_pushUsageToDB (fun _ _ => none) 3 newYear (numbers c hc) rfl

end UsageTable
