import RemoteManagement.Computer
import RemoteManagement.Library.GuardedRun

/-!
# The usage history

A push writes one number for each usage container of a computer into the row of
the day, the data type and the data id. The rows do not say which computer they
are about. What a computer's number for a tick is, is therefore decided by the
order in which computers push, and a computer keeps its history only while no
other pushes the same type and id for the same day and tick.
-/

namespace Usage

open ThriftTypes SqlStatements ExecuteQuery RowTable Database QueryProgram Program GuardedRun
open Computer

/-- The containers with id -1 use the templates without an identifier. -/
def queryId (u : UsageContainer) : Option Int := if u.id = -1 then none else some u.id

/-- `table_rows.size() == 0 || table_rows[0][0] == "0"` -/
def noEntry (tableRows : List (List String)) : Bool :=
  match tableRows with
  | [] => true
  | row :: _ => row.head? = some "0"

def insertEntry (date : Date) (u : UsageContainer) (tableRows : List (List String)) :
    DbProgram Unit :=
  if noEntry tableRows then do
    let _ ← ask (.insertUsage date u.usageType.toInt (queryId u), false)
    return ()
  else return ()

def ensureEntry (tick : Int) (date : Date) (u : UsageContainer) : DbProgram Unit :=
  if !u.tableExist ∨ tick = 0 then do
    let res ← ask
      (.doesUsageEntryExist date u.usageType.toInt (queryId u), false)
    insertEntry date u res.tableRows
  else return ()

def pushUsages (tick : Int) (date : Date) : List UsageContainer → DbProgram Unit
  | [] => return ()
  | u :: us => do
    ensureEntry tick date u
    let _ ← ask
      (.updateUsage tick u.getData date u.usageType.toInt (queryId u), false)
    pushUsages tick date us

/-- `date` is what the clock says when the push starts. -/
def pushUsageToDB (c : RmsComputer) (tick : Int) (date : Date) : DbProgram Bool := do
  pushUsages tick date c.usageInfo
  return true

/-- The place of one number in the history of a computer. -/
structure Slot where
  date : Date
  dataType : Int
  dataId : Option Int
  tick : Int
  deriving DecidableEq

/-- The numbers that the rows of a slot have in its tick. -/
def usageAt (db : Db) (k : Slot) : List ℚ :=
  match tickColumn k.tick with
  | none => []
  | some t =>
    (db.usages.rows.filter (usageMatches k.date k.dataType k.dataId)).filterMap (fun r => r.ticks t)

def slotOf (tick : Int) (date : Date) (u : UsageContainer) : Slot :=
  ⟨date, u.usageType.toInt, queryId u, tick⟩

/-- The rows of two slots may be the same; a missing id stands for every id. -/
def Meets (a b : Slot) : Prop :=
  a.date = b.date ∧ a.dataType = b.dataType ∧ a.tick = b.tick ∧
    (a.dataId = none ∨ b.dataId = none ∨ a.dataId = b.dataId)

instance (a b : Slot) : Decidable (Meets a b) := inferInstanceAs (Decidable (_ ∧ _))

section Frame

variable (misread : List Char → Db → Option Outcome)

theorem readable_usage {q : Query} (strings : q.strings = []) (fits : Fits q) : Readable q :=
  readable_of_plain (by simp [strings]) fits

/-- A row without numbers adds nothing to a slot. -/
theorem usageAt_insert {db db' : Db} {r : UsageRow} (rows : db'.usages.rows = db.usages.rows ++ [r])
    (empty : ∀ t, r.ticks t = none) (k : Slot) : usageAt db' k = usageAt db k := by
  simp only [usageAt]
  split
  · rfl
  · rename_i t _
    rw [rows, List.filter_append, List.filterMap_append]
    by_cases h : usageMatches k.date k.dataType k.dataId r = true <;> simp [h, empty]

/-- An update of rows changes no slot that they do not meet. -/
theorem usageAt_update {db db' : Db} {f : UsageRow → UsageRow}
    (rows : db'.usages.rows = db.usages.rows.map f) (k : Slot)
    (place : ∀ r, usageMatches k.date k.dataType k.dataId (f r) =
      usageMatches k.date k.dataType k.dataId r)
    (same : ∀ r t, tickColumn k.tick = some t →
      usageMatches k.date k.dataType k.dataId r = true → (f r).ticks t = r.ticks t) :
    usageAt db' k = usageAt db k := by
  simp only [usageAt]
  split
  · rfl
  · rename_i t ht
    have kept : usageMatches k.date k.dataType k.dataId ∘ f =
        usageMatches k.date k.dataType k.dataId := funext place
    rw [rows, List.filter_map, kept, List.filterMap_map]
    apply List.filterMap_congr
    intro r hr
    exact same r t ht (List.mem_filter.mp hr).2

theorem tickColumn_inj {a b : Int} {t : Fin 24} (ha : tickColumn a = some t)
    (hb : tickColumn b = some t) : a = b := by
  rw [tickColumn] at ha hb
  split at ha
  · split at hb
    · have ht := (Option.some.inj ha).trans (Option.some.inj hb).symm
      have values := congrArg Fin.val ht
      simp only at values
      omega
    · cases hb
  · cases ha

/-- The result of a statement whose text has no strings is its own. -/
theorem usageAt_answer {q : Query} (asked : Bool) (conn : Connection) (readable : Readable q)
    {k : Slot} (frame : ∀ o, execute q conn.db = some o → usageAt o.db k = usageAt conn.db k) :
    usageAt (answer misread (q, asked) conn).2.db k = usageAt conn.db k := by
  rcases answer_db_of_readable misread asked readable conn with h | ⟨o, ho, h⟩
  · rw [h]
  · rw [h, frame o ho]

theorem usageAt_doesUsageEntryExist (date : Date) (dataType : Int) (dataId : Option Int)
    (conn : Connection) (k : Slot) :
    usageAt (answer misread (.doesUsageEntryExist date dataType dataId, false) conn).2.db k =
      usageAt conn.db k := by
  have readable : Readable (.doesUsageEntryExist date dataType dataId) := readable_usage rfl trivial
  refine usageAt_answer misread false conn readable (fun o ho => ?_)
  obtain rfl := Option.some.inj ho
  rfl

theorem usageAt_insertUsage (date : Date) (dataType : Int) (dataId : Option Int)
    (conn : Connection) (k : Slot) :
    usageAt (answer misread (.insertUsage date dataType dataId, false) conn).2.db k =
      usageAt conn.db k := by
  have readable : Readable (.insertUsage date dataType dataId) := by
    cases dataId <;> exact readable_usage rfl trivial
  refine usageAt_answer misread false conn readable (fun o ho => ?_)
  obtain rfl := Option.some.inj ho
  exact usageAt_insert rfl (fun _ => rfl) k

theorem usageAt_updateUsage {tick : Int} (value : Double) {date : Date} {dataType : Int}
    {dataId : Option Int} (conn : Connection) {k : Slot}
    (apart : ¬ Meets ⟨date, dataType, dataId, tick⟩ k) :
    usageAt (answer misread (.updateUsage tick value date dataType dataId, false) conn).2.db k =
      usageAt conn.db k := by
  have readable : Readable (.updateUsage tick value date dataType dataId) :=
    readable_usage rfl trivial
  refine usageAt_answer misread false conn readable (fun o ho => ?_)
  simp only [execute] at ho
  split at ho
  · rename_i c q hc
    obtain rfl := Option.some.inj ho
    refine usageAt_update rfl k (fun r => ?_) (fun r t ht hk => ?_)
    · split <;> rfl
    · split
      · rename_i hr
        -- a row that both match would let the slots meet, unless their ticks differ
        have other : t ≠ c := by
          rintro rfl
          simp only [usageMatches, decide_eq_true_eq] at hr hk
          refine apart ⟨hr.1.symm.trans hk.1, hr.2.1.symm.trans hk.2.1, tickColumn_inj hc ht, ?_⟩
          rcases hr.2.2 with h | h
          · exact Or.inl h
          · rcases hk.2.2 with h' | h'
            · exact Or.inr (Or.inl h')
            · exact Or.inr (Or.inr (h.symm.trans h'))
        exact Function.update_of_ne other _ _
      · rfl
  · cases ho

theorem usageAt_insertEntry (date : Date) (u : UsageContainer) (tableRows : List (List String))
    (conn : Connection) (k : Slot) :
    usageAt ((insertEntry date u tableRows).run (answer misread) conn).2.db k =
      usageAt conn.db k := by
  rw [insertEntry]
  split
  · simp only [bind_eq, pure_eq, run_bind, run_ask, run_ret]
    exact usageAt_insertUsage misread date _ _ conn k
  · rfl

theorem usageAt_ensureEntry (tick : Int) (date : Date) (u : UsageContainer) (conn : Connection)
    (k : Slot) :
    usageAt ((ensureEntry tick date u).run (answer misread) conn).2.db k = usageAt conn.db k := by
  rw [ensureEntry]
  split
  · simp only [bind_eq, run_bind, run_ask]
    rw [usageAt_insertEntry, usageAt_doesUsageEntryExist]
  · rfl

/-- A push changes no slot that none of its containers meets. -/
theorem usageAt_pushUsages {tick : Int} {date : Date} {us : List UsageContainer}
    (conn : Connection) {k : Slot} (apart : ∀ u ∈ us, ¬ Meets (slotOf tick date u) k) :
    usageAt ((pushUsages tick date us).run (answer misread) conn).2.db k = usageAt conn.db k := by
  induction us generalizing conn with
  | nil => rfl
  | cons u us ih =>
    simp only [List.forall_mem_cons] at apart
    simp only [pushUsages, bind_eq, run_bind, run_ask]
    rw [ih _ apart.2, usageAt_updateUsage misread _ _ apart.1, usageAt_ensureEntry]

end Frame

section Runs

variable (misread : List Char → Db → Option Outcome)

/-- `stored` is what each computer's slots held after its own last push. -/
structure State where
  db : Db
  stored : Int → Slot → Option (List ℚ)

structure Push where
  computer : RmsComputer
  tick : Int
  date : Date
  faults : List (Option Fault)

def Push.slots (p : Push) : List Slot := p.computer.usageInfo.map (slotOf p.tick p.date)

def step (s : State) (p : Push) : Option State :=
  let db := ((pushUsageToDB p.computer p.tick p.date).run (answer misread)
    ⟨s.db, 0, p.faults⟩).2.db
  some { db := db
         stored := fun id k =>
          if id = p.computer.computerId ∧ ((s.stored id k).isSome ∨ k ∈ p.slots) then
            some (usageAt db k)
          else s.stored id k }

/-- No push of another computer has changed what a computer stored. -/
def Isolated (s : State) : Prop :=
  ∀ id k values, s.stored id k = some values → usageAt s.db k = values

/-- The push meets no slot that another computer has stored before. -/
def Apart (s : State) (p : Push) : Prop :=
  ∀ id k, id ≠ p.computer.computerId → (s.stored id k).isSome → ∀ k' ∈ p.slots, ¬ Meets k' k

theorem step_isolated (s : State) (p : Push) (t : State) (hs : Isolated s) (apart : Apart s p)
    (h : step misread s p = some t) : Isolated t := by
  obtain rfl := Option.some.inj h
  intro id k values stored
  simp only at stored ⊢
  split at stored
  · exact Option.some.inj stored
  · rename_i other
    by_cases own : id = p.computer.computerId
    · exact absurd ⟨own, Or.inl (by rw [stored]; rfl)⟩ other
    · have frame := usageAt_pushUsages misread ⟨s.db, 0, p.faults⟩ (k := k) (fun u hu =>
        apart id k own (by rw [stored]; rfl) (slotOf p.tick p.date u) (List.mem_map_of_mem hu))
      simp only [pushUsageToDB, bind_eq, pure_eq, run_bind, run_ret]
      rw [frame, hs id k values stored]

def start (db : Db) : State := ⟨db, fun _ _ => none⟩

theorem apart_run_isolated {db : Db} {ps : List Push} {s : State}
    (apart : Guarded (step misread) Apart (start db) ps)
    (arrives : run (step misread) (start db) ps = some s) : Isolated s :=
  run_invariant (step_isolated misread) (by simp [Isolated, start]) apart arrives

end Runs

def newYear : Date := ⟨2022, 1, 1⟩

/-- A push of the load of the first core for the tick at three o'clock. -/
def pushLoad (computerId : Int) (load : ℚ) (tick : Int) : Push where
  computer := { RmsComputer.create computerId with
    usageInfo := [{ usageType := .kCpu, id := 0, dataPoints := [some load] }] }
  tick := tick
  date := newYear
  faults := []

/-- Computers that push for different ticks keep apart. -/
theorem apart_run_isolated_otherTick :
    Isolated ((run (step (fun _ _ => none)) (start emptyDb)
      [pushLoad 1 80 3, pushLoad 2 10 4]).get (by rfl)) := by
  have apart : Guarded (step (fun _ _ => none)) Apart (start emptyDb)
      [pushLoad 1 80 3, pushLoad 2 10 4] := by
    refine ⟨fun id k _ stored => absurd stored Bool.noConfusion, fun t ht =>
      ⟨?_, fun _ _ => trivial⟩⟩
    obtain rfl := Option.some.inj ht
    intro id k _ stored k' hk' meets
    have first : k ∈ (pushLoad 1 80 3).slots := by
      by_contra other
      simp [start, other] at stored
    obtain rfl := List.mem_singleton.mp first
    obtain rfl := List.mem_singleton.mp hk'
    exact absurd meets (by decide)
  exact apart_run_isolated (fun _ _ => none) apart (Option.some_get _).symm

/-- The second computer overwrites the number of the first. -/
theorem sameTick_not_isolated :
    ∃ s, run (step (fun _ _ => none)) (start emptyDb) [pushLoad 1 80 3, pushLoad 2 10 3] = some s ∧
      ¬ Isolated s := by
  refine ⟨_, rfl, fun isolated => ?_⟩
  have kept := isolated 1 ⟨newYear, 0, some 0, 3⟩ [80] (by decide +kernel)
  exact absurd kept (by decide +kernel)

end Usage
