import RemoteManagement.StatementTables
import RemoteManagement.UsageTable
import RemoteManagement.Library.RunTrace

/-!
# The history in the usage table

A monitor that sees the calls of the clients, and the clocks, but not the
database, knows what is in the usage table: it collects the points of each
client since its last handshake, and at each push writes the means of the last
ones of the client that pushes.
-/

namespace UsageHistory

open ThriftTypes SqlStatements ExecuteQuery Database QueryProgram Program GuardedRun RunTrace
open Computer Usage Ingestor Server UsageContainers UsageTable StatementTables

/-- A place for a number: what it measures, and the hour of a day. -/
structure Cell where
  date : Date
  type : UsageType
  id : Int
  tick : Fin 24

abbrev Cells := Cell → Option ℚ

/-- The mean of the last points of one kind, as it is stored. -/
def reading (points : List UsagePoint) (type : UsageType) (id : Int) : Option ℚ :=
  match (points.filter (fun p => pointKey p = (type, id))).filterMap UsagePoint.point with
  | [] => none
  | own => some (storedFloat (mean (own.rtake (rmsMaxContainerDataPoints + 1))))

/-- The cells after a push at a tick of a day. -/
def written (date : Date) (tick : Int) (points : List UsagePoint) (cells : Cells) : Cells :=
  fun c =>
    if c.date = date ∧ c.tick.val = tick then (reading points c.type c.id).or (cells c) else cells c

/-- `points` has those of the clients that are connected. -/
structure Monitor where
  ingestor : DbRequestIngestor
  points : Nat → Option (List UsagePoint) := fun _ => none
  cells : Cells

def Monitor.ingest (h : Nat) (m : Monitor) (item : Clock × RmsRequestData) : Monitor :=
  match m.points h with
  | none => m
  | some points =>
    let points := points ++ usagePoints item.2
    let (ingestor, pushed) := m.ingestor.usagePush item.1
    { ingestor := ingestor
      points := Function.update m.points h (some points)
      cells := pushed.elim m.cells (fun tick => written item.1.date tick points m.cells) }

def Monitor.see (m : Monitor) : Event → Monitor
  | .connect h => { m with points := Function.update m.points h (some ((m.points h).getD [])) }
  | .handshake h _ _ =>
    { m with points := Function.update m.points h ((m.points h).map (fun _ => [])) }
  | .report h _ data => data.foldl (Monitor.ingest h) m
  | .disconnect h => { m with points := Function.update m.points h none }
  | .sendSysInfo _ _ | .status | .clients | .infoClient _ | .getSysInfo _ | .exec _ _ _ => m

def Cell.key (c : Cell) : Date × Int × Option Int := (c.date, c.type.toInt, some c.id)

/-- The numbers in the table. -/
def cellsOf (db : Db) : Cells :=
  fun c => (KeyedList.lookup rowKey c.key db.usages.rows).bind (fun r => r.ticks c.tick)

section Readings

variable {points : List UsagePoint} {c : RmsComputer}

/-- The points are numbers, and none has the id that stands for no id. -/
def Numbers (points : List UsagePoint) : Prop := ∀ p ∈ points, 0 ≤ p.id ∧ p.point ≠ none

/-- The containers of the computer hold what was collected. -/
structure Gathered (c : RmsComputer) (points : List UsagePoint) : Prop where
  containers : c.usageInfo = (addUsageInfos (.create 0) points).usageInfo
  numbers : Numbers points

theorem gathered_fresh (fresh : c.usageInfo = []) : Gathered c [] := ⟨fresh, by simp [Numbers]⟩

theorem Gathered.add (h : Gathered c points) {more : List UsagePoint} (numbers : Numbers more) :
    Gathered (addUsageInfos c more) (points ++ more) where
  containers := by
    have both : addUsageInfos (.create 0) (points ++ more) =
        addUsageInfos (addUsageInfos (.create 0) points) more := List.foldl_append
    rw [both, usageInfo_addUsageInfos c, usageInfo_addUsageInfos (addUsageInfos _ points),
      h.containers]
  numbers := by
    intro p hp
    rcases List.mem_append.mp hp with old | new
    · exact h.numbers p old
    · exact numbers p new

theorem map_point {l : List UsagePoint} (numbers : ∀ p ∈ l, p.point ≠ none) :
    l.map UsagePoint.point = (l.filterMap UsagePoint.point).map some := by
  induction l with
  | nil => rfl
  | cons p l ih =>
    rw [List.forall_mem_cons] at numbers
    obtain ⟨q, point⟩ := Option.ne_none_iff_exists'.mp numbers.1
    rw [List.map_cons, ih numbers.2, List.filterMap_cons_some point, List.map_cons, point]

theorem Gathered.distinct (h : Gathered c points) : (c.usageInfo.map containerKey).Nodup :=
  h.containers ▸ (addUsageInfos_separate rfl points).1

/-- A container reports the reading of its kind. -/
theorem Gathered.reading (h : Gathered c points) {u : UsageContainer} (hu : u ∈ c.usageInfo) :
    0 ≤ u.id ∧ u.tableExist = false ∧ ∃ value, u.getData = some value ∧
      reading points u.usageType u.id = some (storedFloat value) := by
  obtain ⟨-, keys, filled⟩ := addUsageInfos_separate (c := .create 0) rfl points
  rw [h.containers] at hu
  obtain ⟨p, hp, own⟩ := (keys (containerKey u)).mp (List.mem_map_of_mem hu)
  obtain ⟨some, made⟩ := filled u hu
  have id : p.id = u.id := congrArg Prod.snd own
  have numbers : ∀ p ∈ points.filter (fun p => pointKey p = containerKey u), p.point ≠ none :=
    fun p hp => (h.numbers p (List.mem_of_mem_filter hp)).2
  rw [map_point numbers] at made
  set own := (points.filter (fun p => pointKey p = containerKey u)).filterMap UsagePoint.point
    with own_eq
  have data : u.dataPoints = (own.rtake (rmsMaxContainerDataPoints + 1)).map Option.some := by
    rw [made]
    exact dataPoints_feed u.usageType u.id false own
  have eq := feed_eq { usageType := u.usageType, id := u.id } (own.map Option.some)
  rw [← made] at eq
  have rest : 0 < (own.rtake (rmsMaxContainerDataPoints + 1)).length := by
    rw [List.length_pos_iff]
    intro none
    rw [data, none] at some
    exact some rfl
  refine ⟨id ▸ (h.numbers p hp).1, congrArg UsageContainer.tableExist eq, _,
    getData_rationals data (congrArg UsageContainer.culminating eq) rest, ?_⟩
  rw [UsageHistory.reading]
  change (match own with
    | [] => none
    | own => Option.some (storedFloat (mean (own.rtake (rmsMaxContainerDataPoints + 1))))) = _
  cases found : own with
  | nil => simp [found] at rest
  | cons q qs => rfl

/-- A kind without a container has no reading. -/
theorem Gathered.no_reading (h : Gathered c points) {type : UsageType} {id : Int}
    (none : (type, id) ∉ c.usageInfo.map containerKey) :
    UsageHistory.reading points type id = .none := by
  have empty : points.filter (fun p => pointKey p = (type, id)) = [] := by
    rw [List.filter_eq_nil_iff]
    intro p hp
    rw [decide_eq_true_eq]
    intro own
    rw [h.containers, (addUsageInfos_separate (c := .create 0) rfl points).2.1] at none
    exact none ⟨p, hp, own⟩
  rw [UsageHistory.reading, empty]
  rfl

end Readings

section Tables

variable {misread : List Char → Db → Option Outcome}

theorem cellsOf_eq (db : Db) (cell : Cell) :
    cellsOf db cell = (entriesAt db cell.key).head?.bind (fun r => r.ticks cell.tick) := by
  rw [entriesAt, List.head?_filter]
  rfl

theorem unduplicated_of_quiet (tick : Int) (date : Date) (us : List UsageContainer)
    {conn : Connection} (quiet : conn.faults = []) : Unduplicated misread tick date us conn := by
  induction us generalizing conn with
  | nil => trivial
  | cons u us ih =>
    refine ⟨fun duplicates => ?_, ih (quiet_run misread _ quiet)⟩
    have silenced := duplicates.2.1
    rw [quiet] at silenced
    cases silenced

theorem key_of_cell {u : UsageContainer} (id : 0 ≤ u.id) (cell : Cell) :
    entryKey cell.date u = cell.key ↔ containerKey u = (cell.type, cell.id) := by
  rw [entryKey, queryId_of_nonneg id, Cell.key, containerKey]
  constructor
  · intro same
    simp only [Prod.mk.injEq, Option.some.injEq, true_and] at same
    exact Prod.ext (toInt_injective same.1) same.2
  · intro same
    simp only [Prod.mk.injEq] at same
    rw [same.1, same.2]

/-- An upsert writes the number in its hour, and keeps those in the others. -/
theorem ticks_upserted {tick : Fin 24} {value : ℚ} {before after : List UsageRow}
    (h : Upserted tick value before after) (t : Fin 24) :
    after.head?.bind (fun r => r.ticks t) =
      if t = tick then some (storedFloat value) else before.head?.bind (fun r => r.ticks t) := by
  obtain ⟨old, rfl, was⟩ := h
  have new : ([setTick tick value old].head?.bind fun r => r.ticks t) =
      if t = tick then some (storedFloat value) else old.ticks t :=
    Function.update_apply old.ticks tick _ t
  rw [new]
  rcases was with rfl | ⟨rfl, empty⟩
  · rfl
  · rw [empty t]
    rfl

/-- Without faults a push writes the readings of its computer. -/
theorem cellsOf_push {c : RmsComputer} {points : List UsagePoint} (gathered : Gathered c points)
    (tick : Fin 24) (date : Date) {conn : Connection} (quiet : conn.faults = [])
    (one : OneEach conn.db) :
    cellsOf ((pushUsageToDB c tick.val date).run (answer misread) conn).2.db =
      written date tick.val points (cellsOf conn.db) := by
  have ids (u) (hu : u ∈ c.usageInfo) : 0 ≤ u.id := (gathered.reading hu).1
  have numbers (u) (hu : u ∈ c.usageInfo) : u.getData ≠ none := by
    obtain ⟨-, -, value, data, -⟩ := gathered.reading hu
    rw [data]
    exact Option.some_ne_none value
  obtain ⟨own, others⟩ := pushUsageToDB_upserts misread one gathered.distinct ids
    (fun u hu exist => by simp [(gathered.reading hu).2.1] at exist) (.of_quiet quiet)
    (allAnswers_pushUsageToDB misread tick date numbers quiet)
  funext cell
  rw [cellsOf_eq, written, cellsOf_eq]
  by_cases held : cell.key ∈ c.usageInfo.map (entryKey date)
  · obtain ⟨u, hu, key⟩ := List.mem_map.mp held
    obtain rfl : date = cell.date := congrArg Prod.fst key
    obtain ⟨value, data, upserted⟩ := own u hu
    obtain ⟨id, -, value', data', read⟩ := gathered.reading hu
    obtain rfl : value = value' := Option.some.inj (data.symm.trans data')
    have kind := (key_of_cell id cell).mp key
    rw [containerKey, Prod.mk.injEq] at kind
    rw [key] at upserted
    rw [ticks_upserted upserted, ← kind.1, ← kind.2, read]
    simp [Fin.ext_iff]
  · have kept : entriesAt ((pushUsageToDB c tick.val date).run (answer misread) conn).2.db
        cell.key = entriesAt conn.db cell.key := by
      have filtered := congrArg (List.filter (fun r => rowKey r = cell.key)) others
      simp only [List.filter_filter] at filtered
      refine (List.filter_congr fun r hr => ?_).trans (filtered.trans
        (List.filter_congr fun r hr => ?_))
      · by_cases key : rowKey r = cell.key <;> simp [key, held]
      · by_cases key : rowKey r = cell.key <;> simp [key, held]
    rw [kept]
    split
    · rename_i here
      obtain ⟨rfl, -⟩ := here
      rw [gathered.no_reading, Option.none_or]
      intro mem
      obtain ⟨u, hu, kind⟩ := List.mem_map.mp mem
      exact held (List.mem_map.mpr ⟨u, hu, (key_of_cell (ids u hu) cell).mpr kind⟩)
    · rfl

end Tables

section Frames

theorem addToDB_usageInfo (c : RmsComputer) :
    c.addToDB.Returns (fun out => out.2.usageInfo = c.usageInfo) := by
  simp only [RmsComputer.addToDB, ask, bind_eq, query_bind, ret_bind, returns_query]
  intro res
  split
  · exact returns_bind (returns_any _) fun _ _ => rfl
  · rfl

theorem updateDB_usageInfo (c : RmsComputer) :
    c.updateDB.Returns (fun out => out.2.usageInfo = c.usageInfo) := by
  rw [RmsComputer.updateDB]
  split
  · rfl
  · exact returns_bind (returns_any _) fun _ _ => returns_bind (returns_any _) fun _ _ => rfl

theorem getFromDB_usageInfo (junk : VersionData) (c : RmsComputer) :
    (c.getFromDB junk).Returns (fun out => out.2.usageInfo = c.usageInfo) := by
  rw [RmsComputer.getFromDB]
  split
  · rfl
  · simp only [ask, bind_eq, query_bind, ret_bind, returns_query]
    intro res
    split
    · split
      · rfl
      · simp only [RmsComputer.getStorageFromDB, ask, bind_eq, query_bind, ret_bind, returns_query]
        intro res
        split <;> rfl
    · exact returns_bind (addToDB_usageInfo c) fun _ same => same
    · rfl

theorem setSysInfo_usageInfo (c : RmsComputer) (info : SystemInfo) :
    (c.setSysInfo info).usageInfo = c.usageInfo := by
  rw [setSysInfo_eq]

/-- A handshake makes a computer that has no points yet. -/
theorem handshake_usageInfo (junk : VersionData) (id : Int) (sysInfo : SystemInfo) :
    (Handshake.handshake junk id sysInfo).Returns (fun out => out.2.usageInfo = []) := by
  rw [Handshake.handshake]
  split
  · refine returns_bind (getFromDB_usageInfo junk _) fun out same => ?_
    obtain ⟨loaded | _, c⟩ := out
    · exact same
    · refine returns_bind (updateDB_usageInfo _) fun out kept => ?_
      exact kept.trans ((setSysInfo_usageInfo _ _).trans same)
  · exact returns_bind (addToDB_usageInfo _) fun out kept =>
      kept.trans (setSysInfo_usageInfo _ _)

end Frames

section Runs

variable (misread : List Char → Db → Option Outcome) (junk : VersionData)

/-- The hours are hours of the day, and the points are numbers. -/
def Measured : Event → Prop
  | .report _ _ data => ∀ item ∈ data,
      (0 ≤ item.1.hour ∧ item.1.hour < 24) ∧ Numbers (usagePoints item.2)
  | _ => True

structure Tabled (conn : Connection) (cells : Cells) : Prop where
  quiet : conn.faults = []
  one : OneEach conn.db
  cells : cellsOf conn.db = cells

/-- What the ingestor works on is what the monitor has for the client. -/
structure Serves (m : Monitor) (h : Nat) (ing : DbRequestIngestor) (computer : Option RmsComputer)
    (conn : Connection) : Prop where
  ingestor : ing = m.ingestor
  tick : ing.tick = -1 ∨ 0 ≤ ing.tick ∧ ing.tick < 24
  points : ∃ points, m.points h = some points ∧ ∀ c ∈ computer, Gathered c points
  table : Tabled conn m.cells

structure Follows (m : Monitor) (s : RmsServer) : Prop where
  backend : ∃ conn, s.backend = .sqlite m.ingestor conn ∧ Tabled conn m.cells
  tick : m.ingestor.tick = -1 ∨ 0 ≤ m.ingestor.tick ∧ m.ingestor.tick < 24
  live : ∀ h, (m.points h).isSome = (s.handlers h).isSome
  gathered : ∀ h client points, s.handlers h = some client → m.points h = some points →
    ∀ c ∈ client.computer, Gathered c points

variable {misread}

theorem Tabled.program (first : FirstStatement misread) {α : Type} {p : DbProgram α}
    {names : List TableName} (about : p.Only (About names)) (off : .usage ∉ names)
    {conn : Connection} {cells : Cells} (h : Tabled conn cells) :
    Tabled (p.run (answer misread) conn).2 cells := by
  have same := usages_run first about off conn
  refine ⟨quiet_run misread p h.quiet, ?_, ?_⟩
  · rw [OneEach, rowKeys, same]
    exact h.one
  · rw [← h.cells]
    funext cell
    simp only [cellsOf, same]

theorem Tabled.push {c : RmsComputer} {points : List UsagePoint} (gathered : Gathered c points)
    {tick : Int} (low : 0 ≤ tick) (high : tick < 24) (date : Date) {conn : Connection}
    {cells : Cells} (h : Tabled conn cells) :
    Tabled ((pushUsageToDB c tick date).run (answer misread) conn).2
      (written date tick points cells) := by
  obtain ⟨column, rfl⟩ : ∃ column : Fin 24, (column.val : Int) = tick :=
    ⟨⟨tick.toNat, by omega⟩, by simp [low]⟩
  refine ⟨quiet_run misread _ h.quiet, ?_, ?_⟩
  · simp only [pushUsageToDB, bind_eq, pure_eq, run_bind, run_ret]
    exact (oneEach_pushUsages_iff misread _ _ _ conn).mpr
      ⟨h.one, unduplicated_of_quiet _ _ _ h.quiet⟩
  · rw [cellsOf_push gathered column date h.quiet h.one, h.cells]

/-- The tick of a push, and the one after it, are hours of the day. -/
theorem usagePush_tick {ing : DbRequestIngestor} {clock : Clock}
    (hour : 0 ≤ clock.hour ∧ clock.hour < 24)
    (known : ing.tick = -1 ∨ 0 ≤ ing.tick ∧ ing.tick < 24) :
    ((ing.usagePush clock).1.tick = -1 ∨
        0 ≤ (ing.usagePush clock).1.tick ∧ (ing.usagePush clock).1.tick < 24) ∧
      ∀ tick, (ing.usagePush clock).2 = some tick → 0 ≤ tick ∧ tick < 24 := by
  by_cases due : ing.nextUsagePush < clock.now
  · have tick : 0 ≤ (if ing.tick = -1 then clock.hour else ing.tick) ∧
        (if ing.tick = -1 then clock.hour else ing.tick) < 24 := by
      split <;> omega
    simp only [DbRequestIngestor.usagePush, if_pos due]
    refine ⟨Or.inr ?_, ?_⟩
    · split <;> omega
    · rintro _ ⟨⟩
      exact tick
  · rw [usagePush_early due]
    exact ⟨known, by simp⟩

theorem Monitor.ingest_eq {h : Nat} {m : Monitor} {points : List UsagePoint}
    (known : m.points h = some points) (item : Clock × RmsRequestData) :
    m.ingest h item =
      { ingestor := (m.ingestor.usagePush item.1).1
        points := Function.update m.points h (some (points ++ usagePoints item.2))
        cells := (m.ingestor.usagePush item.1).2.elim m.cells
          (fun tick => written item.1.date tick (points ++ usagePoints item.2) m.cells) } := by
  rw [Monitor.ingest, known]

theorem addPoints_gathered {computer computer' : Option RmsComputer} {points more : List UsagePoint}
    (gathered : ∀ c ∈ computer, Gathered c points) (numbers : Numbers more)
    (added : addPoints computer more = some computer') :
    ∀ c ∈ computer', Gathered c (points ++ more) := by
  cases computer with
  | none =>
    simp only [addPoints, Option.map_none, Option.ite_none_right_eq_some, Option.some.injEq]
      at added
    obtain ⟨-, rfl⟩ := added
    simp
  | some c =>
    rw [addPoints_some] at added
    obtain rfl := Option.some.inj added
    rintro _ ⟨⟩
    exact (gathered c rfl).add numbers

theorem ingest_serves (first : FirstStatement misread) {m : Monitor} {h : Nat}
    {ing : DbRequestIngestor} {computer : Option RmsComputer} {conn conn' : Connection}
    (serves : Serves m h ing computer conn) {item : Clock × RmsRequestData}
    (hour : 0 ≤ item.1.hour ∧ item.1.hour < 24) (numbers : Numbers (usagePoints item.2))
    {out : Ingested}
    (ingested : (ingestRequestData item.1 item.2 ing computer).run (answer misread) conn =
      (some out, conn')) :
    Serves (m.ingest h item) h out.ingestor out.computer conn' := by
  obtain ⟨points, known, gathered⟩ := serves.points
  rw [Monitor.ingest_eq known item]
  have ticks := usagePush_tick hour serves.tick
  rw [← serves.ingestor]
  rw [ingestRequestData] at ingested
  split at ingested
  · cases ingested
  rename_i computer' added
  have holds := addPoints_gathered gathered numbers added
  have table := serves.table.program first (updateExecutor_about computer' item.2) (by decide)
  simp only [bind_eq, run_bind] at ingested
  split at ingested
  · -- the points are in, and the clock decides whether they are pushed
    simp only [pushIfDue] at ingested
    cases look : ing.usagePush item.1 with
    | mk ing' pushed =>
      rw [look] at ingested ticks
      cases pushed with
      | none =>
        cases ingested
        exact ⟨rfl, ticks.1, ⟨_, Function.update_self _ _ _, holds⟩, table⟩
      | some tick =>
        cases computer' with
        | none => cases ingested
        | some c =>
          simp only [bind_eq, pure_eq, run_bind, run_ret, Prod.mk.injEq, Option.some.injEq]
            at ingested
          obtain ⟨rfl, rfl⟩ := ingested
          obtain ⟨low, high⟩ := ticks.2 tick rfl
          exact ⟨rfl, ticks.1, ⟨_, Function.update_self _ _ _, holds⟩,
            table.push (holds c rfl) low high item.1.date⟩
  · cases ingested

theorem ingestRequest_serves (first : FirstStatement misread) {m : Monitor} {h : Nat}
    {ing ing' : DbRequestIngestor} {computer computer' : Option RmsComputer}
    {conn conn' : Connection} (serves : Serves m h ing computer conn)
    {data : List (Clock × RmsRequestData)}
    (measured : ∀ item ∈ data,
      (0 ≤ item.1.hour ∧ item.1.hour < 24) ∧ Numbers (usagePoints item.2))
    (ingested : (ingestRequest ing computer data).run (answer misread) conn =
      (some (ing', computer'), conn')) :
    Serves (data.foldl (Monitor.ingest h) m) h ing' computer' conn' := by
  induction data generalizing m ing computer conn with
  | nil =>
    cases ingested
    exact serves
  | cons item data ih =>
    rw [List.forall_mem_cons] at measured
    simp only [ingestRequest, bind_eq, run_bind] at ingested
    cases one : (ingestRequestData item.1 item.2 ing computer).run (answer misread) conn with
    | mk out conn₁ =>
      rw [one] at ingested
      cases out with
      | none => cases ingested
      | some out =>
        exact ih (ingest_serves first serves measured.1.1 measured.1.2 one) measured.2 ingested

theorem ingest_points (m : Monitor) {h g : Nat} (other : g ≠ h)
    (data : List (Clock × RmsRequestData)) :
    (data.foldl (Monitor.ingest h) m).points g = m.points g := by
  induction data generalizing m with
  | nil => rfl
  | cons item data ih =>
    rw [List.foldl_cons, ih, Monitor.ingest]
    split
    · rfl
    · exact Function.update_of_ne other _ _

theorem withDatabase_tabled (first : FirstStatement misread) {α : Type} {p : DbProgram α}
    {names : List TableName} (about : p.Only (About names)) (off : .usage ∉ names)
    {P : α → Prop} (returns : p.Returns P) {ing : DbRequestIngestor} {conn : Connection}
    {cells : Cells} (table : Tabled conn cells) {a : α} {backend : Backend}
    (asked : withDatabase misread p (.sqlite ing conn) = some (a, backend)) :
    P a ∧ ∃ conn', backend = .sqlite ing conn' ∧ Tabled conn' cells := by
  cases asked
  exact ⟨run_returns (answer misread) returns conn, _, rfl, table.program first about off⟩

theorem Follows.known {m : Monitor} {s : RmsServer} (hs : Follows m s) {k : Nat}
    {client : RmsClient} (live : s.handlers k = some client) :
    ∃ points, m.points k = some points :=
  Option.isSome_iff_exists.mp ((hs.live k).trans (by rw [live]; rfl))

theorem Follows.unknown {m : Monitor} {s : RmsServer} (hs : Follows m s) {k : Nat}
    (dead : s.handlers k = none) : m.points k = none :=
  Option.isNone_iff_eq_none.mp (by simpa [dead] using hs.live k)

/-- A step writes one client, and the monitor what it has of that one. -/
theorem Follows.put {m : Monitor} {s : RmsServer} (hs : Follows m s) (m' : Monitor)
    (points : List UsagePoint) {k : Nat} {client : RmsClient} {conn : Connection}
    (seen : m'.points = Function.update m.points k (some points))
    (tick : m'.ingestor.tick = -1 ∨ 0 ≤ m'.ingestor.tick ∧ m'.ingestor.tick < 24)
    (table : Tabled conn m'.cells) (gathered : ∀ c ∈ client.computer, Gathered c points) :
    Follows m' (s.put k client (.sqlite m'.ingestor conn)) where
  backend := ⟨conn, rfl, table⟩
  tick := tick
  live := by
    intro h
    simp only [seen, RmsServer.put, Function.update_apply]
    split
    · rfl
    · exact hs.live h
  gathered := by
    intro h client' points' live known c own
    simp only [RmsServer.put] at live
    rw [seen] at known
    by_cases here : h = k
    · subst here
      rw [Function.update_self] at live known
      cases live
      cases known
      exact gathered c own
    · rw [Function.update_of_ne here] at live known
      exact hs.gathered h client' points' live known c own

/-- What a client has is kept where the monitor learns nothing. -/
theorem Follows.keep {m : Monitor} {s : RmsServer} (hs : Follows m s) {k : Nat}
    {client client' : RmsClient} {conn : Connection} (live : s.handlers k = some client)
    (table : Tabled conn m.cells)
    (kept : ∀ c' ∈ client'.computer, ∃ c ∈ client.computer, c'.usageInfo = c.usageInfo) :
    Follows m (s.put k client' (.sqlite m.ingestor conn)) := by
  obtain ⟨points, known⟩ := hs.known live
  refine hs.put m points (by rw [← known, Function.update_eq_self]) hs.tick table fun c' own => ?_
  obtain ⟨c, before, same⟩ := kept c' own
  have gathered := hs.gathered k client points live known c before
  exact ⟨same.trans gathered.containers, gathered.numbers⟩

section Steps

variable {m : Monitor} {s t : RmsServer} {k : Nat}

theorem follows_connect (hs : Follows m s) (h : Server.step misread junk s (.connect k) = some t) :
    Follows (m.see (.connect k)) t := by
  obtain ⟨conn, backend, table⟩ := hs.backend
  cases live : s.handlers k with
  | some client =>
    obtain ⟨points, known⟩ := hs.known live
    simp only [Server.step, live, Option.some.injEq] at h
    have same : m.see (.connect k) = m := by
      rw [Monitor.see, known, Option.getD_some, ← known, Function.update_eq_self]
    rw [same, ← h]
    exact hs
  | none =>
    simp only [Server.step, live, Option.some.injEq] at h
    have put : Follows (m.see (.connect k)) (s.put k {} (.sqlite m.ingestor conn)) := by
      refine hs.put (m.see (.connect k)) ((m.points k).getD []) rfl hs.tick table ?_
      rintro c ⟨⟩
    rw [← h, backend]
    exact ⟨put.backend, put.tick, put.live, put.gathered⟩

theorem follows_disconnect (hs : Follows m s)
    (h : Server.step misread junk s (.disconnect k) = some t) :
    Follows (m.see (.disconnect k)) t := by
  obtain ⟨conn, backend, table⟩ := hs.backend
  have gone (u : RmsServer) (same : u.backend = s.backend)
      (handlers : u.handlers = Function.update s.handlers k none) :
      Follows (m.see (.disconnect k)) u := by
    refine ⟨⟨conn, same.trans backend, table⟩, hs.tick, fun g => ?_, ?_⟩
    · simp only [Monitor.see, handlers, Function.update_apply]
      split
      · rfl
      · exact hs.live g
    · intro g client points live known
      rw [handlers] at live
      simp only [Monitor.see] at known
      have other : g ≠ k := by
        rintro rfl
        rw [Function.update_self] at live
        cases live
      rw [Function.update_of_ne other] at live known
      exact hs.gathered g client points live known
  cases live : s.handlers k with
  | none =>
    simp only [Server.step, live, Option.some.injEq] at h
    refine gone t (h ▸ rfl) ?_
    rw [← h, ← live, Function.update_eq_self]
  | some client =>
    obtain ⟨id, -, rfl⟩ := disconnect_eq misread junk live h
    exact gone _ rfl rfl

theorem follows_handshake (first : FirstStatement misread) (hs : Follows m s) {id : Int}
    {sysInfo : SystemInfo} (h : Server.step misread junk s (.handshake k id sysInfo) = some t) :
    Follows (m.see (.handshake k id sysInfo)) t := by
  obtain ⟨conn, backend, table⟩ := hs.backend
  cases live : s.handlers k with
  | none =>
    simp only [Server.step, live, Option.some.injEq] at h
    have unknown := hs.unknown live
    have same : m.see (.handshake k id sysInfo) = m := by
      rw [Monitor.see, unknown, Option.map_none, ← unknown, Function.update_eq_self]
    rw [same, ← h]
    exact hs
  | some client =>
    simp only [Server.step, live, Option.map_eq_some_iff, backend] at h
    obtain ⟨⟨out, backend'⟩, asked, rfl⟩ := h
    obtain ⟨fresh, conn', rfl, table'⟩ := withDatabase_tabled first
      (handshake_about junk id sysInfo) (by decide) (handshake_usageInfo junk id sysInfo) table
      asked
    obtain ⟨points, known⟩ := hs.known live
    refine hs.put (m.see (.handshake k id sysInfo)) [] ?_ hs.tick table' ?_
    · rw [Monitor.see, known, Option.map_some]
    · rintro _ ⟨⟩
      exact gathered_fresh fresh

theorem follows_report (first : FirstStatement misread) (hs : Follows m s) {timestamp : Int}
    {data : List (Clock × RmsRequestData)} (measured : Measured (.report k timestamp data))
    (h : Server.step misread junk s (.report k timestamp data) = some t) :
    Follows (m.see (.report k timestamp data)) t := by
  obtain ⟨conn, backend, table⟩ := hs.backend
  cases live : s.handlers k with
  | none =>
    simp only [Server.step, live, Option.some.injEq] at h
    have unknown := hs.unknown live
    have same (data : List (Clock × RmsRequestData)) : data.foldl (Monitor.ingest k) m = m := by
      induction data with
      | nil => rfl
      | cons item data ih => rw [List.foldl_cons, Monitor.ingest, unknown, ih]
    rw [Monitor.see, same, ← h]
    exact hs
  | some client =>
    simp only [Server.step, live, Option.map_eq_some_iff, backend, report] at h
    obtain ⟨⟨res, client', backend'⟩, reported, rfl⟩ := h
    split at reported
    · cases reported
    rename_i ing computer conn' ingested
    cases reported
    obtain ⟨points, known⟩ := hs.known live
    have serves : Serves m k m.ingestor client.computer conn :=
      ⟨rfl, hs.tick, ⟨points, known, hs.gathered k client points live known⟩, table⟩
    obtain ⟨ingestor, tick, ⟨points', known', gathered⟩, table'⟩ :=
      ingestRequest_serves first serves measured ingested
    rw [ingestor]
    refine hs.put (m.see (.report k timestamp data)) points' ?_
      (ingestor ▸ tick) table' gathered
    funext g
    rw [Function.update_apply]
    split
    · rename_i here
      exact here ▸ known'
    · rename_i other
      exact ingest_points m other data

theorem follows_sendSysInfo (first : FirstStatement misread) (hs : Follows m s)
    {sysInfo : SystemInfo} (h : Server.step misread junk s (.sendSysInfo k sysInfo) = some t) :
    Follows m t := by
  obtain ⟨conn, backend, table⟩ := hs.backend
  cases live : s.handlers k with
  | none =>
    simp only [Server.step, live, Option.some.injEq] at h
    exact h ▸ hs
  | some client =>
    simp only [Server.step, live, Option.bind_eq_some_iff, Option.map_eq_some_iff, backend] at h
    obtain ⟨c, own, ⟨out, backend'⟩, asked, rfl⟩ := h
    obtain ⟨same, conn', rfl, table'⟩ := withDatabase_tabled first (updateDB_about _)
      (by decide) (updateDB_usageInfo _) table asked
    refine hs.keep live table' ?_
    rintro _ ⟨⟩
    exact ⟨c, own, same.trans (setSysInfo_usageInfo c sysInfo)⟩

theorem follows_exec (first : FirstStatement misread) (hs : Follows m s) {id timestamp : Int}
    {cmd : String} (h : Server.step misread junk s (.exec id timestamp cmd) = some t) :
    Follows m t := by
  obtain ⟨conn, backend, table⟩ := hs.backend
  rcases exec_eq misread junk h with ⟨-, rfl⟩ | ⟨k, client, data, backend', -, live, asked, rfl⟩
  · exact hs
  · rw [backend] at asked
    obtain ⟨-, conn', rfl, table'⟩ := withDatabase_tabled first (runCommand_about id timestamp cmd)
      (by decide) (returns_any _) table asked
    refine hs.keep live table' fun c own => ⟨c, ?_, rfl⟩
    cases data <;> exact own

end Steps

theorem step_follows (first : FirstStatement misread) (m : Monitor) (s : RmsServer) (e : Event)
    (t : RmsServer) (hs : Follows m s) (measured : Measured e)
    (h : Server.step misread junk s e = some t) : Follows (m.see e) t := by
  cases e with
  | connect k => exact follows_connect junk hs h
  | disconnect k => exact follows_disconnect junk hs h
  | handshake k id sysInfo => exact follows_handshake junk first hs h
  | report k timestamp data => exact follows_report junk first hs measured h
  | sendSysInfo k sysInfo => exact follows_sendSysInfo junk first hs h
  | exec id timestamp cmd => exact follows_exec junk first hs h
  | status =>
    simp only [Server.step, Option.some.injEq] at h
    exact h ▸ hs
  | clients =>
    rw [Server.step, Option.ite_none_right_eq_some, Option.some.injEq] at h
    exact h.2 ▸ hs
  | infoClient id =>
    simp only [Server.step, Option.map_eq_some_iff] at h
    obtain ⟨_, -, rfl⟩ := h
    exact hs
  | getSysInfo id =>
    obtain ⟨conn, backend, table⟩ := hs.backend
    rcases getSysInfo_eq misread junk h with rfl | ⟨k, client, live, rfl⟩
    · exact hs
    · rw [backend]
      exact hs.keep live table fun c own => ⟨c, own, rfl⟩

/-- The monitor when the server starts. -/
def monitor (boot : Int) (db : Db) : Monitor where
  ingestor := .create boot
  cells := cellsOf db

/-- In every run the table has the numbers that the monitor has, each in its
place, and its ingestor is where the monitor is. -/
theorem run_cells (first : FirstStatement misread) (boot : Int) {conn : Connection}
    (quiet : conn.faults = []) (one : OneEach conn.db) {es : List Event} {t : RmsServer}
    (measured : ∀ e ∈ es, Measured e)
    (arrives : run (Server.step misread junk) (Server.start (.sqlite (.create boot) conn)) es =
      some t) :
    let m := es.foldl Monitor.see (monitor boot conn.db)
    ∃ conn', t.backend = .sqlite m.ingestor conn' ∧ OneEach conn'.db ∧
      cellsOf conn'.db = m.cells := by
  have before : Follows (monitor boot conn.db) (Server.start (.sqlite (.create boot) conn)) := by
    refine ⟨⟨conn, rfl, quiet, one, rfl⟩, Or.inl rfl, fun _ => rfl, ?_⟩
    rintro h client points ⟨⟩
  have follows := run_followed Follows (step_follows junk first) before (guarded_of_forall measured)
    arrives
  obtain ⟨conn', backend, table⟩ := follows.backend
  exact ⟨conn', backend, table.one, table.cells⟩

end Runs

instance decidableNumbers (points : List UsagePoint) : Decidable (Numbers points) :=
  inferInstanceAs (Decidable (∀ p ∈ points, _))

instance decidableMeasured : ∀ e, Decidable (Measured e)
  | .report _ _ data => inferInstanceAs (Decidable (∀ item ∈ data, _))
  | .connect _ | .handshake _ _ _ | .sendSysInfo _ _ | .disconnect _ | .status | .clients
  | .infoClient _ | .getSysInfo _ | .exec _ _ _ => isTrue trivial

def cpuLoad (minute : Int) (load : ℚ) : Clock × RmsRequestData :=
  (⟨minutes minute, 3, newYear⟩,
    { dataType := .kCpuUsage, data := { cpuUsageData := { usage := [some load] } } })

/-- Two loads of a client, the second of which is pushed with the first. -/
def firstPush : List Event :=
  [.connect 0, .handshake 0 (-1) { hostName := "a" }, .report 0 0 [cpuLoad 1 80],
    .report 0 0 [cpuLoad 6 10]]

theorem run_cells_firstPush :
    let t := (run (Server.step (fun _ _ => none) {}) (Server.start sqlite) firstPush).get
      (by decide +kernel)
    let m := firstPush.foldl Monitor.see (monitor 0 freshConn.db)
    m.cells ⟨newYear, .kCpu, 0, 3⟩ = some 45 ∧
      ∃ conn', t.backend = .sqlite m.ingestor conn' ∧ OneEach conn'.db ∧
        cellsOf conn'.db = m.cells := by
  intro t m
  have arrives : run (Server.step (fun _ _ => none) {}) (Server.start sqlite) firstPush = some t :=
    (Option.some_get _).symm
  clear_value t
  exact ⟨by decide +kernel,
    run_cells {} firstStatement_none 0 rfl (by decide) (by decide +kernel) arrives⟩

end UsageHistory
