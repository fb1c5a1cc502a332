import RemoteManagement.Usage
import RemoteManagement.Library.PeriodicTrigger
import Mathlib.Data.Set.Subsingleton

/-!
# DbRequestIngestor

One ingestor takes the requests of all clients. It has one deadline for the
hourly push, and the request that finds the deadline passed has its own
computer pushed and moves the deadline on. A null computer is none, and so is
the result of a step that uses one.
-/

namespace Ingestor

open ThriftTypes SqlStatements ExecuteQuery Database QueryProgram Program GuardedRun
open Computer Usage PeriodicTrigger

/-- Durations of the steady clock, in nanoseconds. -/
def minutes (n : Int) : Int := n * 60000000000

def hours (n : Int) : Int := minutes (60 * n)

/-- What the clocks say when a request is looked at. -/
structure Clock where
  now : Int
  hour : Int
  date : Date

structure DbRequestIngestor where
  tick : Int := -1
  nextUsagePush : Int
  deriving DecidableEq

def DbRequestIngestor.create (now : Int) : DbRequestIngestor := { nextUsagePush := now + minutes 5 }

/-- The ingestor after the look at the clock, and the tick to push if it is time. -/
def DbRequestIngestor.usagePush (ing : DbRequestIngestor) (clock : Clock) :
    DbRequestIngestor × Option Int :=
  if ing.nextUsagePush < clock.now then
    let tick := if ing.tick = -1 then clock.hour else ing.tick
    ({ tick := if tick = 23 then 0 else tick + 1
       nextUsagePush := ing.nextUsagePush + hours 1 }, some tick)
  else (ing, none)

structure UsagePoint where
  type : UsageType
  point : Double
  id : Int

def percentage (total free : Int) : Double :=
  if total = 0 then none else some (100 * (total - free : Int) / (total : ℚ))

/-- The calls of `addUsageInfo` that a request makes. -/
def usagePoints (data : RmsRequestData) : List UsagePoint :=
  match data.dataType with
  | .kCpuUsage => data.data.cpuUsageData.usage.zipIdx.map (fun p => ⟨.kCpu, p.1, (p.2 : Int)⟩)
  | .kRamUsage =>
    let ram := data.data.ramData
    ⟨.kRam, percentage ram.mainTotal ram.mainFree, 0⟩ ::
      (if ram.swapTotal ≠ 0 then [⟨.kRam, percentage ram.swapTotal ram.swapFree, 1⟩] else [])
  | _ => []

/-- The computer is used only if there is a point to add. -/
def addPoints (computer : Option RmsComputer) (points : List UsagePoint) :
    Option (Option RmsComputer) :=
  if points = [] then some computer
  else computer.map (fun c => some (points.foldl (fun c p => c.addUsageInfo p.type p.point p.id) c))

def executorQuery (data : RmsRequestData) : Query :=
  let result := data.data.executorResult
  .updateExecutor result.timeFinished result.code result.returnType.toInt result.id

/-- Whether the update of the executor gets by without a null computer: its id
is printed when the update fails. -/
def updateExecutor (computer : Option RmsComputer) (data : RmsRequestData) : DbProgram Bool :=
  if data.dataType = .kExecutorResult then do
    let res ← ask (executorQuery data, false)
    return res.success || computer.isSome
  else return true

structure Ingested where
  ingestor : DbRequestIngestor
  computer : Option RmsComputer
  pushedTick : Option Int

def pushIfDue (clock : Clock) (ing : DbRequestIngestor) (computer : Option RmsComputer) :
    DbProgram (Option Ingested) :=
  match ing.usagePush clock, computer with
  | (ing, none), computer => return some ⟨ing, computer, none⟩
  | (_, some _), none => return none
  | (ing, some tick), some c => do
    let _ ← pushUsageToDB c tick clock.date
    return some ⟨ing, some c, some tick⟩

def ingestRequestData (clock : Clock) (data : RmsRequestData) (ing : DbRequestIngestor)
    (computer : Option RmsComputer) : DbProgram (Option Ingested) :=
  match addPoints computer (usagePoints data) with
  | none => return none
  | some computer => do
    let served ← updateExecutor computer data
    if served then pushIfDue clock ing computer else return none

theorem usagePush_early {ing : DbRequestIngestor} {clock : Clock}
    (early : ¬ ing.nextUsagePush < clock.now) : ing.usagePush clock = (ing, none) :=
  if_neg early

/-- A push is for the tick, which after the start is the hour, and counts it on. -/
theorem usagePush_due {ing : DbRequestIngestor} {clock : Clock} {t : Int}
    (passed : ing.nextUsagePush < clock.now)
    (tick : ing.tick = -1 ∧ clock.hour = t ∨ ing.tick = t) (low : 0 ≤ t) (high : t < 24) :
    ing.usagePush clock =
      ({ tick := (t + 1) % 24, nextUsagePush := ing.nextUsagePush + hours 1 }, some t) := by
  have pushed : (if ing.tick = -1 then clock.hour else ing.tick) = t := by
    rcases tick with ⟨unset, hour⟩ | known
    · rw [if_pos unset, hour]
    · rw [if_neg (by omega), known]
  have next : (if t = 23 then 0 else t + 1) = (t + 1) % 24 := by split <;> omega
  simp only [DbRequestIngestor.usagePush, if_pos passed, pushed, next]

/-- The data of one request, each with the clocks when it is looked at. -/
def ingestRequest (ing : DbRequestIngestor) (computer : Option RmsComputer) :
    List (Clock × RmsRequestData) → DbProgram (Option (DbRequestIngestor × Option RmsComputer))
  | [] => return some (ing, computer)
  | (clock, data) :: rest => do
    match ← ingestRequestData clock data ing computer with
    | none => return none
    | some out => ingestRequest out.ingestor out.computer rest

/-- Whatever is ingested, the push is decided by the clock. -/
theorem ingestRequestData_looks (clock : Clock) (data : RmsRequestData) (ing : DbRequestIngestor)
    (computer : Option RmsComputer) :
    (ingestRequestData clock data ing computer).Returns
      (fun o => ∀ out ∈ o, (out.ingestor, out.pushedTick) = ing.usagePush clock) := by
  have pushed (computer : Option RmsComputer) : (pushIfDue clock ing computer).Returns
      (fun o => ∀ out ∈ o, (out.ingestor, out.pushedTick) = ing.usagePush clock) := by
    simp only [pushIfDue]
    cases ing.usagePush clock with
    | mk ing' tick =>
      cases tick with
      | none => simp
      | some tick =>
        cases computer with
        | none => simp
        | some c => exact returns_bind (returns_any _) fun _ _ => by simp
  rw [ingestRequestData]
  cases addPoints computer (usagePoints data) with
  | none => simp
  | some computer =>
    refine returns_bind (returns_any _) fun served _ => ?_
    split
    · exact pushed computer
    · simp

theorem addPoints_some (c : RmsComputer) (points : List UsagePoint) :
    addPoints (some c) points =
      some (some (points.foldl (fun c p => c.addUsageInfo p.type p.point p.id) c)) := by
  rw [addPoints]
  split
  · rename_i none
    rw [none]
    rfl
  · rfl

section Frames

/-! What the points of a computer are no part of is kept. -/

variable {β : Type} (f : RmsComputer → β)
  (same : ∀ c type point id, f (c.addUsageInfo type point id) = f c)

include same

theorem addUsageInfos_keeps (c : RmsComputer) (points : List UsagePoint) :
    f (points.foldl (fun c p => c.addUsageInfo p.type p.point p.id) c) = f c := by
  induction points generalizing c with
  | nil => rfl
  | cons p points ih => exact (ih _).trans (same c _ _ _)

theorem addPoints_keeps {computer computer' : Option RmsComputer} {points : List UsagePoint}
    (added : addPoints computer points = some computer') : computer'.map f = computer.map f := by
  cases computer with
  | none =>
    simp only [addPoints, Option.map_none, Option.ite_none_right_eq_some, Option.some.injEq]
      at added
    rw [← added.2]
  | some c =>
    rw [addPoints_some] at added
    rw [← Option.some.inj added, Option.map_some, addUsageInfos_keeps f same, Option.map_some]

omit same in
theorem pushIfDue_keeps (clock : Clock) (ing : DbRequestIngestor) (computer : Option RmsComputer) :
    (pushIfDue clock ing computer).Returns
      (fun o => ∀ out ∈ o, out.computer.map f = computer.map f) := by
  simp only [pushIfDue]
  cases ing.usagePush clock with
  | mk ing' tick =>
    cases tick with
    | none => simp
    | some tick =>
      cases computer with
      | none => simp
      | some c => exact returns_bind (returns_any _) fun _ _ => by simp

theorem ingestRequest_keeps (ing : DbRequestIngestor) (computer : Option RmsComputer)
    (data : List (Clock × RmsRequestData)) :
    (ingestRequest ing computer data).Returns
      (fun o => ∀ out ∈ o, out.2.map f = computer.map f) := by
  induction data generalizing ing computer with
  | nil => simp [ingestRequest]
  | cons item data ih =>
    have one : (ingestRequestData item.1 item.2 ing computer).Returns
        (fun o => ∀ out ∈ o, out.computer.map f = computer.map f) := by
      rw [ingestRequestData]
      split
      · simp
      · rename_i computer' added
        refine returns_bind (returns_any _) fun served _ => ?_
        split
        · rw [← addPoints_keeps f same added]
          exact pushIfDue_keeps f item.1 ing computer'
        · simp
    refine returns_bind one fun o kept => ?_
    cases o with
    | none => simp
    | some out =>
      rw [← kept out rfl]
      exact ih out.ingestor out.computer

end Frames

section Handlers

variable {σ : Type} (handle : Query × Bool → σ → RmsQueryResult × σ)

/-- With a computer, a request is ingested whatever the database answers. -/
theorem ingestRequestData_returns (clock : Clock) (data : RmsRequestData) (ing : DbRequestIngestor)
    (c : RmsComputer) (s : σ) :
    ((ingestRequestData clock data ing (some c)).run handle s).1 =
      some ⟨(ing.usagePush clock).1,
        some ((usagePoints data).foldl (fun c p => c.addUsageInfo p.type p.point p.id) c),
        (ing.usagePush clock).2⟩ := by
  have served (c : RmsComputer) (s : σ) :
      ((updateExecutor (some c) data).run handle s).1 = true := by
    rw [updateExecutor]
    split
    · simp
    · rfl
  have pushed (c : RmsComputer) (s : σ) : ((pushIfDue clock ing (some c)).run handle s).1 =
      some ⟨(ing.usagePush clock).1, some c, (ing.usagePush clock).2⟩ := by
    simp only [pushIfDue]
    cases ing.usagePush clock with
    | mk ing' tick =>
      cases tick with
      | none => rfl
      | some tick => simp
  simp [ingestRequestData, addPoints_some, served, pushed]

/-- The data play no part in whether a request is pushed. -/
theorem run_ingestRequestData (clock : Clock) (data : RmsRequestData) (ing : DbRequestIngestor)
    (c : RmsComputer) (s : σ) :
    ∃ c' s', (ingestRequestData clock data ing (some c)).run handle s =
      (some ⟨(ing.usagePush clock).1, some c', (ing.usagePush clock).2⟩, s') :=
  ⟨_, _, Prod.ext (ingestRequestData_returns handle clock data ing c s) rfl⟩

end Handlers

section Runs

variable {Computer : Type} [DecidableEq Computer] (misread : List Char → Db → Option Outcome)

/-- A piece of data that a computer's client reports. -/
structure Item (Computer : Type) where
  clock : Clock
  data : RmsRequestData
  computer : Computer

/-- `pushed` lists the items that had their computer pushed. -/
structure State (Computer : Type) where
  ingestor : DbRequestIngestor
  computers : Computer → RmsComputer
  conn : Connection
  pushed : List (Item Computer)

def step (s : State Computer) (item : Item Computer) : Option (State Computer) :=
  match (ingestRequestData item.clock item.data s.ingestor (some (s.computers item.computer))).run
    (answer misread) s.conn with
  | (some ⟨ing, some c, tick⟩, conn) =>
    some ⟨ing, Function.update s.computers item.computer c, conn,
      if tick.isSome then s.pushed ++ [item] else s.pushed⟩
  | _ => none

def start (boot : Int) (computers : Computer → RmsComputer) (conn : Connection) : State Computer :=
  ⟨.create boot, computers, conn, []⟩

/-- Between the deadline that is `k` hours after the first and the next. -/
def BetweenDeadlines (boot : Int) (k : Nat) (item : Item Computer) : Prop :=
  InSlot (hours 1) (boot + minutes 5) k item.clock.now

instance (boot : Int) (k : Nat) (item : Item Computer) :
    Decidable (BetweenDeadlines boot k item) := inferInstanceAs (Decidable (InSlot _ _ _ _))

theorem step_pushes (s : State Computer) (item : Item Computer) :
    ∃ s', step misread s item = some s' ∧
      s'.ingestor.nextUsagePush =
        (if s.ingestor.nextUsagePush < item.clock.now then s.ingestor.nextUsagePush + hours 1
          else s.ingestor.nextUsagePush) ∧
      s'.pushed =
        (if s.ingestor.nextUsagePush < item.clock.now then s.pushed ++ [item] else s.pushed) := by
  obtain ⟨c, conn, result⟩ := run_ingestRequestData (answer misread) item.clock item.data
    s.ingestor (s.computers item.computer) s.conn
  refine ⟨_, by rw [step, result], ?_, ?_⟩
  · rw [DbRequestIngestor.usagePush]
    split <;> rfl
  · rw [DbRequestIngestor.usagePush]
    split <;> rfl

/-- The items that push are those that find the deadline passed. -/
theorem run_pushes (s : State Computer) (items : List (Item Computer)) :
    ∃ s', run (step misread) s items = some s' ∧ s'.pushed = s.pushed ++
      fired (fun item => item.clock.now) (hours 1) s.ingestor.nextUsagePush items := by
  induction items generalizing s with
  | nil => exact ⟨s, rfl, by simp [fired]⟩
  | cons item items ih =>
    obtain ⟨s₁, first, next, pushed⟩ := step_pushes misread s item
    obtain ⟨s₂, rest, hpushed⟩ := ih s₁
    refine ⟨s₂, by simp [GuardedRun.run, first, rest], ?_⟩
    rw [hpushed, next, pushed, fired]
    split
    · rw [List.append_assoc, List.singleton_append]
    · rfl

/-- The only push between two deadlines is that of the first item there. -/
theorem pushed_between {boot : Int} {computers : Computer → RmsComputer} {conn : Connection}
    {items : List (Item Computer)} {s : State Computer}
    (arrives : run (step misread) (start boot computers conn) items = some s)
    (sorted : items.Pairwise (fun a b => a.clock.now ≤ b.clock.now)) {n : Nat}
    (regular : ∀ k < n, ∃ item ∈ items, BetweenDeadlines boot k item) {k : Nat} (hk : k < n) :
    ∃ first ∈ items, BetweenDeadlines boot k first ∧
      s.pushed.filter (fun item => BetweenDeadlines boot k item) = [first] := by
  obtain ⟨s', arrives', hpushed⟩ := run_pushes misread (start boot computers conn) items
  obtain rfl : s' = s := Option.some.inj (arrives'.symm.trans arrives)
  have positive : 0 < hours 1 := by decide
  obtain ⟨item, hitem, between⟩ := regular k hk
  have some := (List.find?_isSome (p := fun i => BetweenDeadlines boot k i)).mpr
    ⟨item, hitem, decide_eq_true between⟩
  obtain ⟨first, hfirst⟩ := Option.isSome_iff_exists.mp some
  refine ⟨first, List.mem_of_find?_eq_some hfirst, by simpa using List.find?_some hfirst, ?_⟩
  rw [hpushed]
  refine (filter_fired positive sorted regular hk).trans ?_
  exact congrArg Option.toList hfirst

/-- If every connected computer reports between any two deadlines, all of them
are pushed there exactly if no two are connected. -/
theorem everyone_pushed_iff {connected : Set Computer} {boot : Int}
    {computers : Computer → RmsComputer} {conn : Connection} {items : List (Item Computer)}
    {s : State Computer} (arrives : run (step misread) (start boot computers conn) items = some s)
    (sorted : items.Pairwise (fun a b => a.clock.now ≤ b.clock.now))
    (fromConnected : ∀ item ∈ items, item.computer ∈ connected) {n : Nat} (hn : 0 < n)
    (regular : ∀ k < n, ∀ c ∈ connected, ∃ item ∈ items,
      item.computer = c ∧ BetweenDeadlines boot k item) :
    (∀ k < n, ∀ c ∈ connected, ∃ item ∈ s.pushed,
        item.computer = c ∧ BetweenDeadlines boot k item) ↔ connected.Subsingleton := by
  constructor
  · intro everyone a ha b hb
    have nonempty : ∀ k < n, ∃ item ∈ items, BetweenDeadlines boot k item := by
      intro k hk
      obtain ⟨item, hitem, -, between⟩ := regular k hk a ha
      exact ⟨item, hitem, between⟩
    obtain ⟨first, -, -, only⟩ := pushed_between misread arrives sorted nonempty hn
    have sender : ∀ c ∈ connected, first.computer = c := by
      intro c hc
      obtain ⟨item, hitem, rfl, between⟩ := everyone 0 hn c hc
      have mem := (List.mem_filter (p := fun i => BetweenDeadlines boot 0 i)).mpr
        ⟨hitem, decide_eq_true between⟩
      rw [only, List.mem_singleton] at mem
      rw [mem]
    exact (sender a ha).symm.trans (sender b hb)
  · intro alone k hk c hc
    have nonempty : ∀ k < n, ∃ item ∈ items, BetweenDeadlines boot k item := by
      intro k hk
      obtain ⟨item, hitem, -, between⟩ := regular k hk c hc
      exact ⟨item, hitem, between⟩
    obtain ⟨first, hfirst, between, only⟩ := pushed_between misread arrives sorted nonempty hk
    have mem : first ∈ s.pushed.filter (fun i => BetweenDeadlines boot k i) := by
      rw [only]
      exact List.mem_singleton.mpr rfl
    exact ⟨first, (List.mem_filter.mp mem).1, alone (fromConnected first hfirst) hc, between⟩

end Runs

def ping : RmsRequestData := { dataType := .kPing }

/-- A ping so many minutes after boot at time zero. -/
def pingAt {Computer : Type} (computer : Computer) (minute : Int) : Item Computer :=
  ⟨⟨minutes minute, 12, ⟨2022, 1, 1⟩⟩, ping, computer⟩

def freshConn : Connection := ⟨emptyDb, 0, []⟩

/-- A single computer that reports in the first two hours. -/
theorem everyone_pushed_alone :
    (∀ k < 2, ∀ c ∈ (Set.univ : Set Unit), ∃ item ∈ ((run (step (fun _ _ => none))
        (start 0 (fun _ => RmsComputer.create 1) freshConn) [pingAt () 6, pingAt () 70]).get
          (by rfl)).pushed,
      item.computer = c ∧ BetweenDeadlines 0 k item) ↔ (Set.univ : Set Unit).Subsingleton := by
  refine everyone_pushed_iff (fun _ _ => none) (Option.some_get _).symm (by decide) (by simp)
    (by omega) ?_
  intro k hk c _
  obtain rfl | rfl : k = 0 ∨ k = 1 := by omega
  · exact ⟨pingAt () 6, by simp, rfl, by decide⟩
  · exact ⟨pingAt () 70, by simp, rfl, by decide⟩

/-- Both computers report in the first hour, and one of them is not pushed. -/
theorem secondComputer_not_pushed :
    (∀ c : Bool, ∃ item ∈ [pingAt true 6, pingAt false 7],
        item.computer = c ∧ BetweenDeadlines 0 0 item) ∧
      ¬ ∀ c : Bool, ∃ item ∈ ((run (step (fun _ _ => none))
          (start 0 (fun c => RmsComputer.create (if c then 1 else 2)) freshConn)
          [pingAt true 6, pingAt false 7]).get (by rfl)).pushed,
        item.computer = c ∧ BetweenDeadlines 0 0 item := by
  decide

end Ingestor
