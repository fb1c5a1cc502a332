import RemoteManagement.Ingestor

/-!
# The ticks of pushes

The ingestor is called with any computers and clocks. Each push moves its
deadline on by an hour and its tick by one, so the number of pushes so far says
where both are, as soon as the hour of the first one is known.
-/

namespace PushTicks

open ThriftTypes SqlStatements ExecuteQuery Database QueryProgram Program GuardedRun
open Computer Ingestor

/-- A call of `ingestRequestData`, with the clocks when it is made. -/
structure Call where
  clock : Clock
  data : RmsRequestData
  computer : Option RmsComputer

/-- The call that pushes, its clocks and the tick that it passes. -/
structure Push where
  call : Nat
  clock : Clock
  tick : Int

/-- `calls` counts the calls that have been made. -/
structure State where
  ingestor : DbRequestIngestor
  conn : Connection
  calls : Nat := 0
  pushes : List Push := []

def start (boot : Int) (conn : Connection) : State := { ingestor := .create boot, conn := conn }

def step (misread : List Char → Db → Option Outcome) (s : State) (c : Call) : Option State :=
  let (ingested, conn) :=
    (ingestRequestData c.clock c.data s.ingestor c.computer).run (answer misread) s.conn
  ingested.map (fun out => ⟨out.ingestor, conn, s.calls + 1,
    s.pushes ++ out.pushedTick.toList.map (fun tick => ⟨s.calls, c.clock, tick⟩)⟩)

/-- The hour of the local time. -/
def HourOfDay (c : Call) : Prop := 0 ≤ c.clock.hour ∧ c.clock.hour < 24

instance (c : Call) : Decidable (HourOfDay c) := inferInstanceAs (Decidable (_ ∧ _))

/-- The push comes later than as many hours after the first deadline, and its
tick is as many hours after the hour of the first push. -/
def Hourly (boot : Int) (pushes : List Push) (k : Nat) (p : Push) : Prop :=
  boot + minutes 5 + hours k < p.clock.now ∧
    ∃ first, pushes[0]? = some first ∧ p.tick = (first.clock.hour + k) % 24

/-- The tick of the next push, which is not known before the first. -/
def tickAfter (pushes : List Push) : Int :=
  match pushes[0]? with
  | none => -1
  | some first => (first.clock.hour + pushes.length) % 24

/-- What every run keeps of the ingestor and its pushes. -/
structure Counted (boot : Int) (s : State) : Prop where
  deadline : s.ingestor.nextUsagePush = boot + minutes 5 + hours s.pushes.length
  tick : s.ingestor.tick = tickAfter s.pushes
  increasing : (s.pushes.map Push.call).Pairwise (· < ·)
  made : ∀ p ∈ s.pushes, p.call < s.calls
  hourly : ∀ k p, s.pushes[k]? = some p → Hourly boot s.pushes k p

section Runs

variable (misread : List Char → Db → Option Outcome)

theorem step_pushes {s s' : State} {c : Call} (h : step misread s c = some s') :
    s'.ingestor = (s.ingestor.usagePush c.clock).1 ∧ s'.calls = s.calls + 1 ∧
      s'.pushes = s.pushes ++ (s.ingestor.usagePush c.clock).2.toList.map
        (fun tick => ⟨s.calls, c.clock, tick⟩) := by
  obtain ⟨out, ingested, rfl⟩ := Option.map_eq_some_iff.mp h
  have looks := run_returns (answer misread)
    (ingestRequestData_looks c.clock c.data s.ingestor c.computer) s.conn out ingested
  rw [← looks]
  exact ⟨rfl, rfl, rfl⟩

/-- With its computer a call is made whatever the database answers. -/
theorem step_returns (s : State) {c : Call} (computer : c.computer.isSome) :
    ∃ s', step misread s c = some s' := by
  obtain ⟨computer, given⟩ := Option.isSome_iff_exists.mp computer
  have ingested :=
    ingestRequestData_returns (answer misread) c.clock c.data s.ingestor computer s.conn
  rw [← given] at ingested
  exact ⟨_, Option.map_eq_some_iff.mpr ⟨_, ingested, rfl⟩⟩

theorem hours_succ (n : Nat) : hours ((n + 1 : Nat) : Int) = hours n + hours 1 := by
  rw [hours, hours, hours, minutes, minutes, minutes]
  omega

/-- The pushes before keep their places, and the new one has the next. -/
theorem counted_push {boot : Int} {s s' : State} (counted : Counted boot s) {p first : Push}
    (call : p.call = s.calls) (late : s.ingestor.nextUsagePush < p.clock.now)
    (head : (s.pushes ++ [p])[0]? = some first)
    (own : p.tick = (first.clock.hour + s.pushes.length) % 24)
    (ingestor : s'.ingestor = ⟨(p.tick + 1) % 24, s.ingestor.nextUsagePush + hours 1⟩)
    (calls : s'.calls = s.calls + 1) (pushes : s'.pushes = s.pushes ++ [p]) : Counted boot s' where
  deadline := by
    rw [ingestor, pushes, List.length_append, List.length_singleton, hours_succ, counted.deadline]
    dsimp only
    omega
  tick := by
    rw [ingestor, pushes, tickAfter, head, List.length_append, List.length_singleton]
    dsimp only
    omega
  increasing := by
    rw [pushes, List.map_append, List.pairwise_append]
    refine ⟨counted.increasing, by simp, ?_⟩
    simp only [List.map_cons, List.map_nil, List.mem_singleton, List.forall_mem_map, forall_eq,
      call]
    exact counted.made
  made := by
    rw [pushes, calls, List.forall_mem_append]
    refine ⟨fun q hq => (counted.made q hq).trans (Nat.lt_succ_self _), ?_⟩
    simp [call]
  hourly := by
    intro k q hq
    rw [pushes] at hq ⊢
    rcases Nat.lt_or_ge k s.pushes.length with before | last
    · rw [List.getElem?_append_left before] at hq
      obtain ⟨after, first', head', tick⟩ := counted.hourly k q hq
      exact ⟨after, first', by rwa [List.getElem?_append_left (by omega)], tick⟩
    · rw [List.getElem?_append_right last] at hq
      obtain ⟨place, rfl⟩ := List.getElem?_eq_some_iff.mp hq
      obtain rfl : k = s.pushes.length := by
        rw [List.length_singleton] at place
        omega
      rw [List.getElem_singleton]
      exact ⟨counted.deadline ▸ late, first, head, own⟩

theorem step_counted (boot : Int) (s : State) (c : Call) (s' : State) (counted : Counted boot s)
    (hour : HourOfDay c) (h : step misread s c = some s') : Counted boot s' := by
  obtain ⟨ingestor, calls, pushes⟩ := step_pushes misread h
  by_cases late : s.ingestor.nextUsagePush < c.clock.now
  · -- the hour of the first push, which can be this one
    obtain ⟨first, t, head, own, tick⟩ : ∃ (first : Push) (t : Int),
        (s.pushes ++ [⟨s.calls, c.clock, t⟩])[0]? = some first ∧
          t = (first.clock.hour + s.pushes.length) % 24 ∧
          (s.ingestor.tick = -1 ∧ c.clock.hour = t ∨ s.ingestor.tick = t) := by
      have tick := counted.tick
      cases known : s.pushes with
      | nil =>
        rw [known] at tick
        refine ⟨⟨s.calls, c.clock, c.clock.hour⟩, c.clock.hour, rfl, ?_, Or.inl ⟨tick, rfl⟩⟩
        exact (Int.emod_eq_of_lt (by simpa using hour.1) (by simpa using hour.2)).symm.trans
          (by simp)
      | cons first rest =>
        rw [known] at tick
        exact ⟨first, (first.clock.hour + (first :: rest).length) % 24, rfl, rfl, Or.inr tick⟩
    rw [usagePush_due late tick (by omega) (by omega)] at ingestor pushes
    exact counted_push (p := ⟨s.calls, c.clock, t⟩) counted rfl late head own ingestor calls pushes
  · rw [usagePush_early late] at ingestor pushes
    have same : s'.pushes = s.pushes := by simpa using pushes
    constructor
    · rw [ingestor, same]
      exact counted.deadline
    · rw [ingestor, same]
      exact counted.tick
    · rw [same]
      exact counted.increasing
    · rw [same, calls]
      exact fun p hp => (counted.made p hp).trans (Nat.lt_succ_self _)
    · rw [same]
      exact counted.hourly

theorem counted_start (boot : Int) (conn : Connection) : Counted boot (start boot conn) where
  deadline := by simp [start, DbRequestIngestor.create, hours, minutes]
  tick := rfl
  increasing := List.Pairwise.nil
  made := by simp [start]
  hourly := by simp [start]

/-- A run returns if its calls have their computers. -/
theorem run_returns_of_computers (s : State) {calls : List Call}
    (computers : ∀ c ∈ calls, c.computer.isSome) : ∃ s', run (step misread) s calls = some s' := by
  induction calls generalizing s with
  | nil => exact ⟨s, rfl⟩
  | cons c calls ih =>
    rw [List.forall_mem_cons] at computers
    obtain ⟨s₁, first⟩ := step_returns misread s computers.1
    obtain ⟨s₂, rest⟩ := ih s₁ computers.2
    exact ⟨s₂, by rw [GuardedRun.run, first, Option.bind_some, rest]⟩

/-- In every run the pushes are made by different calls, each an hour later and
one tick on, and each tick has its column. -/
theorem pushes_hourly {boot : Int} {conn : Connection} {calls : List Call} {s : State}
    (hour : ∀ c ∈ calls, HourOfDay c)
    (arrives : run (step misread) (start boot conn) calls = some s) :
    (s.pushes.map Push.call).Pairwise (· < ·) ∧
      ∀ (k : Nat) (p : Push), s.pushes[k]? = some p →
        boot + minutes 5 + hours k < p.clock.now ∧
        (∃ first, s.pushes[0]? = some first ∧ p.tick = (first.clock.hour + k) % 24) ∧
        (tickColumn p.tick).isSome := by
  have counted : Counted boot s := run_invariant (step_counted misread boot)
    (counted_start boot conn) (guarded_of_forall hour) arrives
  refine ⟨counted.increasing, fun k p hp => ?_⟩
  obtain ⟨late, first, head, tick⟩ := counted.hourly k p hp
  refine ⟨late, ⟨first, head, tick⟩, ?_⟩
  rw [tickColumn, dif_pos ⟨by omega, by omega⟩]
  rfl

end Runs

/-- A ping so many minutes after boot at time zero, at an hour of the day. -/
def pingAtHour (minute hour : Int) : Call :=
  ⟨⟨minutes minute, hour, ⟨2022, 1, 1⟩⟩, ping, some (RmsComputer.create 1)⟩

/-- The first push is at eleven in the evening, the second after midnight. -/
theorem pushes_overnight :
    let s := (GuardedRun.run (step (fun _ _ => none)) (start 0 freshConn)
      [pingAtHour 6 23, pingAtHour 7 23, pingAtHour 70 0]).get (by rfl)
    s.pushes.map (fun p => (p.call, p.tick)) = [(0, 23), (2, 0)] ∧
      (s.pushes.map Push.call).Pairwise (· < ·) ∧
      ∀ (k : Nat) (p : Push), s.pushes[k]? = some p →
        0 + minutes 5 + hours k < p.clock.now ∧
        (∃ first, s.pushes[0]? = some first ∧ p.tick = (first.clock.hour + k) % 24) ∧
        (tickColumn p.tick).isSome :=
  ⟨by decide, pushes_hourly (fun _ _ => none) (by decide) (Option.some_get _).symm⟩

end PushTicks
