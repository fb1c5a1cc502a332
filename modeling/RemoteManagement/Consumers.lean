import RemoteManagement.SysReporter
import RemoteManagement.RmsConfig
import RemoteManagement.Library.GuardedRun
import RemoteManagement.Library.Spacing

/-!
# The consumers

A consumer reports, puts the report in the queue of the request client and sleeps
for its timeout, a second at a time, until it is stopped. The clock counts seconds
and goes on at any moment, and a sleep lasts a second or more. Other threads take
the mutex of the request client and give it back. The consumers differ in their
reporters, of which only that of the CPU sleeps, and in the key of their timeout.
-/

namespace Consumers

open ThriftTypes DecimalText GuardedRun RmsConfig Spacing

def timeoutKey : String := "timeout"

def pingTimeoutKey : String := "ping_timeout"

/-- The pings have no reporter. -/
inductive Reporter where
  | cpu (coreCount : Int)
  | ram
  | none
  deriving DecidableEq, Repr

/-- How long `report` sleeps between its two looks at the counters. -/
def Reporter.seconds : Reporter → Nat
  | .cpu _ => 1
  | .ram | .none => 0

structure Consumer where
  reporter : Reporter
  timeout : Int
  deriving DecidableEq, Repr

def Consumer.dataType (c : Consumer) : RmsRequestTypes :=
  match c.reporter with
  | .cpu _ => .kCpuUsage
  | .ram => .kRamUsage
  | .none => .kPing

/-- A constructor; the long is stored in an int. -/
def consumer (reporter : Reporter) (key : String) (config : Config) :
    Except StdException Consumer :=
  (findLong config key).map (fun n => ⟨reporter, toInt32 n⟩)

def cpuConsumer (coreCount : Int) (config : Config) : Except StdException Consumer :=
  consumer (.cpu coreCount) timeoutKey config

def ramConsumer (config : Config) : Except StdException Consumer :=
  consumer .ram timeoutKey config

def pingConsumer (config : Config) : Except StdException Consumer :=
  consumer .none pingTimeoutKey config

/-- The constructor of RmsReporterClient. The report of the system comes first, and
may need more turns of its loops than there are. -/
def rmsReporterClient (fuel : Nat) (junk : SysReporter.Junk) (machine : SysReporter.Machine)
    (config : Config) : Option (Except StdException (List Consumer)) := do
  let sysInfo ← SysReporter.report fuel junk machine
  return do
    let cpu ← cpuConsumer (sysInfo.cpuInfo.cpuCores * 2) config
    let ram ← ramConsumer config
    let ping ← pingConsumer config
    return [cpu, ram, ping]

/-- `consume`; `sendRequest` is locking, pushing and releasing. -/
inductive Pc where
  | idle
  | loopTest
  | reporting (wakes : Nat)
  | locking (req : RmsRequest)
  | pushing (req : RmsRequest)
  | releasing
  | sleepTest (i : Int)
  | sleeping (i : Int) (wakes : Nat)
  | finished
  deriving DecidableEq

inductive Owner where
  | consumer
  | others
  deriving DecidableEq

/-- The requests sent so far stand with the times at which they were put in the
queue. -/
structure State where
  isConsuming : Bool := false
  pc : Pc := .idle
  mtx : Option Owner := none
  clock : Nat := 0
  sent : List (Nat × RmsRequest) := []
  deriving DecidableEq

inductive Event where
  | start
  | stop
  | second
  | lock
  | unlock
  | report (values : RmsRequestValues) (timestamp : Int)
  | thread
  deriving DecidableEq

def request (c : Consumer) (values : RmsRequestValues) (timestamp : Int) : RmsRequest where
  header := { timestamp := timestamp, dataCount := 1 }
  data := [{ dataType := c.dataType, data := values }]

/-- `consume`, but for the end of the report. -/
def consume (c : Consumer) (s : State) : Option State :=
  match s.pc with
  | .loopTest =>
    some { s with
      pc := if s.isConsuming then .reporting (s.clock + c.reporter.seconds) else .finished }
  | .locking req =>
    if s.mtx = none then some { s with mtx := some .consumer, pc := .pushing req } else none
  | .pushing req =>
    some { s with sent := s.sent ++ [(s.clock, req)], mtx := none, pc := .releasing }
  | .releasing => some { s with pc := .sleepTest 0 }
  | .sleepTest i =>
    some { s with
      pc := if i < c.timeout ∧ s.isConsuming then .sleeping i (s.clock + 1) else .loopTest }
  | .sleeping i wakes => if wakes ≤ s.clock then some { s with pc := .sleepTest (i + 1) } else none
  | .idle | .reporting _ | .finished => none

def step (c : Consumer) (s : State) : Event → Option State
  | .start =>
    match s.pc with
    | .idle => some { s with isConsuming := true, pc := .loopTest }
    | _ => none
  | .stop => some { s with isConsuming := false }
  | .second => some { s with clock := s.clock + 1 }
  | .lock => if s.mtx = none then some { s with mtx := some .others } else none
  | .unlock => if s.mtx = some .others then some { s with mtx := none } else none
  | .report values timestamp =>
    match s.pc with
    | .reporting wakes =>
      if wakes ≤ s.clock then some { s with pc := .locking (request c values timestamp) } else none
    | _ => none
  | .thread => consume c s

variable {c : Consumer}

section Pace

def State.times (s : State) : List Nat := s.sent.map Prod.fst

/-- At least so much time has gone by since the last request. -/
def Since (s : State) (n : Int) (now : Nat) : Prop := ∀ last ∈ s.times.getLast?, last + n ≤ now

/-- The time between two requests. -/
def Consumer.period (c : Consumer) : Nat := c.timeout.toNat + c.reporter.seconds

/-- What the place of the thread says about the last request. -/
def Paces (c : Consumer) (s : State) : Prop :=
  match s.pc with
  | .idle => s.sent = []
  | .loopTest => s.isConsuming = true → Since s c.timeout.toNat s.clock
  | .reporting wakes => Since s c.period wakes
  | .locking _ | .pushing _ => Since s c.period s.clock
  | .sleepTest i => 0 ≤ i ∧ Since s i s.clock
  | .sleeping i wakes => 0 ≤ i ∧ Since s (i + 1) wakes
  | .releasing | .finished => True

/-- A request that a consumer makes. -/
def Made (c : Consumer) (req : RmsRequest) : Prop :=
  ∃ values timestamp, req = request c values timestamp

/-- The request that is on its way to the queue. -/
def Pc.carried : Pc → Option RmsRequest
  | .locking req | .pushing req => some req
  | .idle | .loopTest | .reporting _ | .releasing | .sleepTest _ | .sleeping _ _ | .finished => none

structure Paced (c : Consumer) (s : State) : Prop where
  spaced : Spaced c.period s.times
  past : Since s 0 s.clock
  paces : Paces c s
  made : ∀ r ∈ s.sent, Made c r.2
  making : ∀ req ∈ s.pc.carried, Made c req

theorem Since.mono {s t : State} (same : t.sent = s.sent) {n m : Int} {now later : Nat}
    (h : Since s n now) (le : m - n ≤ later - now) : Since t m later := by
  intro last hl
  rw [State.times, same] at hl
  have := h last hl
  omega

theorem paced_start (c : Consumer) : Paced c {} :=
  ⟨spaced_nil, nofun, rfl, by simp, by simp [Pc.carried]⟩

theorem Paced.stop {s : State} (h : Paced c s) : Paced c { s with isConsuming := false } := by
  obtain ⟨spaced, past, paces, made, making⟩ := h
  refine ⟨spaced, past, ?_, made, making⟩
  unfold Paces at paces ⊢
  cases here : s.pc with
  | loopTest => exact fun on => absurd on (by simp)
  | _ =>
    rw [here] at paces
    exact paces

theorem Paced.lock {s : State} (h : Paced c s) (mtx : Option Owner) :
    Paced c { s with mtx := mtx } := by
  obtain ⟨spaced, past, paces, made, making⟩ := h
  exact ⟨spaced, past, paces, made, making⟩

theorem Paced.second {s : State} (h : Paced c s) : Paced c { s with clock := s.clock + 1 } := by
  obtain ⟨spaced, past, paces, made, making⟩ := h
  have later {n : Int} (since : Since s n s.clock) :
      Since { s with clock := s.clock + 1 } n (s.clock + 1) := since.mono rfl (by omega)
  refine ⟨spaced, later past, ?_, made, making⟩
  unfold Paces at paces ⊢
  cases here : s.pc with
  | loopTest =>
    rw [here] at paces
    exact fun on => later (paces on)
  | locking req | pushing req =>
    rw [here] at paces
    exact later paces
  | sleepTest i =>
    rw [here] at paces
    exact ⟨paces.1, later paces.2⟩
  | _ =>
    rw [here] at paces
    exact paces

theorem consume_paced {s t : State} (hs : Paced c s) (h : consume c s = some t) : Paced c t := by
  obtain ⟨spaced, past, paces, made, making⟩ := hs
  unfold Paces at paces
  unfold consume at h
  cases here : s.pc with
  | idle | reporting | finished =>
    rw [here] at h
    cases h
  | loopTest =>
    rw [here] at h paces
    cases h
    by_cases on : s.isConsuming = true
    · simp only [if_pos on]
      refine ⟨spaced, past, (paces on).mono rfl ?_, made, by simp [Pc.carried]⟩
      rw [Consumer.period]
      push_cast
      omega
    · simp only [if_neg on]
      exact ⟨spaced, past, trivial, made, by simp [Pc.carried]⟩
  | locking req =>
    rw [here] at h paces making
    rw [Option.ite_none_right_eq_some] at h
    obtain ⟨-, h⟩ := h
    cases h
    exact ⟨spaced, past, paces, made, making⟩
  | pushing req =>
    rw [here] at h paces making
    cases h
    have apart : ∀ last ∈ s.times.getLast?, last + c.period ≤ s.clock := by
      intro last hl
      have := paces last hl
      omega
    have now : Since { s with
        sent := s.sent ++ [(s.clock, req)], mtx := none, pc := .releasing } 0 s.clock := by
      simp [Since, State.times]
    refine ⟨?_, now, trivial, ?_, by simp [Pc.carried]⟩
    · simpa [State.times] using spaced.concat apart
    · intro r hr
      rcases List.mem_append.mp hr with old | new
      · exact made r old
      · rw [List.mem_singleton.mp new]
        exact making req rfl
  | releasing =>
    rw [here] at h
    cases h
    exact ⟨spaced, past, ⟨le_rfl, past⟩, made, by simp [Pc.carried]⟩
  | sleepTest i =>
    rw [here] at h paces
    cases h
    obtain ⟨nonneg, since⟩ := paces
    by_cases on : i < c.timeout ∧ s.isConsuming = true
    · simp only [if_pos on]
      refine ⟨spaced, past, ⟨nonneg, ?_⟩, made, by simp [Pc.carried]⟩
      exact since.mono rfl (by push_cast; omega)
    · simp only [if_neg on]
      refine ⟨spaced, past, fun consuming => ?_, made, by simp [Pc.carried]⟩
      have slept : c.timeout ≤ i := by
        by_contra more
        exact on ⟨by omega, consuming⟩
      exact since.mono rfl (by dsimp only; omega)
  | sleeping i wakes =>
    rw [here] at h paces
    rw [Option.ite_none_right_eq_some] at h
    obtain ⟨awake, h⟩ := h
    cases h
    obtain ⟨nonneg, since⟩ := paces
    exact ⟨spaced, past, ⟨by omega, since.mono rfl (by dsimp only; omega)⟩, made,
      by simp [Pc.carried]⟩

theorem report_eq {s t : State} {values : RmsRequestValues} {timestamp : Int}
    (h : step c s (.report values timestamp) = some t) :
    ∃ wakes, s.pc = .reporting wakes ∧ wakes ≤ s.clock ∧
      t = { s with pc := .locking (request c values timestamp) } := by
  simp only [step] at h
  split at h
  · rename_i wakes here
    rw [Option.ite_none_right_eq_some, Option.some.injEq] at h
    exact ⟨wakes, here, h.1, h.2.symm⟩
  · cases h

theorem step_paced (s : State) (e : Event) (t : State) (hs : Paced c s)
    (h : step c s e = some t) : Paced c t := by
  cases e with
  | start =>
    obtain ⟨spaced, past, paces, made, making⟩ := hs
    simp only [step] at h
    split at h
    · rename_i idle
      cases h
      have none : s.sent = [] := by simpa [Paces, idle] using paces
      refine ⟨spaced, past, fun _ => ?_, made, by simp [Pc.carried]⟩
      simp [Since, State.times, none]
    · cases h
  | stop =>
    cases h
    exact hs.stop
  | second =>
    cases h
    exact hs.second
  | lock | unlock =>
    rw [step, Option.ite_none_right_eq_some, Option.some.injEq] at h
    exact h.2 ▸ hs.lock _
  | report values timestamp =>
    obtain ⟨wakes, here, awake, rfl⟩ := report_eq h
    obtain ⟨spaced, past, paces, made, making⟩ := hs
    simp only [Paces, here] at paces
    refine ⟨spaced, past, paces.mono rfl (by dsimp only; omega), made, ?_⟩
    rintro req ⟨⟩
    exact ⟨values, timestamp, rfl⟩
  | thread => exact consume_paced hs h

theorem run_paced {es : List Event} {s : State} (arrives : run (step c) {} es = some s) :
    Paced c s := run_preserves step_paced (paced_start c) arrives

theorem Paced.length_le {s : State} (paced : Paced c s) :
    (s.sent.length - 1) * c.period ≤ s.clock := by
  have bound := paced.spaced.length_le fun last hl => by simpa using paced.past last hl
  simpa [State.times] using bound

/-- In every run, stopped or not, two requests are at least the timeout apart,
and each has one item of the consumer's own kind and says so. -/
theorem run_spaced {es : List Event} {s : State} (arrives : run (step c) {} es = some s) :
    Spaced c.timeout.toNat s.times ∧
      (s.sent.length - 1) * c.timeout.toNat ≤ s.clock ∧
      ∀ r ∈ s.sent, r.2.header.dataCount = r.2.data.length ∧
        ∃ values, r.2.data = [⟨c.dataType, values⟩] := by
  have paced := run_paced arrives
  have le : c.timeout.toNat ≤ c.period := Nat.le_add_right _ _
  refine ⟨paced.spaced.mono le, (Nat.mul_le_mul_left _ le).trans paced.length_le,
    fun r hr => ?_⟩
  obtain ⟨values, timestamp, made⟩ := paced.made r hr
  rw [made]
  exact ⟨rfl, values, rfl⟩

/-- Two requests, two seconds apart. -/
def twoRequests : List Event :=
  [.start, .thread, .report {} 0, .lock, .unlock, .thread, .thread, .thread, .thread, .second,
    .thread, .thread, .second, .thread, .thread, .thread, .report {} 2, .thread, .thread]

theorem run_spaced_twoRequests :
    let c : Consumer := ⟨.none, 2⟩
    let s := (run (step c) {} twoRequests).get (by decide)
    s.times = [0, 2] ∧ Spaced c.timeout.toNat s.times ∧
      (s.sent.length - 1) * c.timeout.toNat ≤ s.clock ∧
      ∀ r ∈ s.sent, r.2.header.dataCount = r.2.data.length ∧
        ∃ values, r.2.data = [⟨c.dataType, values⟩] :=
  ⟨by decide, run_spaced (Option.some_get _).symm⟩

end Pace

section Flood

/-- One turn of the loop without a sleep. -/
def turn (values : RmsRequestValues) (timestamp : Int) : List Event :=
  [.thread, .report values timestamp, .thread, .thread, .thread, .thread]

theorem run_turn (never : c.timeout ≤ 0) (awake : c.reporter.seconds = 0)
    (values : RmsRequestValues) (timestamp : Int) (sent : List (Nat × RmsRequest)) :
    run (step c) ⟨true, .loopTest, none, 0, sent⟩ (turn values timestamp) =
      some ⟨true, .loopTest, none, 0, sent ++ [(0, request c values timestamp)]⟩ := by
  have done : ¬ (0 : Int) < c.timeout := by omega
  simp [turn, run, step, consume, done, awake]

/-- A consumer that does not sleep sends any number of requests in no time. -/
theorem floods (never : c.timeout ≤ 0) (awake : c.reporter.seconds = 0) (n : Nat)
    (sent : List (Nat × RmsRequest)) :
    ∃ es s, run (step c) ⟨true, .loopTest, none, 0, sent⟩ es = some s ∧ s.clock = 0 ∧
      s.sent.length = sent.length + n := by
  induction n generalizing sent with
  | zero => exact ⟨[], _, rfl, rfl, rfl⟩
  | succ n ih =>
    obtain ⟨es, s, rest, clock, count⟩ := ih (sent ++ [(0, request c {} 0)])
    refine ⟨turn {} 0 ++ es, s, ?_, clock, ?_⟩
    · rw [run_append, run_turn never awake, Option.bind_some, rest]
    · rw [count, List.length_append, List.length_singleton]
      omega

/-- The time that goes by bounds the number of the requests. -/
def Bounded (c : Consumer) : Prop :=
  ∃ bound : Nat → Nat, ∀ es s, run (step c) {} es = some s → s.sent.length ≤ bound s.clock

/-- The requests are bounded exactly if there is a sleep in the loop, that of the
timeout or that of the report. -/
theorem bounded_iff : Bounded c ↔ 0 < c.timeout ∨ 0 < c.reporter.seconds := by
  constructor
  · rintro ⟨bound, all⟩
    by_contra never
    rw [not_or, not_lt, not_lt, Nat.le_zero] at never
    obtain ⟨es, s, rest, clock, count⟩ := floods never.1 never.2 (bound 0 + 1) []
    have arrives : run (step c) {} (.start :: es) = some s := rest
    have few := all _ s arrives
    rw [clock, count, List.length_nil] at few
    omega
  · intro sleeps
    refine ⟨fun clock => clock + 1, fun es s arrives => ?_⟩
    have one : 1 ≤ c.period := by
      rw [Consumer.period]
      omega
    have few := (Nat.le_mul_of_pos_right _ one).trans (run_paced arrives).length_le
    exact Nat.sub_le_iff_le_add.mp few

theorem rmsReporterClient_eq {fuel : Nat} {junk : SysReporter.Junk}
    {machine : SysReporter.Machine} {config : Config} {cs : List Consumer} :
    rmsReporterClient fuel junk machine config = some (.ok cs) ↔
      ∃ sysInfo n m, SysReporter.report fuel junk machine = some sysInfo ∧
        findLong config timeoutKey = .ok n ∧ findLong config pingTimeoutKey = .ok m ∧
        cs = [⟨.cpu (sysInfo.cpuInfo.cpuCores * 2), toInt32 n⟩, ⟨.ram, toInt32 n⟩,
          ⟨.none, toInt32 m⟩] := by
  rw [rmsReporterClient]
  cases SysReporter.report fuel junk machine with
  | none => simp
  | some sysInfo =>
    simp only [Option.bind_eq_bind, Option.bind_some, Option.pure_def, Option.some.injEq,
      cpuConsumer, ramConsumer, pingConsumer, consumer]
    cases findLong config timeoutKey with
    | error e => simp [bind, Except.bind, Except.map]
    | ok n =>
      cases findLong config pingTimeoutKey with
      | error e => simp [bind, Except.bind, Except.map]
      | ok m => simp [bind, Except.bind, Except.map, pure, Except.pure, eq_comm]

/-- A reporter that pings once a minute. -/
def everyMinute : Config := replace (replace (fun _ => "") timeoutKey "10") pingTimeoutKey "60"

end Flood

section Stopping

/-- The steps of the thread, with the end of the report. -/
def Event.ofThread : Event → Bool
  | .report _ _ | .thread => true
  | .start | .stop | .second | .lock | .unlock => false

/-- The steps a stopped thread has before its end. -/
def rank : Pc → Nat
  | .idle => 7
  | .reporting _ => 6
  | .locking _ => 5
  | .pushing _ => 4
  | .releasing | .sleeping _ _ => 3
  | .sleepTest _ => 2
  | .loopTest => 1
  | .finished => 0

/-- The requests a stopped thread still sends. -/
def pending : Pc → Nat
  | .reporting _ | .locking _ | .pushing _ => 1
  | .idle | .loopTest | .releasing | .sleepTest _ | .sleeping _ _ | .finished => 0

def sleepsUntil : Pc → Nat
  | .reporting wakes | .sleeping _ wakes => wakes
  | .idle | .loopTest | .locking _ | .pushing _ | .releasing | .sleepTest _ | .finished => 0

/-- A sleep that has begun is over in a second, and the mutex is the consumer's
only while it pushes. -/
structure Settled (s : State) : Prop where
  sleeps : sleepsUntil s.pc ≤ s.clock + 1
  holds : s.mtx = some .consumer → ∃ req, s.pc = .pushing req

theorem consume_settled {s t : State} (hs : Settled s) (h : consume c s = some t) :
    Settled t := by
  obtain ⟨sleeps, holds⟩ := hs
  have second : c.reporter.seconds ≤ 1 := by
    cases c.reporter <;> simp [Reporter.seconds]
  unfold consume at h
  cases here : s.pc with
  | idle | reporting | finished =>
    rw [here] at h
    cases h
  | loopTest | sleepTest i =>
    rw [here] at h holds
    cases h
    refine ⟨?_, fun own => by simpa using holds own⟩
    dsimp only
    split
    · simp only [sleepsUntil]
      omega
    · exact Nat.zero_le _
  | locking req =>
    rw [here, Option.ite_none_right_eq_some] at h
    cases h.2
    exact ⟨Nat.zero_le _, fun _ => ⟨req, rfl⟩⟩
  | pushing req =>
    rw [here] at h
    cases h
    exact ⟨Nat.zero_le _, by simp⟩
  | releasing =>
    rw [here] at h holds
    cases h
    exact ⟨Nat.zero_le _, fun own => by simpa using holds own⟩
  | sleeping i wakes =>
    rw [here, Option.ite_none_right_eq_some] at h
    rw [here] at holds
    cases h.2
    exact ⟨Nat.zero_le _, fun own => by simpa using holds own⟩

theorem step_settled (s : State) (e : Event) (t : State) (hs : Settled s)
    (h : step c s e = some t) : Settled t := by
  cases e with
  | start =>
    simp only [step] at h
    split at h
    · rename_i idle
      cases h
      exact ⟨Nat.zero_le _, fun own => by simpa [idle] using hs.holds own⟩
    · cases h
  | stop =>
    cases h
    exact ⟨hs.sleeps, hs.holds⟩
  | second =>
    cases h
    exact ⟨Nat.le_succ_of_le hs.sleeps, hs.holds⟩
  | lock | unlock =>
    rw [step, Option.ite_none_right_eq_some, Option.some.injEq] at h
    exact h.2 ▸ ⟨hs.sleeps, by simp⟩
  | report values timestamp =>
    obtain ⟨wakes, here, -, rfl⟩ := report_eq h
    exact ⟨Nat.zero_le _, fun own => by simpa [here] using hs.holds own⟩
  | thread => exact consume_settled hs h

/-- What is left of the steps, requests and sleeps after the stop. -/
structure Stopping (s t : State) (steps : Nat) : Prop where
  off : t.isConsuming = false
  started : t.pc ≠ .idle
  steps : rank t.pc + steps ≤ rank s.pc
  requests : t.sent.length + pending t.pc ≤ s.sent.length + pending s.pc
  sleeps : sleepsUntil t.pc ≤ sleepsUntil s.pc

theorem step_stopping {s u t : State} {steps : Nat} {e : Event} (h : Stopping s u steps)
    (moves : step c u e = some t) : Stopping s t (steps + if e.ofThread then 1 else 0) := by
  obtain ⟨off, started, left, requests, sleeps⟩ := h
  cases e with
  | start =>
    simp only [step] at moves
    cases moves
  | stop =>
    cases moves
    exact ⟨rfl, started, left, requests, sleeps⟩
  | second =>
    cases moves
    exact ⟨off, started, left, requests, sleeps⟩
  | lock | unlock =>
    rw [step, Option.ite_none_right_eq_some, Option.some.injEq] at moves
    exact moves.2 ▸ ⟨off, started, left, requests, sleeps⟩
  | report values timestamp =>
    obtain ⟨wakes, here, -, rfl⟩ := report_eq moves
    rw [here] at left requests
    exact ⟨off, by simp, by simp [rank, Event.ofThread] at left ⊢; omega, requests,
      Nat.zero_le _⟩
  | thread =>
    simp only [step, consume, off] at moves
    cases here : u.pc with
    | idle => exact absurd here started
    | reporting | finished =>
      rw [here] at moves
      cases moves
    | loopTest | releasing =>
      rw [here] at moves left requests
      cases moves
      exact ⟨rfl, by simp, by simp [rank, Event.ofThread] at left ⊢; omega, requests,
        Nat.zero_le _⟩
    | locking req =>
      rw [here] at moves left requests
      rw [Option.ite_none_right_eq_some] at moves
      cases moves.2
      exact ⟨rfl, by simp, by simp [rank, Event.ofThread] at left ⊢; omega, requests,
        Nat.zero_le _⟩
    | pushing req =>
      rw [here] at moves left requests
      cases moves
      refine ⟨rfl, by simp, by simp [rank, Event.ofThread] at left ⊢; omega, ?_, Nat.zero_le _⟩
      simpa [pending] using requests
    | sleepTest i =>
      rw [here] at moves left requests
      cases moves
      refine ⟨rfl, by simp, by simp [rank, Event.ofThread] at left ⊢; omega, ?_, ?_⟩
      · simpa [pending] using requests
      · simp [sleepsUntil]
    | sleeping i wakes =>
      rw [here] at moves left requests
      rw [Option.ite_none_right_eq_some] at moves
      cases moves.2
      exact ⟨rfl, by simp, by simp [rank, Event.ofThread] at left ⊢; omega, requests,
        Nat.zero_le _⟩

theorem run_stopping {s u t : State} {steps : Nat} {fs : List Event} (h : Stopping s u steps)
    (goes : run (step c) u fs = some t) : Stopping s t (steps + fs.countP Event.ofThread) := by
  induction fs generalizing u steps with
  | nil => exact Option.some.inj goes ▸ h
  | cons e fs ih =>
    obtain ⟨v, first, rest⟩ := Option.bind_eq_some_iff.mp goes
    have all := ih (step_stopping h first) rest
    rw [List.countP_cons, Nat.add_comm (fs.countP _), ← Nat.add_assoc]
    exact all

/-- Another thread has the mutex that the thread needs next. -/
def WaitsForMutex (s : State) : Prop := (∃ req, s.pc = .locking req) ∧ s.mtx = some .others

/-- Once stopped, a consumer sends at most one more request and ends after at
most six more steps. Once a second has gone by, it waits for nothing but the mutex. -/
theorem stopped_run {es fs : List Event} {s t : State} (arrives : run (step c) {} es = some s)
    (started : s.pc ≠ .idle) (off : s.isConsuming = false) (goes : run (step c) s fs = some t) :
    t.sent.length ≤ s.sent.length + 1 ∧ fs.countP Event.ofThread ≤ 6 ∧
      (s.clock + 1 ≤ t.clock →
        t.pc = .finished ∨ WaitsForMutex t ∨ ∃ e, e.ofThread ∧ (step c t e).isSome) := by
  have before : Stopping s s 0 := ⟨off, started, le_rfl, le_rfl, le_rfl⟩
  obtain ⟨off', started', steps, requests, sleeps⟩ := run_stopping before goes
  have settled : Settled s := run_preserves step_settled ⟨Nat.zero_le _, by simp⟩ arrives
  have settled' : Settled t := run_preserves step_settled settled goes
  have wakes := settled.sleeps
  have most : rank s.pc ≤ 6 := by
    cases here : s.pc <;> simp_all [rank]
  have one : pending s.pc ≤ 1 := by
    cases s.pc <;> simp [pending]
  refine ⟨by omega, by omega, fun later => ?_⟩
  have awake : sleepsUntil t.pc ≤ t.clock := by omega
  cases here : t.pc with
  | idle => exact absurd here started'
  | finished => exact Or.inl rfl
  | reporting w =>
    rw [here, sleepsUntil] at awake
    exact Or.inr (Or.inr ⟨.report {} 0, rfl, by simp [step, here, awake]⟩)
  | sleeping i w =>
    rw [here, sleepsUntil] at awake
    exact Or.inr (Or.inr ⟨.thread, rfl, by simp [step, consume, here, awake]⟩)
  | locking req =>
    refine Or.inr ?_
    cases held : t.mtx with
    | none => exact Or.inr ⟨.thread, rfl, by simp [step, consume, here, held]⟩
    | some owner =>
      cases owner with
      | others => exact Or.inl ⟨⟨req, here⟩, held⟩
      | consumer =>
        obtain ⟨req', pushing⟩ := settled'.holds held
        simp [here] at pushing
  | loopTest | pushing req | releasing | sleepTest i =>
    exact Or.inr (Or.inr ⟨.thread, rfl, by simp [step, consume, here]⟩)

/-- It is stopped while it reports, and finds the mutex taken. -/
theorem stopped_run_reporting :
    let c : Consumer := ⟨.cpu 8, 60⟩
    let s := (run (step c) {} [.start, .thread, .stop]).get (by decide)
    let fs : List Event := [.second, .lock, .report {} 0, .unlock, .thread, .thread, .thread,
      .thread, .thread]
    let t := (run (step c) s fs).get (by decide)
    t.sent.length ≤ s.sent.length + 1 ∧ fs.countP Event.ofThread ≤ 6 ∧
      (s.clock + 1 ≤ t.clock →
        t.pc = .finished ∨ WaitsForMutex t ∨ ∃ e, e.ofThread ∧ (step c t e).isSome) :=
  stopped_run (Option.some_get _).symm (by decide) (by decide) (Option.some_get _).symm

end Stopping

end Consumers
