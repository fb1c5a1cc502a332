import RemoteManagement.Ingestor
import Mathlib.Data.Prod.Lex
import Mathlib.Order.Monotone.Basic

/-!
# The slots of pushes

A push is written into the slot of a date and a tick. The date is that of the
day of the push; the tick is the hour of the first push, counted on by one at
each later one. The local time counts nanoseconds from the midnight at which
some first day begins, and the steady clock is behind it by a fixed offset.
-/

namespace PushSlots

open ThriftTypes SqlStatements ExecuteQuery Database QueryProgram GuardedRun
open Computer Usage Ingestor PeriodicTrigger

section Calendar

def daysInMonth (year month : Int) : Int :=
  if month = 2 then
    if year % 4 = 0 ∧ (year % 100 ≠ 0 ∨ year % 400 = 0) then 29 else 28
  else if month = 4 ∨ month = 6 ∨ month = 9 ∨ month = 11 then 30
  else 31

def nextDay (d : Date) : Date :=
  if d.day < daysInMonth d.year d.month then { d with day := d.day + 1 }
  else if d.month < 12 then ⟨d.year, d.month + 1, 1⟩
  else ⟨d.year + 1, 1, 1⟩

def dayAfter (first : Date) : Nat → Date
  | 0 => first
  | n + 1 => nextDay (dayAfter first n)

/-- Dates in the order of the calendar. -/
def order (d : Date) : ℤ ×ₗ ℤ ×ₗ ℤ := toLex (d.year, toLex (d.month, d.day))

theorem order_nextDay (d : Date) : order d < order (nextDay d) := by
  rw [nextDay]
  split
  · simp [order, Prod.Lex.toLex_lt_toLex]
  · split
    · simp [order, Prod.Lex.toLex_lt_toLex]
    · simp [order, Prod.Lex.toLex_lt_toLex]

/-- No date comes twice. -/
theorem dayAfter_injective (first : Date) : Function.Injective (dayAfter first) := by
  have increasing : StrictMono (fun n => order (dayAfter first n)) :=
    strictMono_nat_of_lt_succ fun n => order_nextDay (dayAfter first n)
  intro m n same
  exact increasing.injective (congrArg order same)

end Calendar

structure Request (Computer : Type) where
  time : Nat
  data : RmsRequestData
  computer : Computer

variable {Computer : Type}

/-- The hours since the first day began. -/
def Request.hour (r : Request Computer) : Nat := r.time / 3600000000000

section Slots

variable (first : Date) (offset : Int)

def Request.clock (r : Request Computer) : Clock where
  now := r.time - offset
  hour := (r.hour % 24 : Nat)
  date := dayAfter first (r.hour / 24)

/-- The slot that a request pushes into is that of an hour at most one away
from the hour of the push. -/
def Near (p : Request Computer × Int) : Prop :=
  ∃ m : Nat, (m ≤ p.1.hour + 1 ∧ p.1.hour ≤ m + 1) ∧
    (p.1.clock first offset).date = dayAfter first (m / 24) ∧ p.2 = (m % 24 : Nat)

/-- Hours of the day that are the same or follow each other. -/
def Adjacent (a b : Nat) : Prop := a % 24 ≤ b % 24 + 1 ∧ b % 24 ≤ a % 24 + 1

instance (a b : Nat) : Decidable (Adjacent a b) := inferInstanceAs (Decidable (_ ∧ _))

theorem near_iff_adjacent (r : Request Computer) (h : Nat) :
    Near first offset (r, ((h % 24 : Nat) : Int)) ↔ Adjacent h r.hour := by
  constructor
  · rintro ⟨m, close, date, tick⟩
    have day : r.hour / 24 = m / 24 := dayAfter_injective first date
    have hour : h % 24 = m % 24 := Int.natCast_inj.mp tick
    rw [Adjacent]
    simp only at close
    omega
  · intro adjacent
    rw [Adjacent] at adjacent
    have day : (24 * (r.hour / 24) + h % 24) / 24 = r.hour / 24 := by omega
    have hour : (24 * (r.hour / 24) + h % 24) % 24 = h % 24 := by omega
    refine ⟨24 * (r.hour / 24) + h % 24, ?_, ?_, ?_⟩
    · simp only
      omega
    · rw [day]
      rfl
    · rw [hour]

/-- The requests that find the deadline passed, which moves on by an hour each time. -/
def pushing (next : Int) (rs : List (Request Computer)) : List (Request Computer) :=
  fired (fun r => (r.clock first offset).now) (hours 1) next rs

theorem pushing_cons (next : Int) (r : Request Computer) (rs : List (Request Computer)) :
    pushing first offset next (r :: rs) =
      if next < (r.clock first offset).now then
        r :: pushing first offset (next + hours 1) rs
      else pushing first offset next rs := rfl

end Slots

section Runs

variable [DecidableEq Computer] (misread : List Char → Db → Option Outcome)
  (first : Date) (offset : Int)

/-- `pushes` are the requests that had their computer pushed, with the ticks. -/
structure State (Computer : Type) where
  ingestor : DbRequestIngestor
  computers : Computer → RmsComputer
  conn : Connection
  pushes : List (Request Computer × Int)

def step (s : State Computer) (r : Request Computer) : Option (State Computer) :=
  match (ingestRequestData (r.clock first offset) r.data s.ingestor
    (some (s.computers r.computer))).run (answer misread) s.conn with
  | (some ⟨ing, some c, tick⟩, conn) =>
    some ⟨ing, Function.update s.computers r.computer c, conn,
      s.pushes ++ tick.toList.map (fun t => (r, t))⟩
  | _ => none

omit [DecidableEq Computer] in
def start (boot : Nat) (computers : Computer → RmsComputer) (conn : Connection) : State Computer :=
  ⟨.create (boot - offset), computers, conn, []⟩

theorem step_pushes (s : State Computer) (r : Request Computer) :
    ∃ s', step misread first offset s r = some s' ∧
      s'.ingestor = (s.ingestor.usagePush (r.clock first offset)).1 ∧
      s'.pushes = s.pushes ++
        (s.ingestor.usagePush (r.clock first offset)).2.toList.map (fun t => (r, t)) := by
  obtain ⟨c, conn, result⟩ := run_ingestRequestData (answer misread) (r.clock first offset) r.data
    s.ingestor (s.computers r.computer) s.conn
  exact ⟨_, by rw [step, result], rfl, rfl⟩

theorem step_not_due {s : State Computer} {r : Request Computer}
    (early : ¬ s.ingestor.nextUsagePush < (r.clock first offset).now) :
    ∃ s', step misread first offset s r = some s' ∧ s'.ingestor = s.ingestor ∧
      s'.pushes = s.pushes := by
  obtain ⟨s', one, ingestor, pushes⟩ := step_pushes misread first offset s r
  rw [usagePush_early early] at ingestor pushes
  exact ⟨s', one, ingestor, by simpa using pushes⟩

/-- A push is for the tick, which after the start is the hour, and counts it on. -/
theorem step_due {s : State Computer} {r : Request Computer} {h : Nat}
    (passed : s.ingestor.nextUsagePush < (r.clock first offset).now)
    (tick : s.ingestor.tick = -1 ∧ h = r.hour ∨ s.ingestor.tick = (h % 24 : Nat)) :
    ∃ s', step misread first offset s r = some s' ∧
      s'.ingestor.tick = ((h + 1) % 24 : Nat) ∧
      s'.ingestor.nextUsagePush = s.ingestor.nextUsagePush + hours 1 ∧
      s'.pushes = s.pushes ++ [(r, ((h % 24 : Nat) : Int))] := by
  obtain ⟨s', one, ingestor, pushes⟩ := step_pushes misread first offset s r
  have counts : s.ingestor.tick = -1 ∧ (r.clock first offset).hour = (h % 24 : Nat) ∨
      s.ingestor.tick = (h % 24 : Nat) := by
    rcases tick with ⟨unset, rfl⟩ | known
    · exact Or.inl ⟨unset, rfl⟩
    · exact Or.inr known
  rw [usagePush_due passed counts (by omega) (by omega)] at ingestor pushes
  refine ⟨s', one, ?_, by rw [ingestor], by simpa using pushes⟩
  rw [ingestor]
  dsimp only
  omega

/-- Each push counts one hour on from that of the first, whether it has come yet
or is still to come. -/
theorem run_pushes_counted (s : State Computer) (rs : List (Request Computer)) {h k : Nat}
    (tick : s.ingestor.tick = ((h + k) % 24 : Nat) ∨ s.ingestor.tick = -1 ∧ k = 0 ∧
      ∀ r ∈ (pushing first offset s.ingestor.nextUsagePush rs).head?, h = r.hour) :
    ∃ s', run (step misread first offset) s rs = some s' ∧ s'.pushes = s.pushes ++
      ((pushing first offset s.ingestor.nextUsagePush rs).zipIdx k).map
        (fun p => (p.1, (((h + p.2) % 24 : Nat) : Int))) := by
  induction rs generalizing s k with
  | nil => exact ⟨s, rfl, by simp [pushing, fired]⟩
  | cons r rs ih =>
    by_cases passed : s.ingestor.nextUsagePush < (r.clock first offset).now
    · have counts : s.ingestor.tick = -1 ∧ h + k = r.hour ∨
          s.ingestor.tick = ((h + k) % 24 : Nat) := by
        rcases tick with known | ⟨unset, rfl, hour⟩
        · exact Or.inr known
        · rw [pushing_cons, if_pos passed] at hour
          exact Or.inl ⟨unset, hour r rfl⟩
      obtain ⟨s₁, one, next, deadline, pushes⟩ := step_due misread first offset passed counts
      obtain ⟨s₂, rest, later⟩ := ih s₁ (k := k + 1) (Or.inl next)
      refine ⟨s₂, by simp [run, one, rest], ?_⟩
      rw [later, pushes, deadline, pushing_cons, if_pos passed, List.zipIdx_cons, List.map_cons,
        List.append_assoc, List.singleton_append]
    · rw [pushing_cons, if_neg passed] at tick
      obtain ⟨s₁, one, same, pushes⟩ := step_not_due misread first offset passed
      obtain ⟨s₂, rest, later⟩ := ih s₁ (k := k) (by rw [same]; exact tick)
      refine ⟨s₂, by simp [run, one, rest], ?_⟩
      rw [later, pushes, same, pushing_cons, if_neg passed]

/-- Every push is in its place exactly if the `j`-th request to find the deadline
passed comes `j` hours after the first, or in the hour before or after, by a
clock that shows the hour of the day. -/
theorem near_iff {boot : Nat} {computers : Computer → RmsComputer} {conn : Connection}
    {rs : List (Request Computer)} {s : State Computer}
    (arrives : run (step misread first offset) (start offset boot computers conn) rs = some s) :
    (∀ p ∈ s.pushes, Near first offset p) ↔
      ∀ r₀ r j, (pushing first offset (boot - offset + minutes 5) rs)[0]? = some r₀ →
        (pushing first offset (boot - offset + minutes 5) rs)[j]? = some r →
          Adjacent (r₀.hour + j) r.hour := by
  obtain ⟨s', arrives', pushes⟩ := run_pushes_counted misread first offset
    (start offset boot computers conn) rs (k := 0)
    (h := (pushing first offset (boot - offset + minutes 5) rs).head?.elim 0 Request.hour)
    (Or.inr ⟨rfl, rfl, fun r hr => by
      rw [show (pushing first offset (boot - offset + minutes 5) rs).head? = some r from hr]
      rfl⟩)
  obtain rfl : s' = s := Option.some.inj (arrives'.symm.trans arrives)
  change s'.pushes = (pushing first offset (boot - offset + minutes 5) rs).zipIdx.map (fun p =>
    (p.1, (((((pushing first offset (boot - offset + minutes 5) rs).head?.elim 0 Request.hour) +
      p.2) % 24 : Nat) : Int))) at pushes
  generalize pushing first offset (boot - offset + minutes 5) rs = fires at pushes ⊢
  rw [pushes]
  simp only [List.forall_mem_map, near_iff_adjacent]
  cases fires with
  | nil => simp
  | cons r₀ rest =>
    constructor
    · intro near r₀' r j hr₀ hr
      obtain rfl := Option.some.inj hr₀
      exact near (r, j) (List.mem_zipIdx_iff_getElem?.mpr hr)
    · rintro adjacent ⟨r, j⟩ hr
      exact adjacent r₀ r j rfl (List.mem_zipIdx_iff_getElem?.mp hr)

end Runs

def midnight : Date := ⟨2022, 3, 1⟩

/-- A ping so many minutes after the first day began. -/
def pingAfter (minute : Nat) : Request Unit := ⟨minute * 60000000000, ping, ()⟩

/-- A server that starts at noon and is asked every hour. -/
theorem hourly_near :
    let pushes := ((run (step (fun _ _ => none) midnight 0)
      (start 0 (720 * 60000000000) (fun _ => RmsComputer.create 1) freshConn)
      [pingAfter 726, pingAfter 786, pingAfter 846]).get (by rfl)).pushes
    pushes.map Prod.snd = [12, 13, 14] ∧ ∀ p ∈ pushes, Near midnight 0 p := by
  refine ⟨by decide, (near_iff (fun _ _ => none) midnight 0 (Option.some_get _).symm).mpr ?_⟩
  intro r₀ r j hr₀ hr
  match j with
  | 0 | 1 | 2 =>
    obtain rfl := Option.some.inj hr₀
    obtain rfl := Option.some.inj hr
    decide
  | j + 3 => cases hr

/-- After four hours without a request, the push of five o'clock is written into
the slot of one o'clock. -/
theorem idle_not_near :
    let rs := [pingAfter 726, pingAfter 1026]
    rs.Pairwise (fun a b => a.time ≤ b.time) ∧
      ∃ s, run (step (fun _ _ => none) midnight 0)
          (start 0 (720 * 60000000000) (fun _ => RmsComputer.create 1) freshConn) rs = some s ∧
        ¬ ∀ p ∈ s.pushes, Near midnight 0 p := by
  refine ⟨by decide, _, rfl, fun near => ?_⟩
  have late := near (pingAfter 1026, 13) (List.mem_of_getElem? (i := 1) rfl)
  exact absurd ((near_iff_adjacent midnight 0 (pingAfter 1026) 13).mp late) (by decide)

end PushSlots
