import RemoteManagement.ThriftTypes
import RemoteManagement.Library.GuardedRun
import Mathlib.Logic.Function.Basic
import Mathlib.Data.List.FinRange

/-!
# The threads of the reporter

The main thread starts and stops the consumers and the request client, each
consumer puts requests in the queue, and one thread polls it. One event is one
step of one thread, and a thread that has to wait takes no step. An exception
that leaves the poll thread ends the process, and so the run. The semaphore is
taken as a counter, and the server, once it is unreachable, stays so.
-/

namespace ReporterThreads

open ThriftTypes GuardedRun

inductive RequestProtocol where
  | kTCP
  | kHTTP
  | kLOG
  deriving DecidableEq

/-- `start`, the wait for a signal and `stop`, with the consumers that their
loops still have to come to. -/
inductive MainPc (n : Nat) where
  | starting (rest : List (Fin n))
  | waiting
  | stopping (rest : List (Fin n))
  | joining (i : Fin n) (rest : List (Fin n))
  | releasing
  | joiningPoll
  | closing
  | stopped
  deriving DecidableEq

def MainPc.Starting {n : Nat} : MainPc n → Prop
  | .starting _ => True
  | _ => False

/-- The consumers that `start` has not started yet. -/
def MainPc.unstarted {n : Nat} : MainPc n → List (Fin n)
  | .starting rest => rest
  | _ => []

/-- The consumers that `stop` has not joined yet. -/
def MainPc.ahead {n : Nat} : MainPc n → List (Fin n)
  | .starting _ | .waiting => List.finRange n
  | .stopping rest => rest
  | .joining i rest => i :: rest
  | .releasing | .joiningPoll | .closing | .stopped => []

/-- `consume` with `sendRequest`. -/
inductive ConsumerPc where
  | idle
  | loopTest
  | gathering
  | locking (req : RmsRequest)
  | pushing (req : RmsRequest)
  | releasing
  | sleeping
  | finished

structure Consumer where
  isConsuming : Bool := false
  pc : ConsumerPc := .idle

inductive HandshakePc where
  | loopTest
  | opening
  | flagTest
  | calling
  deriving DecidableEq

/-- `pollRequests`; the handshake is called before the loop, and again with the
mutex held after a request has failed. -/
inductive PollPc where
  | idle
  | storing
  | handshakeTCP (again : Bool) (pc : HandshakePc)
  | handshaken (result : Int)
  | loopTest
  | acquiring
  | flagTest
  | locking
  | sending
  | releasing
  | retryTest
  | ended
  deriving DecidableEq

inductive Owner (n : Nat) where
  | consumer (i : Fin n)
  | poll
  deriving DecidableEq

structure Reporter (n : Nat) where
  main : MainPc n
  consumers : Fin n → Consumer
  poll : PollPc
  mtx : Option (Owner n)
  requestCounter : Nat
  pollRequests : Bool
  requestQueue : List (RequestProtocol × RmsRequest)
  reachable : Bool

inductive Event (n : Nat) where
  | main
  | gather (i : Fin n) (req : RmsRequest)
  | consumer (i : Fin n)
  | poll (ok : Bool)
  | serverDown

variable {n : Nat}

def start : Reporter n where
  main := .starting (List.finRange n)
  consumers := fun _ => {}
  poll := .idle
  mtx := none
  requestCounter := 0
  pollRequests := false
  requestQueue := []
  reachable := true

def Reporter.setConsumer (s : Reporter n) (i : Fin n) (c : Consumer) :
    Reporter n :=
  { s with consumers := Function.update s.consumers i c }

def Reporter.setPc (s : Reporter n) (i : Fin n) (pc : ConsumerPc) :
    Reporter n :=
  s.setConsumer i { s.consumers i with pc := pc }

def mainStep (s : Reporter n) : Option (Reporter n) :=
  match s.main with
  | .starting (i :: rest) => some { s.setConsumer i ⟨true, .loopTest⟩ with main := .starting rest }
  | .starting [] =>
    if s.pollRequests then some { s with main := .waiting }
    else some { s with main := .waiting, poll := .storing }
  | .waiting => some { s with main := .stopping (List.finRange n) }
  | .stopping (i :: rest) =>
    some { s.setConsumer i { s.consumers i with isConsuming := false } with
      main := .joining i rest }
  | .joining i rest =>
    match (s.consumers i).pc with
    | .finished => some { s with main := .stopping rest }
    | _ => none
  | .stopping [] => some { s with pollRequests := false, main := .releasing }
  | .releasing => some { s with requestCounter := s.requestCounter + 1, main := .joiningPoll }
  | .joiningPoll => if s.poll = .ended then some { s with main := .closing } else none
  | .closing => some { s with main := .stopped }
  | .stopped => none

def consumerStep (s : Reporter n) (i : Fin n) : Option (Reporter n) :=
  match (s.consumers i).pc with
  | .idle | .gathering | .finished => none
  | .loopTest => some (s.setPc i (if (s.consumers i).isConsuming then .gathering else .finished))
  | .locking req =>
    if s.mtx = none then some { s.setPc i (.pushing req) with mtx := some (.consumer i) } else none
  | .pushing req =>
    some { s.setPc i .releasing with
      requestQueue := s.requestQueue ++ [(.kTCP, req)], mtx := none }
  | .releasing => some { s.setPc i .sleeping with requestCounter := s.requestCounter + 1 }
  -- the sleep ends in its own time, or early when the flag is cleared
  | .sleeping => some (s.setPc i .loopTest)

/-- An unreachable server answers no call. -/
def Reporter.answers (s : Reporter n) (ok : Bool) : Prop :=
  ok = true → s.reachable = true

instance decidableAnswers (s : Reporter n) (ok : Bool) : Decidable (s.answers ok) :=
  inferInstanceAs (Decidable (ok = true → s.reachable = true))

def handshakeStep (s : Reporter n) (again ok : Bool) :
    HandshakePc → Option (Reporter n)
  | .loopTest =>
    some { s with poll := .handshakeTCP again (if s.pollRequests then .opening else .flagTest) }
  | .opening => some { s with poll := .handshakeTCP again (if ok then .flagTest else .loopTest) }
  | .flagTest =>
    if s.pollRequests then some { s with poll := .handshakeTCP again .calling }
    else some { s with poll := if again then .retryTest else .handshaken (-1) }
  -- the call is outside the try block
  | .calling =>
    if ok then some { s with poll := if again then .retryTest else .handshaken 0 } else none

def pollStep (s : Reporter n) (ok : Bool) : Option (Reporter n) :=
  match s.poll with
  | .idle | .ended => none
  | .storing => some { s with pollRequests := true, poll := .handshakeTCP false .loopTest }
  | .handshakeTCP again pc => if s.answers ok then handshakeStep s again ok pc else none
  | .handshaken result =>
    if result ≠ 0 ∧ s.pollRequests then some { s with poll := .handshakeTCP false .loopTest }
    else some { s with poll := .loopTest }
  | .loopTest => some { s with poll := if s.pollRequests then .acquiring else .ended }
  | .acquiring =>
    if s.requestCounter = 0 then none
    else some { s with requestCounter := s.requestCounter - 1, poll := .flagTest }
  | .flagTest => some { s with poll := if s.pollRequests then .locking else .ended }
  | .locking =>
    if s.mtx = none then some { s with mtx := some .poll, poll := .sending } else none
  | .sending =>
    match s.requestQueue with
    | [] => none
    | (.kTCP, _) :: rest =>
      if ok then
        if s.reachable then some { s with requestQueue := rest, mtx := none, poll := .loopTest }
        else none
      else some { s with poll := .releasing }
    | (.kHTTP, _) :: rest | (.kLOG, _) :: rest =>
      some { s with requestQueue := rest, mtx := none, poll := .loopTest }
  | .releasing =>
    some { s with requestCounter := s.requestCounter + 1, poll := .handshakeTCP true .loopTest }
  | .retryTest =>
    some { s with mtx := none, poll := if s.pollRequests then .loopTest else .ended }

def step (s : Reporter n) : Event n → Option (Reporter n)
  | .main => mainStep s
  | .gather i req =>
    match (s.consumers i).pc with
    | .gathering => some (s.setPc i (.locking req))
    | _ => none
  | .consumer i => consumerStep s i
  | .poll ok => pollStep s ok
  | .serverDown => some { s with reachable := false }

section Places

/-- The consumer is yet to come to `sendRequest`, or waits in it. -/
def Consumer.CanSend (c : Consumer) : Prop :=
  match c.pc with
  | .idle | .gathering | .locking _ => True
  | .loopTest | .pushing _ | .releasing | .sleeping => c.isConsuming = true
  | .finished => False

instance decidableCanSend (c : Consumer) : Decidable c.CanSend := by
  obtain ⟨isConsuming, pc⟩ := c
  cases pc <;> unfold Consumer.CanSend <;> infer_instance

def Silent (s : Reporter n) : Prop := ∀ i, ¬ (s.consumers i).CanSend

instance decidableSilent (s : Reporter n) : Decidable (Silent s) :=
  inferInstanceAs (Decidable (∀ i, ¬ (s.consumers i).CanSend))

/-- The poll thread has the mutex and is before or in the loop that ends with a
connection. -/
def PollPc.Connecting : PollPc → Prop
  | .releasing | .handshakeTCP true .loopTest | .handshakeTCP true .opening => True
  | _ => False

instance decidableConnecting (poll : PollPc) : Decidable poll.Connecting := by
  unfold PollPc.Connecting
  split <;> infer_instance

/-- The consumer is between the lock and the unlock of the mutex. -/
def Consumer.Holds (c : Consumer) : Prop :=
  match c.pc with
  | .pushing _ => True
  | _ => False

def PollPc.Holds : PollPc → Prop
  | .sending | .releasing | .handshakeTCP true _ | .retryTest => True
  | _ => False

theorem setConsumer_consumers (s : Reporter n) (i : Fin n) (c : Consumer) (j : Fin n) :
    (s.setConsumer i c).consumers j = if j = i then c else s.consumers j :=
  Function.update_apply _ _ _ _

theorem canSend_stop {c : Consumer}
    (h : ({ c with isConsuming := false } : Consumer).CanSend) : c.CanSend := by
  obtain ⟨isConsuming, pc⟩ := c
  cases pc <;> simp_all [Consumer.CanSend]

theorem silent_setConsumer {s : Reporter n} (silent : Silent s) {i : Fin n}
    {c : Consumer} (hc : c.CanSend → (s.consumers i).CanSend) :
    Silent (s.setConsumer i c) := by
  intro j
  by_cases hj : j = i
  · subst hj
    simpa [Reporter.setConsumer] using fun h => silent j (hc h)
  · simpa [Reporter.setConsumer, hj] using silent j

theorem holds_setConsumer {s : Reporter n} {i : Fin n} {c : Consumer}
    (hc : c.Holds → (s.consumers i).Holds) (j : Fin n)
    (h : ((s.setConsumer i c).consumers j).Holds) : (s.consumers j).Holds := by
  by_cases hj : j = i
  · subst hj
    exact hc (by simpa [Reporter.setConsumer] using h)
  · simpa [Reporter.setConsumer, hj] using h

end Places

section Steps

/-- A step of a consumer changes the threads in its own place only. -/
structure ConsumerMoves (s t : Reporter n) (i : Fin n) (c : Consumer) : Prop where
  consumers : t.consumers = Function.update s.consumers i c
  canSend : c.CanSend → (s.consumers i).CanSend
  isConsuming : c.isConsuming = (s.consumers i).isConsuming
  started : c.pc ≠ .idle
  unfinished : (s.consumers i).pc ≠ .finished
  mutex : (t.mtx = s.mtx ∧ ¬ c.Holds) ∨ (s.mtx = none ∧ t.mtx = some (.consumer i)) ∨
    ((s.consumers i).Holds ∧ t.mtx = none ∧ ¬ c.Holds)
  main : t.main = s.main
  poll : t.poll = s.poll
  reachable : t.reachable = s.reachable
  pollRequests : t.pollRequests = s.pollRequests

theorem consumerStep_moves {s t : Reporter n} {i : Fin n} (h : consumerStep s i = some t) :
    ∃ c, ConsumerMoves s t i c := by
  cases hpc : (s.consumers i).pc with
  | idle | gathering | finished => simp [consumerStep, hpc] at h
  | loopTest =>
    simp only [consumerStep, hpc, Option.some.injEq] at h
    subst h
    refine ⟨_, rfl, ?_, rfl, ?_, by simp [hpc], Or.inl ⟨rfl, ?_⟩, rfl, rfl, rfl, rfl⟩
    · cases hc : (s.consumers i).isConsuming <;> simp [Consumer.CanSend, hpc, hc]
    · cases hc : (s.consumers i).isConsuming <;> simp
    · cases hc : (s.consumers i).isConsuming <;> simp [Consumer.Holds]
  | locking req =>
    simp only [consumerStep, hpc, Option.ite_none_right_eq_some, Option.some.injEq] at h
    obtain ⟨free, rfl⟩ := h
    exact ⟨_, rfl, fun _ => by simp [Consumer.CanSend, hpc], rfl, by simp, by simp [hpc],
      Or.inr (Or.inl ⟨free, rfl⟩), rfl, rfl, rfl, rfl⟩
  | pushing req =>
    simp only [consumerStep, hpc, Option.some.injEq] at h
    subst h
    have holds : (s.consumers i).Holds := by simp [Consumer.Holds, hpc]
    exact ⟨_, rfl, by simp [Consumer.CanSend, hpc], rfl, by simp, by simp [hpc],
      Or.inr (Or.inr ⟨holds, rfl, id⟩), rfl, rfl, rfl, rfl⟩
  | releasing | sleeping =>
    simp only [consumerStep, hpc, Option.some.injEq] at h
    subst h
    exact ⟨_, rfl, by simp [Consumer.CanSend, hpc], rfl, by simp, by simp [hpc],
      Or.inl ⟨rfl, id⟩, rfl, rfl, rfl, rfl⟩

theorem gather_eq {s t : Reporter n} {i : Fin n} {req : RmsRequest}
    (h : step s (.gather i req) = some t) :
    (s.consumers i).pc = .gathering ∧ t = s.setPc i (.locking req) := by
  simp only [step] at h
  cases hpc : (s.consumers i).pc with
  | gathering =>
    simp only [hpc, Option.some.injEq] at h
    exact ⟨rfl, h.symm⟩
  | _ => simp [hpc] at h

theorem handshakeStep_eq {s t : Reporter n} {again ok : Bool} {pc : HandshakePc}
    (h : handshakeStep s again ok pc = some t) :
    ∃ poll : PollPc, t = { s with poll := poll } ∧
      (poll.Connecting → (PollPc.handshakeTCP again pc).Connecting) ∧
      (poll.Holds ↔ (PollPc.handshakeTCP again pc).Holds) := by
  cases pc with
  | loopTest =>
    refine ⟨_, (Option.some.inj h).symm, ?_⟩
    cases again <;> cases s.pollRequests <;> simp [PollPc.Connecting, PollPc.Holds]
  | opening =>
    refine ⟨_, (Option.some.inj h).symm, ?_⟩
    cases again <;> cases ok <;> simp [PollPc.Connecting, PollPc.Holds]
  | flagTest =>
    rw [handshakeStep] at h
    split at h
    · refine ⟨_, (Option.some.inj h).symm, ?_⟩
      cases again <;> simp [PollPc.Connecting, PollPc.Holds]
    · refine ⟨_, (Option.some.inj h).symm, ?_⟩
      cases again <;> simp [PollPc.Connecting, PollPc.Holds]
  | calling =>
    rw [handshakeStep, Option.ite_none_right_eq_some] at h
    refine ⟨_, (Option.some.inj h.2).symm, ?_⟩
    cases again <;> simp [PollPc.Connecting, PollPc.Holds]

/-- The send of the first request in the queue fails. -/
def FailsToSend (s : Reporter n) (ok : Bool) : Prop :=
  s.poll = .sending ∧ s.requestQueue.head?.map Prod.fst = some .kTCP ∧ ok = false

instance decidableFailsToSend (s : Reporter n) (ok : Bool) : Decidable (FailsToSend s ok) :=
  inferInstanceAs (Decidable (_ ∧ _ ∧ _))

/-- The poll thread comes to the loop with the mutex by a request that failed. -/
structure PollMoves (s t : Reporter n) (ok : Bool) : Prop where
  consumers : t.consumers = s.consumers
  main : t.main = s.main
  reachable : t.reachable = s.reachable
  connecting : t.poll.Connecting → s.poll.Connecting ∨ FailsToSend s ok
  mutex : (t.mtx = s.mtx ∧ (t.poll.Holds ↔ s.poll.Holds)) ∨ (s.mtx = none ∧ t.mtx = some .poll) ∨
    (s.poll.Holds ∧ t.mtx = none ∧ ¬ t.poll.Holds)

theorem pollStep_moves {s t : Reporter n} {ok : Bool} (h : pollStep s ok = some t) :
    PollMoves s t ok := by
  cases hpoll : s.poll with
  | idle | ended => simp [pollStep, hpoll] at h
  | storing =>
    simp only [pollStep, hpoll, Option.some.injEq] at h
    subst h
    exact ⟨rfl, rfl, rfl, False.elim, Or.inl ⟨rfl, by simp [PollPc.Holds, hpoll]⟩⟩
  | handshakeTCP again pc =>
    simp only [pollStep, hpoll, Option.ite_none_right_eq_some] at h
    obtain ⟨poll, rfl, connecting, holds⟩ := handshakeStep_eq h.2
    rw [← hpoll] at connecting holds
    exact ⟨rfl, rfl, rfl, fun hp => Or.inl (connecting hp), Or.inl ⟨rfl, holds⟩⟩
  | handshaken result =>
    simp only [pollStep, hpoll] at h
    split at h
    · obtain rfl := Option.some.inj h
      exact ⟨rfl, rfl, rfl, False.elim, Or.inl ⟨rfl, by simp [PollPc.Holds, hpoll]⟩⟩
    · obtain rfl := Option.some.inj h
      exact ⟨rfl, rfl, rfl, False.elim, Or.inl ⟨rfl, by simp [PollPc.Holds, hpoll]⟩⟩
  | loopTest | flagTest =>
    simp only [pollStep, hpoll, Option.some.injEq] at h
    subst h
    refine ⟨rfl, rfl, rfl, ?_, Or.inl ⟨rfl, ?_⟩⟩
    · cases s.pollRequests <;> exact False.elim
    · cases s.pollRequests <;> simp [PollPc.Holds, hpoll]
  | acquiring =>
    simp only [pollStep, hpoll, Option.ite_none_left_eq_some, Option.some.injEq] at h
    obtain ⟨-, rfl⟩ := h
    exact ⟨rfl, rfl, rfl, False.elim, Or.inl ⟨rfl, by simp [PollPc.Holds, hpoll]⟩⟩
  | locking =>
    simp only [pollStep, hpoll, Option.ite_none_right_eq_some, Option.some.injEq] at h
    obtain ⟨free, rfl⟩ := h
    exact ⟨rfl, rfl, rfl, False.elim, Or.inr (Or.inl ⟨free, rfl⟩)⟩
  | sending =>
    have holds : s.poll.Holds := by simp [PollPc.Holds, hpoll]
    simp only [pollStep, hpoll] at h
    split at h
    · cases h
    · rename_i first
      split at h
      · rw [Option.ite_none_right_eq_some] at h
        obtain rfl := Option.some.inj h.2
        exact ⟨rfl, rfl, rfl, False.elim, Or.inr (Or.inr ⟨holds, rfl, id⟩)⟩
      · rename_i failed
        obtain rfl := Option.some.inj h
        have fails : FailsToSend s ok := ⟨hpoll, by simp [first], Bool.eq_false_iff.mpr failed⟩
        exact ⟨rfl, rfl, rfl, fun _ => Or.inr fails, Or.inl ⟨rfl, iff_of_true trivial holds⟩⟩
    · obtain rfl := Option.some.inj h
      exact ⟨rfl, rfl, rfl, False.elim, Or.inr (Or.inr ⟨holds, rfl, id⟩)⟩
    · obtain rfl := Option.some.inj h
      exact ⟨rfl, rfl, rfl, False.elim, Or.inr (Or.inr ⟨holds, rfl, id⟩)⟩
  | releasing =>
    simp only [pollStep, hpoll, Option.some.injEq] at h
    subst h
    exact ⟨rfl, rfl, rfl, fun _ => Or.inl (by simp [PollPc.Connecting, hpoll]),
      Or.inl ⟨rfl, by simp [PollPc.Holds, hpoll]⟩⟩
  | retryTest =>
    simp only [pollStep, hpoll, Option.some.injEq] at h
    subst h
    refine ⟨rfl, rfl, rfl, ?_, Or.inr (Or.inr ⟨by simp [PollPc.Holds, hpoll], rfl, ?_⟩)⟩
    · cases s.pollRequests <;> exact False.elim
    · cases s.pollRequests <;> exact id

/-- The main thread starts the poll thread after the consumers; from then on it
gives no consumer more to send. -/
structure MainMoves (s t : Reporter n) : Prop where
  reachable : t.reachable = s.reachable
  mtx : t.mtx = s.mtx
  holds : ∀ i, (t.consumers i).Holds → (s.consumers i).Holds
  threads : (s.main.Starting ∧ (t.main.Starting → t.poll = s.poll) ∧
      (t.poll = s.poll ∨ t.poll = .storing)) ∨
    (¬ s.main.Starting ∧ ¬ t.main.Starting ∧ t.poll = s.poll ∧ (Silent s → Silent t))

theorem mainStep_moves {s t : Reporter n} (h : mainStep s = some t) : MainMoves s t := by
  cases hmain : s.main with
  | starting rest =>
    have starting : s.main.Starting := by simp [MainPc.Starting, hmain]
    cases rest with
    | cons i rest =>
      simp only [mainStep, hmain, Option.some.injEq] at h
      subst h
      exact ⟨rfl, rfl, holds_setConsumer False.elim, Or.inl ⟨starting, fun _ => rfl, Or.inl rfl⟩⟩
    | nil =>
      simp only [mainStep, hmain] at h
      split at h
      · obtain rfl := Option.some.inj h
        exact ⟨rfl, rfl, fun _ => id, Or.inl ⟨starting, False.elim, Or.inl rfl⟩⟩
      · obtain rfl := Option.some.inj h
        exact ⟨rfl, rfl, fun _ => id, Or.inl ⟨starting, False.elim, Or.inr rfl⟩⟩
  | waiting | releasing | closing =>
    have started : ¬ s.main.Starting := by simp [MainPc.Starting, hmain]
    simp only [mainStep, hmain, Option.some.injEq] at h
    subst h
    exact ⟨rfl, rfl, fun _ => id, Or.inr ⟨started, id, rfl, id⟩⟩
  | stopping rest =>
    have started : ¬ s.main.Starting := by simp [MainPc.Starting, hmain]
    cases rest with
    | cons i rest =>
      simp only [mainStep, hmain, Option.some.injEq] at h
      subst h
      exact ⟨rfl, rfl, holds_setConsumer id,
        Or.inr ⟨started, id, rfl, fun silent => silent_setConsumer silent canSend_stop⟩⟩
    | nil =>
      simp only [mainStep, hmain, Option.some.injEq] at h
      subst h
      exact ⟨rfl, rfl, fun _ => id, Or.inr ⟨started, id, rfl, id⟩⟩
  | joining i rest =>
    have started : ¬ s.main.Starting := by simp [MainPc.Starting, hmain]
    simp only [mainStep, hmain] at h
    split at h
    · obtain rfl := Option.some.inj h
      exact ⟨rfl, rfl, fun _ => id, Or.inr ⟨started, id, rfl, id⟩⟩
    · cases h
  | joiningPoll =>
    have started : ¬ s.main.Starting := by simp [MainPc.Starting, hmain]
    simp only [mainStep, hmain, Option.ite_none_right_eq_some, Option.some.injEq] at h
    obtain ⟨-, rfl⟩ := h
    exact ⟨rfl, rfl, fun _ => id, Or.inr ⟨started, id, rfl, id⟩⟩
  | stopped => simp [mainStep, hmain] at h

end Steps

section Mutex

/-- Whoever is between the lock and the unlock of the mutex has it. -/
structure Locked (s : Reporter n) : Prop where
  consumers : ∀ i, (s.consumers i).Holds → s.mtx = some (.consumer i)
  poll : s.poll.Holds → s.mtx = some .poll

theorem locked_start : Locked (start : Reporter n) := ⟨fun _ => False.elim, False.elim⟩

theorem locked_of_main {s t : Reporter n} (hs : Locked s) (moves : MainMoves s t) : Locked t := by
  refine ⟨fun i hi => moves.mtx.trans (hs.consumers i (moves.holds i hi)), fun hp => ?_⟩
  rw [moves.mtx]
  rcases moves.threads with ⟨-, -, poll | poll⟩ | ⟨-, -, poll, -⟩
  · exact hs.poll (poll ▸ hp)
  · rw [poll] at hp
    exact hp.elim
  · exact hs.poll (poll ▸ hp)

theorem locked_of_consumer {s t : Reporter n} (hs : Locked s) {i : Fin n} {c : Consumer}
    (moves : ConsumerMoves s t i c) : Locked t := by
  have others : ∀ j, j ≠ i → (t.consumers j).Holds → s.mtx = some (.consumer j) := by
    intro j hj holds
    rw [moves.consumers, Function.update_of_ne hj] at holds
    exact hs.consumers j holds
  have own : ¬ c.Holds → ¬ (t.consumers i).Holds := by
    rw [moves.consumers, Function.update_self]
    exact id
  have unpolled (o : Option (Owner n)) (ho : s.mtx = o) (other : o ≠ some .poll) :
      ¬ t.poll.Holds := by
    rw [moves.poll]
    exact fun hp => other (ho.symm.trans (hs.poll hp))
  rcases moves.mutex with ⟨mtx, silent⟩ | ⟨free, mtx⟩ | ⟨holds, -, silent⟩
  · refine ⟨fun j hj => ?_, fun hp => mtx.trans (hs.poll (moves.poll ▸ hp))⟩
    by_cases hji : j = i
    · exact absurd hj (hji ▸ own silent)
    · exact mtx.trans (others j hji hj)
  · refine ⟨fun j hj => ?_, fun hp => absurd hp (unpolled _ free (by simp))⟩
    by_cases hji : j = i
    · exact hji ▸ mtx
    · exact absurd (free.symm.trans (others j hji hj)) (by simp)
  · have owner := hs.consumers i holds
    refine ⟨fun j hj => ?_, fun hp => absurd hp (unpolled _ owner (by simp))⟩
    by_cases hji : j = i
    · exact absurd hj (hji ▸ own silent)
    · have both := owner.symm.trans (others j hji hj)
      exact absurd (by simpa using both) (Ne.symm hji)

theorem locked_of_poll {s t : Reporter n} (hs : Locked s) {ok : Bool} (moves : PollMoves s t ok) :
    Locked t := by
  have others (i : Fin n) (hi : (t.consumers i).Holds) : s.mtx = some (.consumer i) :=
    hs.consumers i (moves.consumers ▸ hi)
  rcases moves.mutex with ⟨mtx, holds⟩ | ⟨free, mtx⟩ | ⟨holds, -, silent⟩
  · exact ⟨fun i hi => mtx.trans (others i hi), fun hp => mtx.trans (hs.poll (holds.mp hp))⟩
  · refine ⟨fun i hi => ?_, fun _ => mtx⟩
    exact absurd (free.symm.trans (others i hi)) (by simp)
  · refine ⟨fun i hi => ?_, fun hp => absurd hp silent⟩
    exact absurd ((hs.poll holds).symm.trans (others i hi)) (by simp)

theorem step_locked (s : Reporter n) (e : Event n) (t : Reporter n)
    (hs : Locked s) (h : step s e = some t) : Locked t := by
  cases e with
  | main => exact locked_of_main hs (mainStep_moves h)
  | gather i req =>
    obtain ⟨-, rfl⟩ := gather_eq h
    exact ⟨fun j hj => hs.consumers j (holds_setConsumer False.elim j hj), hs.poll⟩
  | consumer i =>
    obtain ⟨c, moves⟩ := consumerStep_moves h
    exact locked_of_consumer hs moves
  | poll ok => exact locked_of_poll hs (pollStep_moves h)
  | serverDown =>
    obtain rfl := Option.some.inj h
    exact ⟨hs.consumers, hs.poll⟩

end Mutex

section Stages

/-- How far the main thread is says which consumers run. -/
structure Staged (s : Reporter n) : Prop where
  starting : s.main.Starting → s.poll = .idle
  started : ∀ i, (s.consumers i).pc = .idle → i ∈ s.main.unstarted
  stopped : ∀ i rest, s.main = .joining i rest → (s.consumers i).isConsuming = false
  joined : ∀ i, i ∉ s.main.ahead → (s.consumers i).pc = .finished

theorem staged_start : Staged (start : Reporter n) where
  starting := fun _ => rfl
  started := fun i _ => List.mem_finRange i
  stopped := nofun
  joined := fun i hi => absurd (List.mem_finRange i) hi

theorem mainStep_staged {s t : Reporter n} (hs : Staged s) (h : mainStep s = some t) :
    Staged t := by
  have starting := hs.starting
  have started := hs.started
  have joined := hs.joined
  cases hmain : s.main with
  | starting rest =>
    rw [hmain] at starting started
    cases rest with
    | cons i rest =>
      simp only [mainStep, hmain, Option.some.injEq] at h
      subst h
      refine ⟨starting, fun j hj => ?_, nofun, fun j hj => absurd (List.mem_finRange j) hj⟩
      simp only [setConsumer_consumers] at hj
      split at hj
      · cases hj
      · rename_i hji
        exact (List.mem_cons.mp (started j hj)).resolve_left hji
    | nil =>
      simp only [mainStep, hmain] at h
      split at h
      · obtain rfl := Option.some.inj h
        exact ⟨False.elim, started, nofun, fun i hi => absurd (List.mem_finRange i) hi⟩
      · obtain rfl := Option.some.inj h
        exact ⟨False.elim, started, nofun, fun i hi => absurd (List.mem_finRange i) hi⟩
  | waiting | releasing | closing =>
    rw [hmain] at started joined
    simp only [mainStep, hmain, Option.some.injEq] at h
    subst h
    exact ⟨False.elim, started, nofun, joined⟩
  | stopping rest =>
    rw [hmain] at started joined
    cases rest with
    | nil =>
      simp only [mainStep, hmain, Option.some.injEq] at h
      subst h
      exact ⟨False.elim, started, nofun, joined⟩
    | cons i rest =>
      simp only [mainStep, hmain, Option.some.injEq] at h
      subst h
      have samePc (j : Fin n) : ((s.setConsumer i { s.consumers i with
          isConsuming := false }).consumers j).pc = (s.consumers j).pc := by
        rw [setConsumer_consumers]
        split
        · rename_i hji
          rw [hji]
        · rfl
      refine ⟨False.elim, fun j hj => started j ((samePc j).symm.trans hj), ?_,
        fun j hj => (samePc j).trans (joined j hj)⟩
      rintro j before ⟨⟩
      simp [setConsumer_consumers]
  | joining i rest =>
    rw [hmain] at started joined
    simp only [mainStep, hmain] at h
    split at h
    · rename_i finished
      obtain rfl := Option.some.inj h
      refine ⟨False.elim, started, nofun, fun j hj => ?_⟩
      by_cases hji : j = i
      · exact hji ▸ finished
      · exact joined j (fun mem => (List.mem_cons.mp mem).elim hji hj)
    · cases h
  | joiningPoll =>
    rw [hmain] at started joined
    simp only [mainStep, hmain, Option.ite_none_right_eq_some, Option.some.injEq] at h
    obtain ⟨-, rfl⟩ := h
    exact ⟨False.elim, started, nofun, joined⟩
  | stopped => simp [mainStep, hmain] at h

/-- Where one consumer moves that runs and keeps its flag, the stage stays. -/
theorem staged_of_update {s t : Reporter n} (hs : Staged s) {i : Fin n} {c : Consumer}
    (consumers : t.consumers = Function.update s.consumers i c)
    (isConsuming : c.isConsuming = (s.consumers i).isConsuming) (started : c.pc ≠ .idle)
    (unfinished : (s.consumers i).pc ≠ .finished) (main : t.main = s.main)
    (poll : t.poll = s.poll) : Staged t := by
  have place (j : Fin n) : t.consumers j = if j = i then c else s.consumers j := by
    rw [consumers, Function.update_apply]
  refine ⟨fun ht => poll.trans (hs.starting (main ▸ ht)), fun j hj => ?_, fun j rest hj => ?_,
    fun j hj => ?_⟩
  · rw [place] at hj
    rw [main]
    split at hj
    · exact absurd hj started
    · exact hs.started j hj
  · have flag := hs.stopped j rest (main ▸ hj)
    rw [place]
    split
    · rename_i hji
      rw [isConsuming, ← hji, flag]
    · exact flag
  · have finished := hs.joined j (main ▸ hj)
    rw [place]
    split
    · rename_i hji
      exact absurd (hji ▸ finished) unfinished
    · exact finished

theorem step_staged (s : Reporter n) (e : Event n) (t : Reporter n) (hs : Staged s)
    (h : step s e = some t) : Staged t := by
  cases e with
  | main => exact mainStep_staged hs h
  | gather i req =>
    obtain ⟨hpc, rfl⟩ := gather_eq h
    exact staged_of_update hs rfl rfl nofun (by simp [hpc]) rfl rfl
  | consumer i =>
    obtain ⟨c, moves⟩ := consumerStep_moves h
    exact staged_of_update hs moves.consumers moves.isConsuming moves.started moves.unfinished
      moves.main moves.poll
  | poll ok =>
    have moves := pollStep_moves h
    refine ⟨fun ht => ?_, ?_, ?_, ?_⟩
    · have idle := hs.starting (moves.main ▸ ht)
      simp [step, pollStep, idle] at h
    · rw [moves.consumers, moves.main]
      exact hs.started
    · rw [moves.consumers, moves.main]
      exact hs.stopped
    · rw [moves.consumers, moves.main]
      exact hs.joined
  | serverDown =>
    obtain rfl := Option.some.inj h
    exact ⟨hs.starting, hs.started, hs.stopped, hs.joined⟩

end Stages

end ReporterThreads
