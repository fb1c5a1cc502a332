import RemoteManagement.RequestClient
import RemoteManagement.Library.Headcount

/-!
# The permits of the request counter

The semaphore counts the requests that have been put in the queue and announced,
less those the poll thread has taken, and the one permit of `stop`.
-/

namespace RequestPermits

open ThriftTypes GuardedRun RequestClient Headcount

/-- The sender has put its request in the queue and is yet to release. -/
def announcing : SenderPc → Bool
  | .releasing _ => true
  | _ => false

/-- The permits that the poll thread has taken, and neither spent on a request
nor given back. -/
def inHand {Thread : Type} : PollPc Thread → Nat
  | .flagTest | .locking | .sending | .handling _ | .releasing | .ended true => 1
  | _ => 0

/-- The permits that `stop` has added. -/
def stopPermits : ControlPc → Nat
  | .joining | .closing | .stopped => 1
  | _ => 0

variable {Thread : Type} [Fintype Thread]

def Ledger (s : State Thread) : Prop :=
  s.poll ≠ .escaped →
    s.requestCounter + headcount announcing s.senders + inHand s.poll =
      s.requestQueue.length + stopPermits s.control

theorem ledger_start (config : RmsConfig.Config) : Ledger (start config : State Thread) := by
  have silent : headcount announcing (fun _ : Thread => SenderPc.idle) = 0 :=
    headcount_eq_zero fun _ => rfl
  simp [Ledger, silent, start, inHand, stopPermits]

section Steps

variable {s t : State Thread}

theorem ledger_control (moves : ControlMoves s t) (started : Started s) (ledger : Ledger s) :
    Ledger t := by
  cases moves with
  | start here =>
    have idle := started.starting here
    have unset := started.unset (by simp [PollPc.Stored, idle])
    intro _
    simpa [idle, unset, here, inHand, stopPermits] using ledger (by simp [idle])
  | clear here | join here | close here =>
    intro alive
    simpa [here, stopPermits] using ledger alive
  | release here =>
    intro alive
    have balance := ledger alive
    simp only [here, stopPermits] at balance ⊢
    omega

variable [DecidableEq Thread]

theorem announcers_setSender {u : Thread} {old new : SenderPc} (here : s.senders u = old)
    (before : announcing old = false) (after : announcing new = false) :
    headcount announcing (s.setSender u new).senders = headcount announcing s.senders :=
  headcount_update_of_eq (by rw [here, before, after])

theorem ledger_sender {e : Event Thread} (moves : SenderMoves s e t) (ledger : Ledger s) :
    Ledger t := by
  intro alive
  cases moves with
  | call u type req here | notify u id time here | lock u last req here =>
    show s.requestCounter + headcount announcing (s.setSender u _).senders + _ = _
    rw [announcers_setSender here rfl]
    · exact ledger alive
    · rfl
  | push u last req here =>
    have balance := ledger alive
    have count := headcount_update announcing s.senders u (.releasing last)
    rw [here] at count
    simp only [State.push, State.setSender, List.length_append, List.length_singleton]
    simp only [announcing, Bool.toNat_false, Bool.toNat_true] at count
    omega
  | release u last here =>
    have balance := ledger alive
    have count := headcount_update announcing s.senders u (if last then .finished else .idle)
    have quiet : announcing (if last then .finished else .idle) = false := by cases last <;> rfl
    rw [here, quiet] at count
    simp only [State.setSender]
    simp only [announcing, Bool.toNat_false, Bool.toNat_true] at count
    omega

theorem ledger_poll {answer : Answer Thread} (moves : PollMoves s answer t) (ledger : Ledger s) :
    Ledger t := by
  intro alive
  cases moves with
  | store here | again here | enter here | lock here =>
    simpa [here, inHand] using ledger (by simp [here])
  | @handshake again pc _ _ here h =>
    have balance := ledger (by simp [here])
    cases handshakeStep_moves h with
    | stays pc => simpa [here, inHand] using balance
    | leaves result | renames id =>
      cases again <;> simpa [State.leaveHandshake, here, inHand] using balance
    | escapes => exact absurd rfl alive
  | loopTest here | flagTest here | retryTest here =>
    have balance := ledger (by simp [here])
    cases hf : s.pollRequests <;> simpa [here, hf, inHand] using balance
  | acquire here positive =>
    have balance := ledger (by simp [here])
    simp only [here, inHand] at balance ⊢
    omega
  | send here first h =>
    have balance := ledger (by simp [here])
    cases sendTcpRequest_moves h <;> simpa [here, inHand] using balance
  | skip here first =>
    have balance := ledger (by simp [here])
    simp only [here, first, State.pop, inHand, List.length_cons] at balance ⊢
    omega
  | pop here first =>
    have balance := ledger (by simp [here])
    simp only [here, first, State.pop, inHand, List.length_cons] at balance ⊢
    omega
  | handle here h =>
    have balance := ledger (by simp [here])
    cases handleResponseData_moves h with
    | handled => simpa [here, inHand] using balance
    | escapes => exact absurd rfl alive
    | executes u id executors idle =>
      show s.requestCounter + headcount announcing (s.setSender u _).senders + 1 = _
      rw [announcers_setSender idle rfl]
      · simpa [here, inHand] using balance
      · rfl
  | release here =>
    have balance := ledger (by simp [here])
    simp only [here, inHand] at balance ⊢
    omega

/-- Every step keeps the ledger. -/
theorem step_ledger {e : Event Thread} (started : Started s) (ledger : Ledger s)
    (h : step s e = some t) : Ledger t := by
  obtain ⟨-, moves⟩ := step_moves h
  cases moves with
  | control moves => exact ledger_control moves started ledger
  | sender moves => exact ledger_sender moves ledger
  | poll moves => exact ledger_poll moves ledger

end Steps

section Maximum

variable [DecidableEq Thread]

/-- The steps that call `release`. -/
def Releases (s : State Thread) : Event Thread → Prop
  | .control => s.control = .releasing
  | .sender t => announcing (s.senders t) = true
  | .poll _ => s.poll = .releasing
  | .call _ _ _ | .notifyEnd _ _ => False

instance decidableReleases (s : State Thread) (e : Event Thread) : Decidable (Releases s e) := by
  cases e <;> unfold Releases <;> infer_instance

/-- The precondition of `release` for a semaphore whose maximum is one. -/
def AtZero (s : State Thread) (e : Event Thread) : Prop := Releases s e → s.requestCounter = 0

instance decidableAtZero (s : State Thread) (e : Event Thread) : Decidable (AtZero s e) :=
  inferInstanceAs (Decidable (Releases s e → s.requestCounter = 0))

/-- Each request in the queue is still to be announced, or it is the one that
the poll thread has a permit for. -/
def NothingPending (s : State Thread) (e : Event Thread) : Prop :=
  Releases s e →
    s.requestQueue.length + stopPermits s.control ≤
      headcount announcing s.senders + inHand s.poll

/-- Over any run of any number of threads, every release finds the counter at
zero exactly if no announced request is waiting at any of them. -/
theorem atZero_iff_nothingPending (config : RmsConfig.Config) {es : List (Event Thread)}
    {s : State Thread} (arrives : run step (start config) es = some s) :
    Guarded step AtZero (start config) es ↔ Guarded step NothingPending (start config) es := by
  refine guarded_iff (fun s => Started s ∧ Ledger s)
    (fun s e t inv _ h => ⟨step_started s e t inv.1 h, step_ledger inv.1 inv.2 h⟩) ?_
    ⟨started_start config, ledger_start config⟩ arrives
  intro s e t inv h
  have balance := inv.2 (step_moves h).1
  exact imp_congr_right fun _ => by omega

/-- Two producers push and release before the poll thread has taken a permit. -/
def twoProducers : List (Event Bool) := sends true {} ++ sends false {}

theorem twoProducers_not_atZero :
    (run step (start RmsConfig.unregistered) twoProducers).isSome = true ∧
      ¬ Guarded step AtZero (start RmsConfig.unregistered) twoProducers := by
  decide

theorem oneProducer_atZero_iff :
    Guarded step AtZero (start RmsConfig.unregistered) (sends true {}) ↔
      Guarded step NothingPending (start RmsConfig.unregistered) (sends true {}) :=
  atZero_iff_nothingPending RmsConfig.unregistered
    (s := (run step (start RmsConfig.unregistered) (sends true {})).get (by decide))
    (Option.some_get _).symm

end Maximum

section Front

/-- The poll thread is between the flag test and the end of the loop's body. -/
def HasFront : PollPc Thread → Prop
  | .locking | .sending | .handling _ | .releasing | .handshakeTCP true _
  | .retryTest => True
  | _ => False

/-- `stop` stores `false` only after the poll thread has stored `true`. -/
def StoredFirst (s : State Thread) (e : Event Thread) : Prop :=
  match e with
  | .control => s.control = .running → s.poll.Stored
  | _ => True

instance decidableStoredFirst (s : State Thread) (e : Event Thread) :
    Decidable (StoredFirst s e) := by
  unfold StoredFirst
  split <;> infer_instance

/-- Whoever is past the flag test has its request at the front of the queue. -/
structure Fronted (s : State Thread) : Prop where
  started : Started s
  ledger : Ledger s
  stopping : s.control.Stopping → s.poll.Stored ∧ s.pollRequests = false
  front : HasFront s.poll → s.requestQueue ≠ []

theorem fronted_start (config : RmsConfig.Config) : Fronted (start config : State Thread) :=
  ⟨started_start config, ledger_start config, False.elim, False.elim⟩

theorem fronted_control {s t : State Thread} (hs : Fronted s) (stored : StoredFirst s .control)
    (moves : ControlMoves s t) : Fronted t := by
  have started := moves.started hs.started
  have ledger := ledger_control moves hs.started hs.ledger
  cases moves with
  | start here =>
    have idle := hs.started.starting here
    have unset := hs.started.unset (by simp [PollPc.Stored, idle])
    refine ⟨started, ledger, False.elim, ?_⟩
    simp [unset, HasFront]
  | clear here => exact ⟨started, ledger, fun _ => ⟨stored here, rfl⟩, hs.front⟩
  | release here | join here | close here =>
    exact ⟨started, ledger, fun _ => hs.stopping (by simp [here, ControlPc.Stopping]), hs.front⟩

/-- A permit that is in hand while `stop` has not begun is one of a request. -/
theorem queue_ne_nil_of_flag {s : State Thread} (hs : Fronted s) (here : s.poll = .flagTest)
    (flag : s.pollRequests = true) : s.requestQueue ≠ [] := by
  have running : ¬ s.control.Stopping := fun stopping => by simp [hs.stopping stopping] at flag
  have noPermit : stopPermits s.control = 0 := by
    cases hc : s.control with
    | starting | running | releasing => rfl
    | joining | closing | stopped => exact absurd (by simp [hc, ControlPc.Stopping]) running
  have balance := hs.ledger (by simp [here])
  simp only [here, inHand, noPermit] at balance
  rw [← List.length_pos_iff]
  omega

variable [DecidableEq Thread]

theorem fronted_sender {s t : State Thread} {e : Event Thread} (hs : Fronted s)
    (moves : SenderMoves s e t) : Fronted t := by
  have started := moves.started hs.started
  have ledger := ledger_sender moves hs.ledger
  cases moves with
  | push u last req here => exact ⟨started, ledger, hs.stopping, fun _ => by simp [State.push]⟩
  | call | notify | lock | release => exact ⟨started, ledger, hs.stopping, hs.front⟩

theorem front_poll {s t : State Thread} {answer : Answer Thread} (hs : Fronted s)
    (moves : PollMoves s answer t) : HasFront t.poll → t.requestQueue ≠ [] := by
  cases moves with
  | store | again | enter | acquire | skip | pop => exact False.elim
  | @handshake again pc _ _ here h =>
    have front (holds : again = true) : s.requestQueue ≠ [] :=
      hs.front (by simp [here, holds, HasFront])
    cases again with
    | true =>
      have kept := front rfl
      cases handshakeStep_moves h <;> exact fun _ => kept
    | false => cases handshakeStep_moves h <;> exact False.elim
  | loopTest here => cases s.pollRequests <;> exact False.elim
  | retryTest here => cases s.pollRequests <;> exact False.elim
  | flagTest here =>
    by_cases flag : s.pollRequests = true
    · have front := queue_ne_nil_of_flag hs here flag
      exact fun _ => front
    · simp [flag, HasFront]
  | lock here | release here =>
    exact fun _ => hs.front (by simp [here, HasFront])
  | send here first h =>
    have front := hs.front (by simp [here, HasFront])
    cases sendTcpRequest_moves h <;> exact fun _ => front
  | handle here h =>
    have front := hs.front (by simp [here, HasFront])
    cases handleResponseData_moves h <;> exact fun _ => front

theorem step_fronted (s : State Thread) (e : Event Thread) (t : State Thread) (hs : Fronted s)
    (stored : StoredFirst s e) (h : step s e = some t) : Fronted t := by
  obtain ⟨-, moves⟩ := step_moves h
  cases moves with
  | control moves => exact fronted_control hs stored moves
  | sender moves => exact fronted_sender hs moves
  | poll moves =>
    refine ⟨moves.started hs.started, ledger_poll moves hs.ledger, fun stopping => ?_,
      front_poll hs moves⟩
    obtain ⟨here, control, -, flag⟩ := moves.frame
    obtain ⟨before, cleared⟩ := hs.stopping (control ▸ stopping)
    obtain ⟨storing, -⟩ | ⟨-, kept⟩ := flag
    · simp [storing, PollPc.Stored] at before
    · exact ⟨here, kept.trans cleared⟩

/-- Where `stop` comes after the poll thread's own store, the poll thread never
takes the front of an empty queue. -/
theorem storedFirst_run_front (config : RmsConfig.Config) {es : List (Event Thread)}
    {s : State Thread} (arrives : run step (start config) es = some s)
    (stored : Guarded step StoredFirst (start config) es) :
    ¬ (s.poll = .sending ∧ s.requestQueue = []) := by
  rintro ⟨here, empty⟩
  have fronted := run_invariant step_fronted (fronted_start config) stored arrives
  exact fronted.front (by simp [here, HasFront]) empty

/-- `stop` clears the flag before the poll thread sets it, and its permit is
taken for a request. -/
def stoppedAtOnce : List (Event Unit) :=
  [.control, .control] ++ connects 1 ++ [.control, .poll .quiet, .poll .quiet, .poll .quiet]

theorem stoppedAtOnce_takes_front :
    (run step (start RmsConfig.unregistered) stoppedAtOnce).any
      (fun s => decide (s.poll = .sending ∧ s.requestQueue = [])) = true := by
  decide

/-- One request is taken, and then `stop` is called. -/
def stoppedLater : List (Event Unit) :=
  [.control] ++ connects 1 ++ sends () {} ++
    [.poll .quiet, .poll .quiet, .poll .quiet, .control, .control]

theorem stoppedLater_front :
    ¬ (((run step (start RmsConfig.unregistered) stoppedLater).get (by decide)).poll = .sending ∧
      ((run step (start RmsConfig.unregistered) stoppedLater).get (by decide)).requestQueue = []) :=
  storedFirst_run_front RmsConfig.unregistered (Option.some_get _).symm (by decide)

end Front

end RequestPermits
