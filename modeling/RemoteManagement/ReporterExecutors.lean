import RemoteManagement.RequestClient

/-!
# The executors of the reporter

The poll thread starts an executor while it holds the mutex of the queue, and the
executor's thread ends in `sendRequest`. If the poll thread joined it there, both
would wait for ever. It does not, though it gives up an executor whose id is in
the map already.
-/

namespace ReporterExecutors

open ThriftTypes GuardedRun RequestClient

/-- The executor's thread is yet to lock the mutex. -/
def Unnotified : SenderPc → Prop
  | .running _ | .locking _ _ => True
  | _ => False

variable {Thread : Type}

/-- The poll thread is between the lock and the unlock of the mutex. -/
def Holds : PollPc Thread → Prop
  | .sending | .handling _ | .releasing | .handshakeTCP true _ | .retryTest => True
  | _ => False

def Pushing : SenderPc → Prop
  | .pushing _ _ => True
  | _ => False

/-- Whoever is between the lock and the unlock of the mutex has it. -/
structure Locked (s : State Thread) : Prop where
  poll : Holds s.poll → s.mtx = some .poll
  senders : ∀ t, Pushing (s.senders t) → s.mtx = some (.sender t)

theorem locked_start (config : RmsConfig.Config) : Locked (start config : State Thread) :=
  ⟨False.elim, fun _ => False.elim⟩

theorem locked_control {s t : State Thread} (hs : Locked s) (moves : ControlMoves s t) :
    Locked t := by
  cases moves with
  | start here =>
    refine ⟨fun holds => ?_, hs.senders⟩
    by_cases flag : s.pollRequests = true
    · exact hs.poll (by simpa [flag] using holds)
    · simp [flag, Holds] at holds
  | clear | release | join | close => exact ⟨hs.poll, hs.senders⟩

variable [DecidableEq Thread]

/-- A thread that is made to push nothing leaves the others as they were. -/
theorem pushing_setSender {s : State Thread} (hs : Locked s) {u : Thread} {pc : SenderPc}
    {v : Thread} (h : Pushing ((s.setSender u pc).senders v)) (quiet : ¬ Pushing pc) :
    v ≠ u ∧ s.mtx = some (.sender v) := by
  by_cases hv : v = u
  · subst hv
    exact absurd (by simpa [State.setSender] using h) quiet
  · exact ⟨hv, hs.senders v (by simpa [State.setSender, hv] using h)⟩

theorem locked_sender {s t : State Thread} {e : Event Thread} (hs : Locked s)
    (moves : SenderMoves s e t) : Locked t := by
  cases moves with
  | call u type req here | notify u id time here =>
    exact ⟨hs.poll, fun v h => (pushing_setSender hs h not_false).2⟩
  | release u last here =>
    have quiet : ¬ Pushing (if last then SenderPc.finished else .idle) := by
      cases last <;> exact id
    exact ⟨hs.poll, fun v h => (pushing_setSender hs h quiet).2⟩
  | lock u last req here free =>
    refine ⟨fun holds => absurd (hs.poll holds) (by simp [free]), fun v h => ?_⟩
    by_cases hv : v = u
    · exact hv ▸ rfl
    · have other := hs.senders v (by simpa [State.setSender, hv] using h)
      exact absurd (free.symm.trans other) nofun
  | push u last req here =>
    have owner := hs.senders u (by simp [here, Pushing])
    refine ⟨fun holds => absurd (owner.symm.trans (hs.poll holds)) nofun, fun v h => ?_⟩
    obtain ⟨hv, other⟩ := pushing_setSender hs h not_false
    exact absurd (owner.symm.trans other) (by simpa using Ne.symm hv)

theorem locked_poll {s t : State Thread} {answer : Answer Thread} (hs : Locked s)
    (moves : PollMoves s answer t) : Locked t := by
  -- while the poll thread has the mutex no sender does
  have alone (holds : Holds s.poll) (v : Thread) : ¬ Pushing (s.senders v) :=
    fun h => absurd ((hs.poll holds).symm.trans (hs.senders v h)) nofun
  cases moves with
  | store | again | enter | acquire => exact ⟨False.elim, hs.senders⟩
  | loopTest | flagTest =>
    refine ⟨?_, hs.senders⟩
    cases s.pollRequests <;> exact False.elim
  | @handshake again pc _ _ here h =>
    have mutex (held : again = true) : s.mtx = some .poll :=
      hs.poll (by simp [here, held, Holds])
    cases handshakeStep_moves h with
    | escapes => exact ⟨False.elim, hs.senders⟩
    | stays | leaves | renames =>
      refine ⟨?_, hs.senders⟩
      cases again
      · exact False.elim
      · exact fun _ => mutex rfl
  | lock here free =>
    exact ⟨fun _ => rfl, fun v h => absurd (free.symm.trans (hs.senders v h)) nofun⟩
  | send here first h =>
    have mutex := hs.poll (by simp [here, Holds])
    cases sendTcpRequest_moves h <;> exact ⟨fun _ => mutex, hs.senders⟩
  | skip here | pop here =>
    exact ⟨False.elim, fun v h => absurd h (alone (by simp [here, Holds]) v)⟩
  | retryTest here =>
    refine ⟨?_, fun v h => absurd h (alone (by simp [here, Holds]) v)⟩
    cases s.pollRequests <;> exact False.elim
  | release here =>
    have mutex := hs.poll (by simp [here, Holds])
    exact ⟨fun _ => mutex, hs.senders⟩
  | handle here h =>
    have mutex := hs.poll (by simp [here, Holds])
    cases handleResponseData_moves h with
    | escapes => exact ⟨False.elim, hs.senders⟩
    | handled => exact ⟨fun _ => mutex, hs.senders⟩
    | executes u id executors idle =>
      exact ⟨fun _ => mutex, fun v h => (pushing_setSender hs h not_false).2⟩

theorem step_locked (s : State Thread) (e : Event Thread) (t : State Thread) (hs : Locked s)
    (h : step s e = some t) : Locked t := by
  obtain ⟨-, moves⟩ := step_moves h
  cases moves with
  | control moves => exact locked_control hs moves
  | sender moves => exact locked_sender hs moves
  | poll moves => exact locked_poll hs moves

section Joining

/-- The poll thread waits for the end of a thread: it cannot go on now, and could
if that thread had finished. -/
def Joins (s : State Thread) (u : Thread) : Prop :=
  ∃ answer, pollStep s answer = none ∧ (pollStep (s.setSender u .finished) answer).isSome = true

/-- The poll thread has the mutex and joins a thread that needs it to finish. -/
def WaitCycle (s : State Thread) : Prop :=
  s.mtx = some .poll ∧ ∃ u, Unnotified (s.senders u) ∧ Joins s u

variable {s : State Thread} {u : Thread} {answer : Answer Thread}

theorem handshakeStep_of_finished {t : State Thread} {again : Bool} {pc : HandshakePc}
    (h : handshakeStep (s.setSender u .finished) again pc answer = some t) :
    (handshakeStep s again pc answer).isSome = true := by
  unfold handshakeStep at h ⊢
  split at h
  · rw [Option.ite_none_left_eq_some] at h
    have sets : ¬ (RmsConfig.find s.config RmsConfig.serverPort = "" ∨
        RmsConfig.find s.config RmsConfig.serverIp = "") := h.1
    rw [if_neg sets]
    cases RmsConfig.findLong s.config RmsConfig.serverPort <;> rfl
  · rfl
  · rfl
  · rfl
  · cases RmsConfig.findLong s.config RmsConfig.computerId <;> rfl
  · rfl
  · rfl
  · cases h

/-- A new executor gets a thread that was idle, and no thread has to end. -/
theorem handleResponseData_of_finished {t : State Thread} {resData : RmsResponseData}
    {rest : List RmsResponseData}
    (h : handleResponseData (s.setSender u .finished) resData rest answer = some t) :
    (handleResponseData s resData rest answer).isSome = true := by
  unfold handleResponseData at h ⊢
  split at h
  · rfl
  · rename_i v _
    rw [runCommand, Option.ite_none_right_eq_some] at h
    have idle : s.senders v = .idle := by
      by_cases hv : v = u
      · simp [State.setSender, hv] at h
      · simpa [State.setSender, hv] using h.1
    simp [runCommand, idle]
  · rfl
  · cases h

theorem pollStep_of_finished (h : (pollStep (s.setSender u .finished) answer).isSome = true) :
    (pollStep s answer).isSome = true := by
  obtain ⟨t, moves⟩ := Option.isSome_iff_exists.mp h
  cases pollStep_moves moves with
  | store here | again here | enter here | loopTest here | flagTest here | release here
  | retryTest here =>
    rw [setSender_poll] at here
    simp [pollStep, here]
  | acquire here positive =>
    rw [setSender_poll] at here
    rw [setSender_requestCounter] at positive
    simp [pollStep, here, positive]
  | lock here free =>
    rw [setSender_poll] at here
    rw [setSender_mtx] at free
    simp [pollStep, here, free]
  | handshake here moves =>
    rw [setSender_poll] at here
    simp only [pollStep, here]
    exact handshakeStep_of_finished moves
  | send here first moves =>
    rw [setSender_poll] at here
    rw [setSender_requestQueue] at first
    simp only [pollStep, here, first]
    cases sendTcpRequest_moves moves <;> cases answer <;> first | rfl | cases moves
  | skip here first other =>
    rename_i type _ _
    rw [setSender_poll] at here
    rw [setSender_requestQueue] at first
    cases type with
    | kTCP => exact absurd rfl other
    | kHTTP | kLOG => simp [pollStep, here, first]
  | handle here moves =>
    rw [setSender_poll] at here
    simp only [pollStep, here]
    exact handleResponseData_of_finished moves
  | pop here first =>
    rw [setSender_poll] at here
    rw [setSender_requestQueue] at first
    simp [pollStep, here, first]

theorem not_joins (s : State Thread) (u : Thread) : ¬ Joins s u := by
  rintro ⟨answer, waits, goes⟩
  have goes := pollStep_of_finished goes
  rw [waits] at goes
  cases goes

/-- The next response is handled at once, in a thread at hand if it is a command. -/
theorem handling_goes {resData : RmsResponseData} {rest : List RmsResponseData}
    (here : s.poll = .handling (resData :: rest)) (idle : s.senders u = .idle) :
    ∃ answer t, step s (.poll answer) = some t ∧ t.poll = .handling rest := by
  cases type : resData.dataType with
  | kSendSystemInfo =>
    exact ⟨.sysInfoSent true, { s with poll := .handling rest },
      by simp [step, threadStep, pollStep, handleResponseData, here, type], rfl⟩
  | kRunCommand =>
    let started := s.setSender u (.running resData.data.command.id)
    let executors := if resData.data.command.id ∈ s.executors then s.executors
      else resData.data.command.id :: s.executors
    exact ⟨.executing u, { started with executors := executors, poll := .handling rest },
      by simp [step, threadStep, pollStep, handleResponseData, here, type, runCommand, idle,
        started, executors], rfl⟩
  | kRunScript =>
    exact ⟨.quiet, { s with poll := .handling rest },
      by simp [step, threadStep, pollStep, handleResponseData, here, type], rfl⟩

/-- In any run, whatever ids the commands have, the poll thread never joins an
executor that waits for its mutex, and it can always handle the next response. -/
theorem run_no_waitCycle (config : RmsConfig.Config) {es : List (Event Thread)}
    (arrives : run step (start config) es = some s) :
    ¬ WaitCycle s ∧ ∀ resData rest, s.poll = .handling (resData :: rest) →
      s.mtx = some .poll ∧ ∀ u, s.senders u = .idle →
        ∃ answer t, step s (.poll answer) = some t ∧ t.poll = .handling rest := by
  have locked : Locked s := run_preserves step_locked (locked_start config) arrives
  refine ⟨fun ⟨_, u, _, joins⟩ => not_joins s u joins, fun resData rest here => ?_⟩
  exact ⟨locked.poll (by simp [here, Holds]), fun u idle => handling_goes here idle⟩

end Joining

/-- A consumer's request is answered by two commands of one id. -/
def repeatedId : List (Event (Option Bool)) :=
  .control :: connects 1 ++ sends none {} ++
    takes (.replied [{ dataType := .kRunCommand, data := { command := { id := 1 } } },
      { dataType := .kRunCommand, data := { command := { id := 1 } } }]) ++
    [.poll (.executing (some true))]

theorem repeatedId_no_waitCycle :
    ∃ s : State (Option Bool), run step (start RmsConfig.unregistered) repeatedId = some s ∧
      1 ∈ s.executors ∧
      ¬ WaitCycle s ∧ ∀ resData rest, s.poll = .handling (resData :: rest) →
        s.mtx = some .poll ∧ ∀ u, s.senders u = .idle →
          ∃ answer t, step s (.poll answer) = some t ∧ t.poll = .handling rest := by
  have ends : (run step (start RmsConfig.unregistered) repeatedId).any
      (fun s => decide (1 ∈ s.executors)) = true := by
    decide
  obtain ⟨s, arrives, held⟩ := (Option.any_eq_true _ _).mp ends
  exact ⟨s, arrives, of_decide_eq_true held, run_no_waitCycle RmsConfig.unregistered arrives⟩

end ReporterExecutors
