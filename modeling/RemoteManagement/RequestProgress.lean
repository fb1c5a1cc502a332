import RemoteManagement.RequestProtocols
import RemoteManagement.RequestPermits
import RemoteManagement.RequestFailures
import RemoteManagement.ReporterExecutors
import RemoteManagement.Library.Potential

/-!
# Progress of the request client

Until `stop` is called, a step of any thread uses up work that calls, failures
and responses bring in, so the threads come to rest unless these go on for ever.
Where none of them can take a step, every request has left the queue.
-/

namespace RequestProgress

open ThriftTypes GuardedRun RequestClient AtLeastOnce Potential Headcount
open RequestPermits RequestProtocols ReporterExecutors
open RequestFailures (SetsServer step_setsServer handshake_lasts)

variable {Thread : Type}

section Mutex

/-- Only who is between the lock and the unlock of the mutex has it. -/
structure Owned (s : State Thread) : Prop where
  poll : s.mtx = some .poll → Holds s.poll ∨ s.poll = .escaped
  senders : ∀ t, s.mtx = some (.sender t) → Pushing (s.senders t)

theorem owned_start (config : RmsConfig.Config) : Owned (start config : State Thread) :=
  ⟨nofun, nofun⟩

theorem owned_of_unlocked {s : State Thread} (free : s.mtx = none) : Owned s := by
  refine ⟨fun mutex => ?_, fun v mutex => ?_⟩ <;> simp [free] at mutex

theorem owned_control {s t : State Thread} (hs : Owned s) (started : Started s)
    (moves : ControlMoves s t) : Owned t := by
  cases moves with
  | start here =>
    refine ⟨fun mutex => ?_, hs.senders⟩
    have holds := hs.poll mutex
    simp [started.starting here, Holds] at holds
  | clear | release | join | close => exact ⟨hs.poll, hs.senders⟩

variable [DecidableEq Thread]

/-- A thread outside the lock moves, and whoever has the mutex stays where it is. -/
theorem Owned.setSender {s : State Thread} (hs : Owned s) {u : Thread} (pc : SenderPc)
    (outside : ¬ Pushing (s.senders u)) (v : Thread) (mutex : s.mtx = some (.sender v)) :
    Pushing ((s.setSender u pc).senders v) := by
  have kept := hs.senders v mutex
  have hv : v ≠ u := by
    rintro rfl
    exact outside kept
  simpa [State.setSender, hv] using kept

theorem owned_sender {s t : State Thread} {e : Event Thread} (hs : Owned s)
    (moves : SenderMoves s e t) : Owned t := by
  cases moves with
  | call u type req here | notify u id time here | release u last here =>
    exact ⟨hs.poll, hs.setSender _ (by simp [here, Pushing])⟩
  | lock u last req here free =>
    refine ⟨by simp, fun v mutex => ?_⟩
    obtain rfl : u = v := by simpa using mutex
    simp [State.setSender, Pushing]
  | push u last req here => exact owned_of_unlocked rfl

omit [DecidableEq Thread] in
/-- A step that leaves the mutex alone, into a place that has it if the old one did. -/
theorem Owned.of_eq {s t : State Thread} (hs : Owned s) (mtx : t.mtx = s.mtx)
    (senders : t.senders = s.senders) (holds : Holds s.poll → Holds t.poll ∨ t.poll = .escaped)
    (alive : s.poll ≠ .escaped) : Owned t := by
  refine ⟨fun mutex => ?_, fun v mutex => ?_⟩
  · exact (hs.poll (mtx ▸ mutex)).elim holds (fun escaped => absurd escaped alive)
  · exact senders ▸ hs.senders v (mtx ▸ mutex)

theorem owned_poll {s t : State Thread} {answer : Answer Thread} (hs : Owned s)
    (moves : PollMoves s answer t) : Owned t := by
  cases moves with
  | store here | again here | enter here | acquire here | loopTest here | flagTest here =>
    exact hs.of_eq rfl rfl (by simp [here, Holds]) (by simp [here])
  | @handshake again pc _ _ here h =>
    cases handshakeStep_moves h with
    | escapes => exact hs.of_eq rfl rfl (fun _ => Or.inr rfl) (by simp [here])
    | stays | leaves | renames =>
      refine hs.of_eq rfl rfl (fun holds => Or.inl ?_) (by simp [here])
      rw [here] at holds
      cases again
      · exact holds.elim
      · exact trivial
  | lock here free => exact ⟨fun _ => Or.inl trivial, by simp⟩
  | send here first h =>
    cases sendTcpRequest_moves h <;>
      exact hs.of_eq rfl rfl (fun _ => Or.inl trivial) (by simp [here])
  | skip here | pop here | retryTest here => exact owned_of_unlocked rfl
  | release here => exact hs.of_eq rfl rfl (fun _ => Or.inl trivial) (by simp [here])
  | handle here h =>
    cases handleResponseData_moves h with
    | handled => exact hs.of_eq rfl rfl (fun _ => Or.inl trivial) (by simp [here])
    | escapes => exact hs.of_eq rfl rfl (fun _ => Or.inr rfl) (by simp [here])
    | executes u id executors idle =>
      exact ⟨fun _ => Or.inl trivial, hs.setSender _ (by simp [idle, Pushing])⟩

theorem step_owned {s t : State Thread} {e : Event Thread} (hs : Owned s) (started : Started s)
    (h : step s e = some t) : Owned t := by
  obtain ⟨-, moves⟩ := step_moves h
  cases moves with
  | control moves => exact owned_control hs started moves
  | sender moves => exact owned_sender hs moves
  | poll moves => exact owned_poll hs moves

end Mutex

section Serving

/-- The poll thread between `start` and `stop`. -/
structure Serving (poll : PollPc Thread) : Prop where
  begun : poll ≠ .idle
  lasting : ∀ permit, poll ≠ .ended permit
  shaken : ∀ result, poll = .handshaken result → result = 0

/-- The first place, the last ones and the return of a handshake are left out. -/
def working : PollPc Thread → Bool
  | .idle | .ended _ | .handshaken _ => false
  | .storing | .handshakeTCP _ _ | .loopTest | .acquiring | .flagTest | .locking | .sending
  | .handling _ | .releasing | .retryTest | .escaped => true

theorem serving_of_working {poll : PollPc Thread} (works : working poll = true) :
    Serving poll := by
  refine ⟨?_, fun permit => ?_, fun result => ?_⟩ <;>
    · rintro rfl
      cases works

/-- While the flag is set a handshake returns zero or escapes. -/
theorem handshake_serving {s t : State Thread} {again : Bool} {pc : HandshakePc}
    {answer : Answer Thread} (flag : s.pollRequests = true)
    (h : handshakeStep s again pc answer = some t) : Serving t.poll := by
  have moves := handshakeStep_moves h
  refine ⟨fun idle => ?_, handshake_lasts moves, fun result shaken => ?_⟩
  · have stored := moves.frame.1
    rw [idle] at stored
    exact stored
  · unfold handshakeStep at h
    split at h
    · rw [Option.ite_none_left_eq_some] at h
      obtain ⟨-, h⟩ := h
      split at h <;> cases h <;> cases shaken
    · cases h
      cases shaken
    · cases h
      cases shaken
    · rw [flag, if_pos rfl] at h
      cases h
      cases shaken
    · split at h <;> cases h <;> cases shaken
    · cases h
      cases shaken
    · cases h
      cases again
      · exact (PollPc.handshaken.inj shaken).symm
      · cases shaken
    · cases h

variable [DecidableEq Thread]

theorem poll_serving {s t : State Thread} {answer : Answer Thread} (started : Started s)
    (running : s.control = .running) (moves : PollMoves s answer t) : Serving t.poll := by
  have flag (stored : s.poll.Stored) : s.pollRequests = true :=
    started.polling stored (by simp [running, ControlPc.Stopping])
  cases moves with
  | store | again | enter | acquire | lock | skip | pop | release =>
    exact serving_of_working rfl
  | handshake here h => exact handshake_serving (flag (by simp [here, PollPc.Stored])) h
  | loopTest here | flagTest here | retryTest here =>
    simp only [flag (by simp [here, PollPc.Stored])]
    exact serving_of_working rfl
  | send here first h => cases sendTcpRequest_moves h <;> exact serving_of_working rfl
  | handle here h => cases handleResponseData_moves h <;> exact serving_of_working rfl

theorem step_serving {s t : State Thread} {e : Event Thread} (started : Started s)
    (hs : s.control = .running → Serving s.poll) (h : step s e = some t)
    (running : t.control = .running) : Serving t.poll := by
  obtain ⟨-, moves⟩ := step_moves h
  cases moves with
  | control moves =>
    cases moves with
    | start here =>
      have unset := started.unset (by simp [PollPc.Stored, started.starting here])
      simp only [unset]
      exact serving_of_working rfl
    | clear | release | join | close => cases running
  | sender moves => cases moves <;> exact hs running
  | poll moves => exact poll_serving started (moves.frame.2.1 ▸ running) moves

end Serving

section Invariant

variable [Fintype Thread]

structure Sound (s : State Thread) : Prop where
  started : Started s
  ledger : Ledger s
  locked : Locked s
  owned : Owned s
  delivering : Delivering s
  sets : SetsServer s.config
  serving : s.control = .running → Serving s.poll

theorem sound_start {config : RmsConfig.Config} (sets : SetsServer config) :
    Sound (start config : State Thread) :=
  ⟨started_start config, ledger_start config, locked_start config, owned_start config,
    delivering_start config, sets, nofun⟩

variable [DecidableEq Thread]

theorem step_sound (s : State Thread) (e : Event Thread) (t : State Thread) (hs : Sound s)
    (h : step s e = some t) : Sound t where
  started := step_started s e t hs.started h
  ledger := step_ledger hs.started hs.ledger h
  locked := step_locked s e t hs.locked h
  owned := step_owned hs.owned hs.started h
  delivering := (step_delivering s e t ⟨hs.started, hs.delivering⟩ h).2
  sets := step_setsServer hs.sets h
  serving := step_serving hs.started hs.serving h

end Invariant

section Work

/-- The steps a sender has before its end, and those that its permit gives to
the poll thread. -/
def senderWork : SenderPc → Nat
  | .idle | .running _ | .finished => 0
  | .locking _ _ => 9
  | .pushing _ _ => 8
  | .releasing _ => 7

def handshakeWork : HandshakePc → Nat
  | .socket => 8
  | .loopTest => 7
  | .opening => 6
  | .flagTest => 5
  | .readingId => 4
  | .calling _ => 3

/-- The steps of the poll thread before it waits at `acquire`, if nothing fails. -/
def pollWork : PollPc Thread → Nat
  | .idle | .acquiring | .ended _ | .escaped => 0
  | .storing => 9
  | .handshakeTCP _ pc => handshakeWork pc
  | .handshaken _ | .retryTest => 2
  | .loopTest => 1
  | .flagTest => 5
  | .locking => 4
  | .sending => 3
  | .handling rest => 2 + 2 * rest.length
  | .releasing => 15

/-- What an event brings in: a request to be sent, responses to be handled, a
connection to be opened again. -/
def income : Event Thread → Nat
  | .call _ _ _ | .notifyEnd _ _ => 10
  | .poll (.replied data) => 2 * data.length
  | .poll .lostRequest | .poll .lostReply => 13
  | .poll (.opened false) => 2
  | .poll _ | .sender _ | .control => 0

variable [Fintype Thread]

def work (s : State Thread) : Nat :=
  6 * s.requestCounter + load senderWork s.senders + pollWork s.poll

/-- A step of the poll thread that leaves the permits and the senders. -/
theorem work_lowers {s t : State Thread} {n : Nat} (counter : t.requestCounter = s.requestCounter)
    (senders : t.senders = s.senders) (lower : pollWork t.poll + 1 ≤ pollWork s.poll + n) :
    work t + 1 ≤ work s + n := by
  rw [work, work, counter, senders]
  omega

theorem handshake_lowers {s t : State Thread} {again : Bool} {pc : HandshakePc}
    {answer : Answer Thread} (flag : s.pollRequests = true)
    (here : s.poll = .handshakeTCP again pc) (h : handshakeStep s again pc answer = some t) :
    work t + 1 ≤ work s + income (.poll answer) := by
  have leaves (config : RmsConfig.Config) :
      pollWork ({ s with config := config }.leaveHandshake again 0).poll = 2 := by
    cases again <;> rfl
  unfold handshakeStep at h
  split at h
  · rw [Option.ite_none_left_eq_some] at h
    obtain ⟨-, h⟩ := h
    split at h <;> cases h <;>
      exact work_lowers rfl rfl (by simp [here, pollWork, handshakeWork, income])
  · cases h
    exact work_lowers rfl rfl (by simp [here, flag, pollWork, handshakeWork])
  · rename_i ok
    cases h
    refine work_lowers rfl rfl ?_
    cases ok <;> simp [here, pollWork, handshakeWork, income]
  · rw [flag, if_pos rfl] at h
    cases h
    exact work_lowers rfl rfl (by simp [here, pollWork, handshakeWork])
  · split at h <;> cases h <;>
      exact work_lowers rfl rfl (by simp [here, pollWork, handshakeWork, income])
  · cases h
    exact work_lowers rfl rfl (by simp [here, pollWork, handshakeWork, income])
  · cases h
    refine work_lowers rfl rfl ?_
    rw [leaves, here]
    exact Nat.le_add_right _ _
  · cases h

variable [DecidableEq Thread]

theorem sender_lowers {s t : State Thread} {e : Event Thread} (moves : SenderMoves s e t) :
    work t + 1 ≤ work s + income e := by
  cases moves with
  | call u type req here =>
    have sum := load_update senderWork s.senders u (.locking false (type, req))
    simp only [here, senderWork] at sum
    simp only [work, State.setSender, income]
    omega
  | notify u id time here =>
    have sum := load_update senderWork s.senders u (.locking true (.kTCP, notifyEnd id time))
    simp only [here, senderWork] at sum
    simp only [work, State.setSender, income]
    omega
  | lock u last req here =>
    have sum := load_update senderWork s.senders u (.pushing last req)
    simp only [here, senderWork] at sum
    simp only [work, State.setSender]
    omega
  | push u last req here =>
    have sum := load_update senderWork s.senders u (.releasing last)
    simp only [here, senderWork] at sum
    simp only [work, State.push, State.setSender]
    omega
  | release u last here =>
    have sum := load_update senderWork s.senders u (if last then .finished else .idle)
    have done : senderWork (if last then .finished else .idle) = 0 := by cases last <;> rfl
    simp only [here, done] at sum
    simp only [senderWork] at sum
    simp only [work, State.setSender]
    omega

theorem handle_lowers {s t : State Thread} {resData : RmsResponseData}
    {rest : List RmsResponseData} {n : Nat} (here : s.poll = .handling (resData :: rest))
    (moves : HandleMoves s rest t) : work t + 1 ≤ work s + n := by
  -- the thread of a new executor has nothing to send before its command has ended
  have started {u : Thread} (id : Int) (idle : s.senders u = .idle) :
      load senderWork (s.setSender u (.running id)).senders = load senderWork s.senders := by
    have sum := load_update senderWork s.senders u (.running id)
    rwa [idle] at sum
  cases moves with
  | handled | escapes =>
    refine work_lowers rfl rfl ?_
    rw [here]
    simp only [pollWork, List.length_cons]
    omega
  | executes u id executors idle =>
    have sum := started id idle
    simp only [State.setSender] at sum
    simp only [work, here, pollWork, List.length_cons, State.setSender, sum]
    omega

theorem poll_lowers {s t : State Thread} {answer : Answer Thread} (hs : Sound s)
    (running : s.control = .running) (h : pollStep s answer = some t) :
    work t + 1 ≤ work s + income (.poll answer) := by
  have flag (stored : s.poll.Stored) : s.pollRequests = true :=
    hs.started.polling stored (by simp [running, ControlPc.Stopping])
  cases pollStep_moves h with
  | store here => exact work_lowers rfl rfl (by simp [here, pollWork, handshakeWork])
  | @again result here =>
    obtain rfl := (hs.serving running).shaken result here
    simp [pollStep, here] at h
  | enter here | lock here => exact work_lowers rfl rfl (by simp [here, pollWork])
  | loopTest here | flagTest here | retryTest here =>
    have on := flag (by simp [here, PollPc.Stored])
    exact work_lowers rfl rfl (by simp [here, on, pollWork])
  | acquire here positive =>
    simp only [work, here, pollWork]
    omega
  | handshake here h => exact handshake_lowers (flag (by simp [here, PollPc.Stored])) here h
  | send here first h =>
    cases answer with
    | replied data =>
      cases h
      exact work_lowers rfl rfl (by simp only [here, pollWork, income]; omega)
    | lostRequest | lostReply =>
      cases h
      exact work_lowers rfl rfl (by simp [here, pollWork, income])
    | quiet | opened | handshaken | sysInfoSent | executing => cases h
  | skip here | pop here => exact work_lowers rfl rfl (by simp [here, State.pop, pollWork, income])
  | handle here h => exact handle_lowers here (handleResponseData_moves h)
  | release here =>
    simp only [work, here, pollWork, handshakeWork]
    omega

/-- The events that are steps of the client's own threads. -/
def OfThreads : Event Thread → Prop
  | .sender _ | .poll _ => True
  | .control | .call _ _ _ | .notifyEnd _ _ => False

end Work

section Rest

variable [DecidableEq Thread]

/-- A thread outside `sendRequest`. -/
def Outside : SenderPc → Prop
  | .idle | .running _ | .finished => True
  | .locking _ _ | .pushing _ _ | .releasing _ => False

variable {t : State Thread}

theorem sender_stuck (alive : t.poll ≠ .escaped) {u : Thread}
    (stuck : step t (.sender u) = none) : Outside (t.senders u) ∨
      ∃ last req, t.senders u = .locking last req ∧ t.mtx ≠ none := by
  have still : senderStep t u = none := by
    rw [step] at stuck
    split at stuck
    · contradiction
    · exact stuck
  cases here : t.senders u with
  | idle | running id | finished => exact Or.inl trivial
  | locking last req =>
    refine Or.inr ⟨last, req, rfl, fun free => ?_⟩
    simp [senderStep, here, free] at still
  | pushing last req | releasing last => simp [senderStep, here] at still

/-- What the poll thread waits for when no answer makes it take a step. -/
theorem poll_stuck {t : State Thread} (sets : SetsServer t.config) (serving : Serving t.poll)
    (alive : t.poll ≠ .escaped)
    (room : ∃ u, t.senders u = .idle)
    (fed : t.poll = .sending ∨ t.poll = .handling [] → t.requestQueue ≠ [])
    (stuck : ∀ answer, step t (.poll answer) = none) :
    t.poll = .acquiring ∧ t.requestCounter = 0 ∨ t.poll = .locking ∧ t.mtx ≠ none := by
  have still (answer : Answer Thread) : pollStep t answer = none := by
    have h := stuck answer
    rw [step] at h
    split at h
    · contradiction
    · exact h
  cases here : t.poll with
  | idle => exact absurd here serving.begun
  | ended permit => exact absurd here (serving.lasting permit)
  | escaped => exact absurd here alive
  | storing | loopTest | flagTest | releasing | retryTest | handshaken =>
    have h := still .quiet
    simp [pollStep, here] at h
  | acquiring =>
    have h := still .quiet
    simpa [pollStep, here] using h
  | locking =>
    have h := still .quiet
    simpa [pollStep, here] using h
  | handshakeTCP again pc =>
    cases pc with
    | socket =>
      have h := still .quiet
      simp only [pollStep, here, handshakeStep, sets.1, sets.2, or_self, if_false] at h
      split at h <;> cases h
    | loopTest | flagTest =>
      have h := still .quiet
      simp [pollStep, here, handshakeStep] at h
    | opening =>
      have h := still (.opened true)
      simp [pollStep, here, handshakeStep] at h
    | readingId =>
      have h := still .quiet
      simp only [pollStep, here, handshakeStep] at h
      split at h <;> cases h
    | calling n =>
      have h := still (.handshaken (some n))
      simp [pollStep, here, handshakeStep] at h
  | sending =>
    cases queue : t.requestQueue with
    | nil => exact absurd queue (fed (Or.inl here))
    | cons req rest =>
      obtain ⟨type, req⟩ := req
      cases type with
      | kTCP =>
        have h := still .lostRequest
        simp [pollStep, here, queue, sendTcpRequest] at h
      | kHTTP | kLOG =>
        have h := still .quiet
        simp [pollStep, here, queue] at h
  | handling rest =>
    cases rest with
    | nil =>
      have h := still .quiet
      cases queue : t.requestQueue with
      | nil => exact absurd queue (fed (Or.inr here))
      | cons req rest => simp [pollStep, here, queue] at h
    | cons resData rest =>
      obtain ⟨u, idle⟩ := room
      cases type : resData.dataType with
      | kSendSystemInfo =>
        have h := still (.sysInfoSent true)
        simp [pollStep, here, handleResponseData, type] at h
      | kRunCommand =>
        have h := still (.executing u)
        simp [pollStep, here, handleResponseData, type, runCommand, idle] at h
      | kRunScript =>
        have h := still .quiet
        simp [pollStep, here, handleResponseData, type] at h

variable [Fintype Thread]

omit [DecidableEq Thread] in
/-- Before `stop`, who has a permit in hand has a request in the queue. -/
theorem queue_ne_nil (hs : Sound t) (running : t.control = .running) (alive : t.poll ≠ .escaped)
    (inHand : 0 < inHand t.poll) : t.requestQueue ≠ [] := by
  have balance := hs.ledger alive
  rw [running] at balance
  simp only [stopPermits] at balance
  rw [← List.length_pos_iff]
  omega

/-- Where no thread can go on, nobody is in `sendRequest` and the queue is empty. -/
theorem rest_of_stuck (hs : Sound t) (running : t.control = .running)
    (alive : t.poll ≠ .escaped) (room : ∃ u, t.senders u = .idle)
    (stuck : ∀ e, OfThreads e → step t e = none) :
    t.poll = .acquiring ∧ (∀ u, Outside (t.senders u)) ∧ t.requestQueue = [] := by
  have senders (u : Thread) := sender_stuck alive (stuck (.sender u) trivial)
  -- whoever has the mutex could go on
  have free : t.poll = .acquiring ∨ t.poll = .locking → t.mtx = none := by
    intro here
    cases mutex : t.mtx with
    | none => rfl
    | some owner =>
      cases owner with
      | poll =>
        rcases hs.owned.poll mutex with holds | escaped
        · rcases here with here | here <;> simp [here, Holds] at holds
        · exact absurd escaped alive
      | sender u =>
        have pushing := hs.owned.senders u mutex
        rcases senders u with outside | ⟨last, req, locking, -⟩
        · cases here : t.senders u <;> simp_all [Pushing, Outside]
        · simp [locking, Pushing] at pushing
  have fed : t.poll = .sending ∨ t.poll = .handling [] → t.requestQueue ≠ [] := by
    intro here
    refine queue_ne_nil hs running alive ?_
    rcases here with here | here <;> simp [here, inHand]
  rcases poll_stuck hs.sets (hs.serving running) alive room fed
    (fun answer => stuck (.poll answer) trivial) with ⟨here, counter⟩ | ⟨here, mutex⟩
  · have outside (u : Thread) : Outside (t.senders u) := by
      rcases senders u with outside | ⟨_, _, -, mutex⟩
      · exact outside
      · exact absurd (free (Or.inl here)) mutex
    refine ⟨here, outside, ?_⟩
    have silent : headcount announcing t.senders = 0 := by
      refine headcount_eq_zero fun u => ?_
      have place := outside u
      cases hu : t.senders u with
      | releasing last => simp [hu, Outside] at place
      | idle | running id | finished | locking | pushing => rfl
    have balance := hs.ledger alive
    rw [here, running, counter, silent] at balance
    exact List.length_eq_zero_iff.mp balance.symm
  · exact absurd (free (Or.inr here)) mutex

/-- Until `stop`, the threads take no more steps than the work at hand and what
calls, failures and responses bring in, and when they can take none, every
request has left the queue and the server has the TCP ones in order, each one or
more times in a row. -/
theorem run_settles {config : RmsConfig.Config} (sets : SetsServer config)
    {es fs : List (Event Thread)} {s t : State Thread}
    (arrives : run step (start config) es = some s) (running : s.control = .running)
    (goes : run step s fs = some t) (unstopped : ∀ e ∈ fs, e ≠ .control) :
    fs.length ≤ work s + (fs.map income).sum ∧
      ((∀ e, OfThreads e → step t e = none) → t.poll ≠ .escaped →
        (∃ u, t.senders u = .idle) →
        t.poll = .acquiring ∧ (∀ u, Outside (t.senders u)) ∧ t.popped = t.pushed ∧
          Stutters (tcp t.pushed) t.ingested) := by
  have sound : Sound s := run_preserves step_sound (sound_start sets) arrives
  have guarded : Guarded step (fun _ e => e ≠ .control) s fs := guarded_of_forall unstopped
  have kept (s : State Thread) (e : Event Thread) (t : State Thread)
      (hs : Sound s ∧ s.control = .running) (guard : e ≠ .control) (h : step s e = some t) :
      Sound t ∧ t.control = .running := by
    refine ⟨step_sound s e t hs.1 h, ?_⟩
    obtain ⟨-, moves⟩ := step_moves h
    cases moves with
    | control moves => exact absurd rfl guard
    | sender moves => cases moves <;> exact hs.2
    | poll moves => exact moves.frame.2.1.trans hs.2
  constructor
  · refine Nat.le_trans (Nat.le_add_left _ (work t))
      (run_length_le kept ?_ ⟨sound, running⟩ guarded goes)
    intro s e t hs guard h
    obtain ⟨-, moves⟩ := step_moves h
    cases moves with
    | control moves => exact absurd rfl guard
    | sender moves => exact sender_lowers moves
    | poll moves =>
      rw [step] at h
      split at h
      · cases h
      · exact poll_lowers hs.1 hs.2 h
  · intro stuck alive room
    obtain ⟨sound, running⟩ := run_invariant kept ⟨sound, running⟩ guarded goes
    obtain ⟨here, outside, empty⟩ := rest_of_stuck sound running alive room stuck
    have pushed := sound.delivering.pushed
    rw [empty, List.append_nil] at pushed
    refine ⟨here, outside, pushed.symm, ?_⟩
    obtain ⟨copies, ⟨handed, stutters, log⟩, front, -⟩ := sound.delivering.ingested
    rw [pushed]
    rcases log with ⟨-, log⟩ | ⟨x, first, -⟩
    · exact log ▸ stutters
    · rw [empty] at first
      cases first

/-- The reply of the first report is lost, and the request is sent again. -/
def sentAgain : List (Event Bool) :=
  sends true {} ++ takes .lostReply ++ [.poll .quiet] ++ handshakes 1 ++
    [.poll .quiet, .poll .quiet] ++ takes (.replied []) ++ [.poll .quiet, .poll .quiet]

/-- The control thread runs, and the poll thread has connected. -/
def connected : List (Event Bool) := .control :: connects 1

theorem run_settles_sentAgain :
    let s := (run step (start RmsConfig.unregistered) connected).get (by decide)
    let t := (run step s sentAgain).get (by decide)
    sentAgain.length ≤ work s + (sentAgain.map income).sum ∧
      t.poll = .acquiring ∧ (∀ u, Outside (t.senders u)) ∧ t.popped = t.pushed ∧
        Stutters (tcp t.pushed) t.ingested := by
  have arrives : run step (start RmsConfig.unregistered) connected = some _ :=
    (Option.some_get (by decide)).symm
  have goes : run step ((run step (start RmsConfig.unregistered) connected).get (by decide))
      sentAgain = some _ := (Option.some_get (by decide)).symm
  have settles := run_settles (by decide) arrives (by decide) goes
    (by simp [sentAgain, sends, takes, handshakes])
  refine ⟨settles.1, settles.2 ?_ (by decide) ⟨false, by decide⟩⟩
  intro e threads
  cases e with
  | sender u => cases u <;> rfl
  | poll answer => cases answer <;> rfl
  | control | call | notifyEnd => exact threads.elim

end Rest

end RequestProgress
