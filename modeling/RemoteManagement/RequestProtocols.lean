import RemoteManagement.RequestClient
import RemoteManagement.Library.AtLeastOnce

/-!
# Requests of all protocols in one queue

`sendHttpRequest` and `sendLogRequest` always succeed, so such a request leaves
the queue at its first turn, and what is sent again and again is a TCP request.
-/

namespace RequestProtocols

open ThriftTypes GuardedRun RequestClient AtLeastOnce
open ReporterThreads (RequestProtocol)

/-- What of a queue goes to the server. -/
def tcp (queue : List (RequestProtocol × RmsRequest)) : List RmsRequest :=
  (queue.filter (fun req => req.1 = .kTCP)).map Prod.snd

theorem tcp_append (xs ys : List (RequestProtocol × RmsRequest)) :
    tcp (xs ++ ys) = tcp xs ++ tcp ys := by
  simp [tcp]

theorem tcp_cons (req : RmsRequest) (rest : List (RequestProtocol × RmsRequest)) :
    tcp ((.kTCP, req) :: rest) = req :: tcp rest := rfl

theorem tcp_cons_of_ne {type : RequestProtocol} (other : type ≠ .kTCP) (req : RmsRequest)
    (rest : List (RequestProtocol × RmsRequest)) : tcp ((type, req) :: rest) = tcp rest := by
  simp [tcp, other]

/-- The report of the front has returned, and the front is still to be taken out. -/
def Returned {Thread : Type} : PollPc Thread → Prop
  | .handling _ => True
  | _ => False

variable {Thread : Type}

/-- Copies of a request that is still in the queue are those of its front. -/
structure Delivering (s : State Thread) : Prop where
  pushed : s.pushed = s.popped ++ s.requestQueue
  ingested : ∃ copies, Delivered (tcp s.popped) (tcp s.requestQueue) s.ingested copies ∧
    (copies ≠ 0 → ∃ req rest, s.requestQueue = (.kTCP, req) :: rest) ∧
    (Returned s.poll → copies ≠ 0)

theorem delivering_start (config : RmsConfig.Config) :
    Delivering (start config : State Thread) :=
  ⟨rfl, 0, delivered_nil, fun some => absurd rfl some, False.elim⟩

/-- Where the queue and the records stay, so does their order. -/
theorem Delivering.of_eq {s t : State Thread} (hs : Delivering s) (pushed : t.pushed = s.pushed)
    (popped : t.popped = s.popped) (requestQueue : t.requestQueue = s.requestQueue)
    (ingested : t.ingested = s.ingested) (returned : Returned t.poll → Returned s.poll) :
    Delivering t := by
  obtain ⟨copies, delivered, front, arrived⟩ := hs.ingested
  refine ⟨by rw [pushed, popped, requestQueue, hs.pushed], copies, ?_, ?_,
    fun h => arrived (returned h)⟩
  · rwa [popped, requestQueue, ingested]
  · rwa [requestQueue]

theorem Delivering.enqueue {s : State Thread} (hs : Delivering s)
    (req : RequestProtocol × RmsRequest) : Delivering (s.push req) := by
  obtain ⟨copies, delivered, front, arrived⟩ := hs.ingested
  refine ⟨?_, copies, ?_, fun some => ?_, arrived⟩
  · rw [State.push, hs.pushed, List.append_assoc]
  · rw [State.push, tcp_append]
    by_cases type : req.1 = .kTCP
    · have one : tcp [req] = [req.2] := by simp [tcp, type]
      exact one ▸ delivered.enqueue req.2
    · have none : tcp [req] = [] := by simp [tcp, type]
      rwa [none, List.append_nil]
  · obtain ⟨first, rest, queue⟩ := front some
    exact ⟨first, rest ++ [req], by rw [State.push, queue, List.cons_append]⟩

/-- A request that does not go to the server is taken out before any copy of a
later one is sent. -/
theorem Delivering.skip {s : State Thread} (hs : Delivering s) {type : RequestProtocol}
    {req : RmsRequest} {rest : List (RequestProtocol × RmsRequest)}
    (first : s.requestQueue = (type, req) :: rest) (other : type ≠ .kTCP) :
    Delivering (s.pop (type, req) rest) := by
  obtain ⟨copies, delivered, front, -⟩ := hs.ingested
  have none : copies = 0 := by
    by_contra some
    obtain ⟨_, _, queue⟩ := front some
    rw [first] at queue
    cases queue
    exact other rfl
  rw [first, tcp_cons_of_ne other, none] at delivered
  refine ⟨?_, 0, ?_, fun some => absurd rfl some, False.elim⟩
  · rw [State.pop, hs.pushed, first, List.append_assoc, List.singleton_append]
  · rw [State.pop, tcp_append, tcp_cons_of_ne other]
    exact (List.append_nil _).symm ▸ delivered

/-- The front has arrived, and is taken out. -/
theorem Delivering.pop {s : State Thread} (hs : Delivering s) {req : RequestProtocol × RmsRequest}
    {rest : List (RequestProtocol × RmsRequest)} (first : s.requestQueue = req :: rest)
    (returned : Returned s.poll) : Delivering (s.pop req rest) := by
  obtain ⟨copies, delivered, front, arrived⟩ := hs.ingested
  obtain ⟨_, _, queue⟩ := front (arrived returned)
  obtain ⟨rfl, rfl⟩ := List.cons.inj (first.symm.trans queue)
  rw [first, tcp_cons] at delivered
  refine ⟨?_, 0, ?_, fun some => absurd rfl some, False.elim⟩
  · rw [State.pop, hs.pushed, first, List.append_assoc, List.singleton_append]
  · rw [State.pop, tcp_append]
    exact delivered.advance (arrived returned)

theorem delivering_control {s t : State Thread} (hs : Delivering s) (started : Started s)
    (moves : ControlMoves s t) : Delivering t := by
  cases moves with
  | start here =>
    have unset := started.unset (by simp [PollPc.Stored, started.starting here])
    exact hs.of_eq rfl rfl rfl rfl (by simp [unset, Returned])
  | clear | release | join | close => exact hs.of_eq rfl rfl rfl rfl id

theorem delivering_send {s t : State Thread} {req : RmsRequest}
    {rest : List (RequestProtocol × RmsRequest)} (hs : Delivering s)
    (first : s.requestQueue = (.kTCP, req) :: rest) (moves : SendMoves s req t) :
    Delivering t := by
  obtain ⟨copies, delivered, front, arrived⟩ := hs.ingested
  have head : (tcp s.requestQueue).head? = some req := by rw [first, tcp_cons, List.head?_cons]
  cases moves with
  | replied data | lostReply =>
    exact ⟨hs.pushed, copies + 1, delivered.arrive head, fun _ => ⟨req, rest, first⟩,
      fun _ => copies.succ_ne_zero⟩
  | lostRequest => exact hs.of_eq rfl rfl rfl rfl False.elim

variable [DecidableEq Thread]

theorem delivering_sender {s t : State Thread} {e : Event Thread} (hs : Delivering s)
    (moves : SenderMoves s e t) : Delivering t := by
  cases moves with
  | push u last req here =>
    have moved : Delivering (s.setSender u (.releasing last)) := hs.of_eq rfl rfl rfl rfl id
    exact moved.enqueue req
  | call | notify | lock | release => exact hs.of_eq rfl rfl rfl rfl id

theorem delivering_poll {s t : State Thread} {answer : Answer Thread} (hs : Delivering s)
    (moves : PollMoves s answer t) : Delivering t := by
  cases moves with
  | store | again | enter | acquire | lock | release => exact hs.of_eq rfl rfl rfl rfl False.elim
  | loopTest | flagTest | retryTest =>
    refine hs.of_eq rfl rfl rfl rfl ?_
    cases s.pollRequests <;> exact False.elim
  | @handshake again pc _ _ here h =>
    cases handshakeStep_moves h with
    | stays | escapes => exact hs.of_eq rfl rfl rfl rfl False.elim
    | leaves | renames =>
      refine hs.of_eq rfl rfl rfl rfl ?_
      cases again <;> exact False.elim
  | send here first h => exact delivering_send hs first (sendTcpRequest_moves h)
  | skip here first other => exact hs.skip first other
  | pop here first => exact hs.pop first (by simp [here, Returned])
  | handle here h =>
    have returned : Returned s.poll := by simp [here, Returned]
    cases handleResponseData_moves h <;> exact hs.of_eq rfl rfl rfl rfl fun _ => returned

theorem step_delivering (s : State Thread) (e : Event Thread) (t : State Thread)
    (hs : Started s ∧ Delivering s) (h : step s e = some t) : Started t ∧ Delivering t := by
  refine ⟨step_started s e t hs.1 h, ?_⟩
  obtain ⟨-, moves⟩ := step_moves h
  cases moves with
  | control moves => exact delivering_control hs.2 hs.1 moves
  | sender moves => exact delivering_sender hs.2 moves
  | poll moves => exact delivering_poll hs.2 moves

/-- Whatever protocols the requests have, they leave the queue in order, the
server has the TCP ones among them one or more times in a row and no other, and
what it has beyond these are copies of the queue's front. -/
theorem mixed_run_delivered (config : RmsConfig.Config) {es : List (Event Thread)}
    {s : State Thread} (arrives : run step (start config) es = some s) :
    s.pushed = s.popped ++ s.requestQueue ∧
      ∃ handed copies, Stutters (tcp s.popped) handed ∧ s.ingested = handed ++ copies ∧
        ∀ req ∈ copies, s.requestQueue.head? = some (.kTCP, req) := by
  obtain ⟨-, pushed, n, delivered, front, -⟩ :=
    run_preserves step_delivering ⟨started_start config, delivering_start config⟩ arrives
  refine ⟨pushed, ?_⟩
  obtain ⟨handed, stutters, ⟨-, log⟩ | ⟨x, first, log⟩⟩ := delivered
  · exact ⟨handed, [], stutters, by rw [log, List.append_nil], nofun⟩
  · refine ⟨handed, _, stutters, log, fun req hr => ?_⟩
    obtain ⟨some, rfl⟩ := List.mem_replicate.mp hr
    obtain ⟨r, rest, queue⟩ := front some
    rw [queue, tcp_cons, List.head?_cons] at first
    rw [queue, List.head?_cons, Option.some.inj first]

/-- A request for the log stands before one for the server, whose first reply is
lost. -/
def logFirst : List (Event Unit) :=
  [.control] ++ connects 1 ++ [.call () .kLOG {}, .sender (), .sender (), .sender ()] ++
    sends () {} ++ takes .quiet ++ [.poll .quiet] ++ takes .lostReply

theorem mixed_run_delivered_logFirst :
    let s := (run step (start RmsConfig.unregistered) logFirst).get (by decide)
    (s.popped.length = 1 ∧ s.requestQueue.length = 1 ∧ s.ingested.length = 1) ∧
      s.pushed = s.popped ++ s.requestQueue ∧
      ∃ handed copies, Stutters (tcp s.popped) handed ∧ s.ingested = handed ++ copies ∧
        ∀ req ∈ copies, s.requestQueue.head? = some (.kTCP, req) :=
  ⟨by decide, mixed_run_delivered RmsConfig.unregistered (Option.some_get _).symm⟩

end RequestProtocols
