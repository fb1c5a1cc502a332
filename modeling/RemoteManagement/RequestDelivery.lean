import RemoteManagement.RequestClient
import RemoteManagement.Library.AtLeastOnce

/-!
# Delivery of the requests

A request leaves the queue only after a report of it has returned, and it is
the front of the queue that is sent, again and again while reports fail.
-/

namespace RequestDelivery

open ThriftTypes GuardedRun RequestClient AtLeastOnce
open ReporterThreads (RequestProtocol)

def Tcp {Thread : Type} : Event Thread → Prop
  | .call _ type _ => type = .kTCP
  | _ => True

/-- The request that a sender is about to put in the queue. -/
def held : SenderPc → Option (RequestProtocol × RmsRequest)
  | .locking _ req | .pushing _ req => some req
  | _ => none

/-- The report of the front has returned, and the front is still to be taken out. -/
def Reported {Thread : Type} : PollPc Thread → Prop
  | .handling _ => True
  | _ => False

variable {Thread : Type}

structure InOrder (s : State Thread) : Prop where
  pushed : s.pushed = s.popped ++ s.requestQueue
  senders : ∀ t req, held (s.senders t) = some req → req.1 = .kTCP
  queue : ∀ req ∈ s.requestQueue, req.1 = .kTCP
  ingested : ∃ copies, Delivered (s.popped.map Prod.snd) (s.requestQueue.map Prod.snd)
    s.ingested copies ∧ (Reported s.poll → copies ≠ 0)

theorem inOrder_start (config : RmsConfig.Config) : InOrder (start config : State Thread) :=
  ⟨rfl, nofun, nofun, 0, delivered_nil, False.elim⟩

/-- Where the queue and the records stay, so does their order. -/
theorem InOrder.of_eq {s t : State Thread} (hs : InOrder s) (pushed : t.pushed = s.pushed)
    (popped : t.popped = s.popped) (requestQueue : t.requestQueue = s.requestQueue)
    (ingested : t.ingested = s.ingested)
    (senders : ∀ u req, held (t.senders u) = some req → req.1 = .kTCP)
    (reported : Reported t.poll → Reported s.poll) : InOrder t := by
  obtain ⟨copies, delivered, arrived⟩ := hs.ingested
  refine ⟨by rw [pushed, popped, requestQueue, hs.pushed], senders, requestQueue ▸ hs.queue,
    copies, ?_, fun h => arrived (reported h)⟩
  rw [popped, requestQueue, ingested]
  exact delivered

/-- The front has arrived, and is taken out. -/
theorem InOrder.pop {s : State Thread} (hs : InOrder s) {req : RequestProtocol × RmsRequest}
    {rest : List (RequestProtocol × RmsRequest)} (first : s.requestQueue = req :: rest)
    (reported : Reported s.poll) : InOrder (s.pop req rest) := by
  obtain ⟨copies, delivered, arrived⟩ := hs.ingested
  rw [first, List.map_cons] at delivered
  refine ⟨?_, hs.senders, ?_, 0, ?_, False.elim⟩
  · rw [State.pop, hs.pushed, first, List.append_assoc, List.singleton_append]
  · intro r hr
    exact hs.queue r (first ▸ List.mem_cons_of_mem req hr)
  · rw [State.pop, List.map_append, List.map_singleton]
    exact delivered.advance (arrived reported)

theorem inOrder_control {s t : State Thread} (hs : InOrder s) (started : Started s)
    (moves : ControlMoves s t) : InOrder t := by
  cases moves with
  | start here =>
    have unset := started.unset (by simp [PollPc.Stored, started.starting here])
    exact hs.of_eq rfl rfl rfl rfl hs.senders (by simp [unset, Reported])
  | clear | release | join | close => exact hs.of_eq rfl rfl rfl rfl hs.senders id

variable [DecidableEq Thread]

theorem held_setSender {s : State Thread} (hs : InOrder s) {u : Thread} {pc : SenderPc}
    (own : ∀ req, held pc = some req → req.1 = .kTCP) (v : Thread)
    (req : RequestProtocol × RmsRequest) (h : held ((s.setSender u pc).senders v) = some req) :
    req.1 = .kTCP := by
  by_cases hv : v = u
  · subst hv
    exact own req (by simpa [State.setSender] using h)
  · exact hs.senders v req (by simpa [State.setSender, hv] using h)

theorem inOrder_sender {s t : State Thread} {e : Event Thread} (hs : InOrder s) (tcp : Tcp e)
    (moves : SenderMoves s e t) : InOrder t := by
  cases moves with
  | call u type req here =>
    refine hs.of_eq rfl rfl rfl rfl (held_setSender hs ?_) id
    rintro r ⟨⟩
    exact tcp
  | notify u id time here =>
    refine hs.of_eq rfl rfl rfl rfl (held_setSender hs ?_) fun h => h
    rintro r ⟨⟩
    rfl
  | lock u last req here free =>
    refine hs.of_eq rfl rfl rfl rfl (held_setSender hs ?_) id
    rintro r ⟨⟩
    exact hs.senders u req (by rw [here]; rfl)
  | push u last req here =>
    obtain ⟨copies, delivered, arrived⟩ := hs.ingested
    refine ⟨?_, held_setSender hs nofun, ?_, copies, ?_, arrived⟩
    · simp [State.push, State.setSender, hs.pushed]
    · intro r hr
      rcases List.mem_append.mp hr with old | new
      · exact hs.queue r old
      · rw [List.mem_singleton.mp new]
        exact hs.senders u req (by rw [here]; rfl)
    · simpa [State.push, State.setSender] using delivered.enqueue req.2
  | release u last here =>
    refine hs.of_eq rfl rfl rfl rfl (held_setSender hs ?_) id
    cases last <;> exact nofun

omit [DecidableEq Thread] in
theorem inOrder_send {s t : State Thread} {req : RmsRequest}
    {rest : List (RequestProtocol × RmsRequest)} (hs : InOrder s)
    (first : s.requestQueue = (.kTCP, req) :: rest) (moves : SendMoves s req t) : InOrder t := by
  obtain ⟨copies, delivered, arrived⟩ := hs.ingested
  have head : (s.requestQueue.map Prod.snd).head? = some req := by simp [first]
  cases moves with
  | replied data =>
    exact ⟨hs.pushed, hs.senders, hs.queue, copies + 1, delivered.arrive head, fun _ => by omega⟩
  | lostRequest => exact hs.of_eq rfl rfl rfl rfl hs.senders False.elim
  | lostReply =>
    exact ⟨hs.pushed, hs.senders, hs.queue, copies + 1, delivered.arrive head, fun _ => by omega⟩

theorem inOrder_poll {s t : State Thread} {answer : Answer Thread} (hs : InOrder s)
    (moves : PollMoves s answer t) : InOrder t := by
  cases moves with
  | store | again | enter | acquire | lock | release =>
    exact hs.of_eq rfl rfl rfl rfl hs.senders False.elim
  | loopTest | flagTest | retryTest =>
    refine hs.of_eq rfl rfl rfl rfl hs.senders ?_
    cases s.pollRequests <;> exact False.elim
  | @handshake again pc _ _ here h =>
    cases handshakeStep_moves h with
    | stays | escapes => exact hs.of_eq rfl rfl rfl rfl hs.senders False.elim
    | leaves | renames =>
      refine hs.of_eq rfl rfl rfl rfl hs.senders ?_
      cases again <;> exact False.elim
  | send here first h => exact inOrder_send hs first (sendTcpRequest_moves h)
  | skip here first other =>
    exact absurd (hs.queue _ (by rw [first]; exact List.mem_cons_self)) other
  | pop here first => exact hs.pop first (by simp [here, Reported])
  | handle here h =>
    have reported : Reported s.poll := by simp [here, Reported]
    cases handleResponseData_moves h with
    | handled | escapes => exact hs.of_eq rfl rfl rfl rfl hs.senders fun _ => reported
    | executes u id executors idle =>
      exact hs.of_eq rfl rfl rfl rfl (held_setSender hs nofun) fun _ => reported

theorem step_inOrder (s : State Thread) (e : Event Thread) (t : State Thread)
    (hs : Started s ∧ InOrder s) (tcp : Tcp e) (h : step s e = some t) :
    Started t ∧ InOrder t := by
  refine ⟨step_started s e t hs.1 h, ?_⟩
  obtain ⟨-, moves⟩ := step_moves h
  cases moves with
  | control moves => exact inOrder_control hs.2 hs.1 moves
  | sender moves => exact inOrder_sender hs.2 tcp moves
  | poll moves => exact inOrder_poll hs.2 moves

/-- At any moment of any run the requests taken out of the queue are a prefix of
those put in, and the server has ingested each of them one or more times in a
row, in that order, and after them nothing but copies of the front. -/
theorem tcp_run_delivered (config : RmsConfig.Config) {es : List (Event Thread)}
    {s : State Thread} (tcp : ∀ e ∈ es, Tcp e) (arrives : run step (start config) es = some s) :
    s.pushed = s.popped ++ s.requestQueue ∧
      ∃ handed copies, Stutters (s.popped.map Prod.snd) handed ∧
        s.ingested = handed ++ copies ∧
        ∀ req ∈ copies, (s.requestQueue.map Prod.snd).head? = some req := by
  obtain ⟨-, inOrder⟩ := run_invariant step_inOrder
    ⟨started_start config, inOrder_start config⟩ (guarded_of_forall tcp) arrives
  obtain ⟨_, delivered, -⟩ := inOrder.ingested
  exact ⟨inOrder.pushed, delivered.log_eq⟩

/-- The reply of the first report is lost, and the request is sent again. -/
def sentTwice : List (Event Unit) :=
  [.control] ++ connects 1 ++ sends () {} ++ takes .lostReply ++ [.poll .quiet] ++ handshakes 1 ++
    [.poll .quiet, .poll .quiet] ++ takes (.replied []) ++ [.poll .quiet]

example : ((run step (start RmsConfig.unregistered) sentTwice).map fun s =>
    (s.popped.length, s.requestQueue.length, s.ingested.length)) = some (1, 0, 2) := by
  decide

theorem sentTwice_delivered :
    let s := (run step (start RmsConfig.unregistered) sentTwice).get (by decide)
    s.pushed = s.popped ++ s.requestQueue ∧
      ∃ handed copies, Stutters (s.popped.map Prod.snd) handed ∧
        s.ingested = handed ++ copies ∧
        ∀ req ∈ copies, (s.requestQueue.map Prod.snd).head? = some req := by
  have tcp : ∀ e ∈ sentTwice, Tcp e := by
    simp [sentTwice, connects, handshakes, sends, takes, Tcp]
  exact tcp_run_delivered RmsConfig.unregistered tcp (Option.some_get _).symm

end RequestDelivery
