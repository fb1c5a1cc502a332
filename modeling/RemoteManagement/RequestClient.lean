import RemoteManagement.ReporterThreads
import RemoteManagement.RmsConfig

/-!
# The request client

Any number of threads call `sendRequest`, one thread polls the queue, and one
calls `start` and later `stop`. A response may make the poll thread start an
executor, whose thread calls `sendRequest` when the command has ended. One event
is one step of one thread; a thread that has to wait takes no step. What a
thrift call returns is part of the event. The semaphore is taken as a counter,
and an exception that leaves the poll thread ends the process.
-/

namespace RequestClient

open ThriftTypes GuardedRun RmsConfig
open ReporterThreads (RequestProtocol)

/-- `start` and `stop`. -/
inductive ControlPc where
  | starting
  | running
  | releasing
  | joining
  | closing
  | stopped
  deriving DecidableEq

/-- A thread in and around `sendRequest`; an executor's thread makes its `last`
call in `notifyEnd`. -/
inductive SenderPc where
  | idle
  | running (id : Int)
  | locking (last : Bool) (req : RequestProtocol × RmsRequest)
  | pushing (last : Bool) (req : RequestProtocol × RmsRequest)
  | releasing (last : Bool)
  | finished
  deriving DecidableEq

inductive HandshakePc where
  | socket
  | loopTest
  | opening
  | flagTest
  | readingId
  | calling (computerId : Int)
  deriving DecidableEq

/-- `pollRequests`; the handshake is called before the loop, and again with the
mutex held after a request has failed. A loop that ends at the flag test keeps
the permit it has taken. -/
inductive PollPc (Thread : Type) where
  | idle
  | storing
  | handshakeTCP (again : Bool) (pc : HandshakePc)
  | handshaken (result : Int)
  | loopTest
  | acquiring
  | flagTest
  | locking
  | sending
  | handling (rest : List RmsResponseData)
  | releasing
  | retryTest
  | ended (permit : Bool)
  | escaped
  deriving DecidableEq

inductive Owner (Thread : Type) where
  | sender (t : Thread)
  | poll
  deriving DecidableEq

/-- What the call that the poll thread is at returns: `none` stands for an
exception, and a report is lost before the server has it, or its reply is. -/
inductive Answer (Thread : Type) where
  | quiet
  | opened (ok : Bool)
  | handshaken (newId : Option Int)
  | replied (data : List RmsResponseData)
  | lostRequest
  | lostReply
  | sysInfoSent (ok : Bool)
  | executing (t : Thread)

inductive Event (Thread : Type) where
  | control
  | call (t : Thread) (type : RequestProtocol) (req : RmsRequest)
  | notifyEnd (t : Thread) (timeFinished : Int)
  | sender (t : Thread)
  | poll (answer : Answer Thread)

/-- The last three fields record the run: what was put in the queue, what was
taken out of it, and the requests the server ran `report` on. -/
structure State (Thread : Type) where
  control : ControlPc
  senders : Thread → SenderPc
  poll : PollPc Thread
  mtx : Option (Owner Thread)
  requestCounter : Nat
  pollRequests : Bool
  requestQueue : List (RequestProtocol × RmsRequest)
  config : Config
  executors : List Int
  pushed : List (RequestProtocol × RmsRequest)
  popped : List (RequestProtocol × RmsRequest)
  ingested : List RmsRequest

variable {Thread : Type}

def start (config : Config) : State Thread where
  control := .starting
  senders := fun _ => .idle
  poll := .idle
  mtx := none
  requestCounter := 0
  pollRequests := false
  requestQueue := []
  config := config
  executors := []
  pushed := []
  popped := []
  ingested := []

/-- The request of `Executor::notifyEnd`; the executor's id is an int, and its
return code and type keep their defaults. -/
def notifyEnd (id timeFinished : Int) : RmsRequest where
  data := [{ dataType := .kExecutorResult
             data := { executorResult := { id := toInt32 id, timeFinished := timeFinished } } }]

def State.setSender [DecidableEq Thread] (s : State Thread) (t : Thread) (pc : SenderPc) :
    State Thread :=
  { s with senders := Function.update s.senders t pc }

@[simp] theorem setSender_control [DecidableEq Thread] (s : State Thread) (t : Thread)
    (pc : SenderPc) : (s.setSender t pc).control = s.control := rfl

@[simp] theorem setSender_poll [DecidableEq Thread] (s : State Thread) (t : Thread)
    (pc : SenderPc) : (s.setSender t pc).poll = s.poll := rfl

@[simp] theorem setSender_mtx [DecidableEq Thread] (s : State Thread) (t : Thread)
    (pc : SenderPc) : (s.setSender t pc).mtx = s.mtx := rfl

@[simp] theorem setSender_requestCounter [DecidableEq Thread] (s : State Thread) (t : Thread)
    (pc : SenderPc) : (s.setSender t pc).requestCounter = s.requestCounter := rfl

@[simp] theorem setSender_requestQueue [DecidableEq Thread] (s : State Thread) (t : Thread)
    (pc : SenderPc) : (s.setSender t pc).requestQueue = s.requestQueue := rfl

def State.push (s : State Thread) (req : RequestProtocol × RmsRequest) : State Thread :=
  { s with requestQueue := s.requestQueue ++ [req], pushed := s.pushed ++ [req], mtx := none }

/-- `pop` and the end of the loop's body. -/
def State.pop (s : State Thread) (req : RequestProtocol × RmsRequest)
    (rest : List (RequestProtocol × RmsRequest)) : State Thread :=
  { s with requestQueue := rest, popped := s.popped ++ [req], mtx := none, poll := .loopTest }

def controlStep (s : State Thread) : Option (State Thread) :=
  match s.control with
  | .starting =>
    some { s with control := .running, poll := if s.pollRequests then s.poll else .storing }
  | .running => some { s with pollRequests := false, control := .releasing }
  | .releasing => some { s with requestCounter := s.requestCounter + 1, control := .joining }
  | .joining =>
    match s.poll with
    | .ended _ => some { s with control := .closing }
    | _ => none
  | .closing => some { s with control := .stopped }
  | .stopped => none

def senderStep [DecidableEq Thread] (s : State Thread) (t : Thread) : Option (State Thread) :=
  match s.senders t with
  | .idle | .running _ | .finished => none
  | .locking last req =>
    if s.mtx = none then some { s.setSender t (.pushing last req) with mtx := some (.sender t) }
    else none
  | .pushing last req => some ((s.setSender t (.releasing last)).push req)
  | .releasing last =>
    some { s.setSender t (if last then .finished else .idle) with
      requestCounter := s.requestCounter + 1 }

/-- Where `handshakeTCP` returns to. -/
def State.leaveHandshake (s : State Thread) (again : Bool) (result : Int) : State Thread :=
  { s with poll := if again then .retryTest else .handshaken result }

def handshakeStep (s : State Thread) (again : Bool) :
    HandshakePc → Answer Thread → Option (State Thread)
  | .socket, .quiet =>
    -- without a port or an address the process exits
    if find s.config serverPort = "" ∨ find s.config serverIp = "" then none
    else
      match findLong s.config serverPort with
      | .error _ => some { s with poll := .escaped }
      | .ok _ => some { s with poll := .handshakeTCP again .loopTest }
  | .loopTest, .quiet =>
    some { s with poll := .handshakeTCP again (if s.pollRequests then .opening else .flagTest) }
  | .opening, .opened ok =>
    some { s with poll := .handshakeTCP again (if ok then .flagTest else .loopTest) }
  | .flagTest, .quiet =>
    some (if s.pollRequests then { s with poll := .handshakeTCP again .readingId }
      else s.leaveHandshake again (-1))
  | .readingId, .quiet =>
    match findLong s.config computerId with
    | .error _ => some { s with poll := .escaped }
    | .ok n => some { s with poll := .handshakeTCP again (.calling n) }
  | .calling _, .handshaken none => some { s with poll := .escaped }
  | .calling n, .handshaken (some newId) =>
    some ({ s with
      config := if n = newId then s.config else replace s.config computerId newId.repr
      }.leaveHandshake again 0)
  | _, _ => none

/-- `sendTcpRequest`, up to the responses. -/
def sendTcpRequest (s : State Thread) (req : RmsRequest) :
    Answer Thread → Option (State Thread)
  | .replied data => some { s with ingested := s.ingested ++ [req], poll := .handling data }
  | .lostRequest => some { s with poll := .releasing }
  | .lostReply => some { s with ingested := s.ingested ++ [req], poll := .releasing }
  | _ => none

/-- `emplace` gives up the executor that was just started when its id is in the
map. It is deleted as an `Executor`, whose destructor is not virtual, so nothing
joins its thread, which goes on (as if the memory that it has lost were intact). -/
def runCommand [DecidableEq Thread] (s : State Thread) (cmd : Command) (t : Thread)
    (rest : List RmsResponseData) : Option (State Thread) :=
  if s.senders t = .idle then
    some { s.setSender t (.running cmd.id) with
      executors := if cmd.id ∈ s.executors then s.executors else cmd.id :: s.executors
      poll := .handling rest }
  else none

def handleResponseData [DecidableEq Thread] (s : State Thread) (resData : RmsResponseData)
    (rest : List RmsResponseData) (answer : Answer Thread) : Option (State Thread) :=
  match resData.dataType, answer with
  | .kSendSystemInfo, .sysInfoSent ok =>
    some { s with poll := if ok then .handling rest else .escaped }
  | .kRunCommand, .executing t => runCommand s resData.data.command t rest
  | .kRunScript, .quiet => some { s with poll := .handling rest }
  | _, _ => none

def pollStep [DecidableEq Thread] (s : State Thread) (answer : Answer Thread) :
    Option (State Thread) :=
  match s.poll, answer with
  | .storing, .quiet => some { s with pollRequests := true, poll := .handshakeTCP false .socket }
  | .handshakeTCP again pc, answer => handshakeStep s again pc answer
  | .handshaken result, .quiet =>
    some { s with
      poll := if result ≠ 0 ∧ s.pollRequests then .handshakeTCP false .socket else .loopTest }
  | .loopTest, .quiet => some { s with poll := if s.pollRequests then .acquiring else .ended false }
  | .acquiring, .quiet =>
    if s.requestCounter = 0 then none
    else some { s with requestCounter := s.requestCounter - 1, poll := .flagTest }
  | .flagTest, .quiet => some { s with poll := if s.pollRequests then .locking else .ended true }
  | .locking, .quiet =>
    if s.mtx = none then some { s with mtx := some .poll, poll := .sending } else none
  | .sending, answer =>
    match s.requestQueue, answer with
    -- `front` of an empty queue is undefined
    | [], _ => none
    | (.kTCP, req) :: _, answer => sendTcpRequest s req answer
    | (.kHTTP, req) :: rest, .quiet => some (s.pop (.kHTTP, req) rest)
    | (.kLOG, req) :: rest, .quiet => some (s.pop (.kLOG, req) rest)
    | _, _ => none
  | .handling (resData :: rest), answer => handleResponseData s resData rest answer
  | .handling [], .quiet =>
    match s.requestQueue with
    | [] => none
    | req :: rest => some (s.pop req rest)
  | .releasing, .quiet =>
    some { s with requestCounter := s.requestCounter + 1, poll := .handshakeTCP true .socket }
  | .retryTest, .quiet =>
    some { s with mtx := none, poll := if s.pollRequests then .loopTest else .ended false }
  | _, _ => none

def threadStep [DecidableEq Thread] (s : State Thread) : Event Thread → Option (State Thread)
  | .control => controlStep s
  | .call t type req =>
    match s.senders t with
    | .idle => some (s.setSender t (.locking false (type, req)))
    | _ => none
  | .notifyEnd t timeFinished =>
    match s.senders t with
    | .running id => some (s.setSender t (.locking true (.kTCP, notifyEnd id timeFinished)))
    | _ => none
  | .sender t => senderStep s t
  | .poll answer => pollStep s answer

def step [DecidableEq Thread] (s : State Thread) (e : Event Thread) : Option (State Thread) :=
  match s.poll with
  | .escaped => none
  | _ => threadStep s e

/-- The steps of a handshake that gives the id `newId`. -/
def handshakes (newId : Int) : List (Event Thread) :=
  [.poll .quiet, .poll .quiet, .poll (.opened true), .poll .quiet, .poll .quiet,
   .poll (.handshaken (some newId))]

/-- The poll thread from its first step to its first `acquire`. -/
def connects (newId : Int) : List (Event Thread) :=
  .poll .quiet :: handshakes newId ++ [.poll .quiet, .poll .quiet]

/-- A call of `sendRequest`. -/
def sends (t : Thread) (req : RmsRequest) : List (Event Thread) :=
  [.call t .kTCP req, .sender t, .sender t, .sender t]

/-- From `acquire` to the report of the front. -/
def takes (answer : Answer Thread) : List (Event Thread) :=
  [.poll .quiet, .poll .quiet, .poll .quiet, .poll answer]

section Steps

variable {s t : State Thread} {answer : Answer Thread}

/-- The handshake changes the place of the poll thread and the configured id. -/
inductive HandshakeMoves (s : State Thread) (again : Bool) : State Thread → Prop where
  | stays (pc : HandshakePc) : HandshakeMoves s again { s with poll := .handshakeTCP again pc }
  | leaves (result : Int) : HandshakeMoves s again (s.leaveHandshake again result)
  | renames (id : String) :
    HandshakeMoves s again ({ s with config := replace s.config computerId id
      }.leaveHandshake again 0)
  | escapes : HandshakeMoves s again { s with poll := .escaped }

theorem handshakeStep_moves {again : Bool} {pc : HandshakePc}
    (h : handshakeStep s again pc answer = some t) : HandshakeMoves s again t := by
  simp only [handshakeStep] at h
  split at h
  · rw [Option.ite_none_left_eq_some] at h
    obtain ⟨-, h⟩ := h
    split at h <;> obtain rfl := Option.some.inj h
    · exact .escapes
    · exact .stays _
  · obtain rfl := Option.some.inj h
    exact .stays _
  · obtain rfl := Option.some.inj h
    exact .stays _
  · obtain rfl := Option.some.inj h
    split
    · exact .stays _
    · exact .leaves _
  · split at h <;> obtain rfl := Option.some.inj h
    · exact .escapes
    · exact .stays _
  · obtain rfl := Option.some.inj h
    exact .escapes
  · obtain rfl := Option.some.inj h
    split
    · exact .leaves _
    · exact .renames _
  · cases h

inductive SendMoves (s : State Thread) (req : RmsRequest) : State Thread → Prop where
  | replied (data : List RmsResponseData) :
    SendMoves s req { s with ingested := s.ingested ++ [req], poll := .handling data }
  | lostRequest : SendMoves s req { s with poll := .releasing }
  | lostReply : SendMoves s req { s with ingested := s.ingested ++ [req], poll := .releasing }

theorem sendTcpRequest_moves {req : RmsRequest} (h : sendTcpRequest s req answer = some t) :
    SendMoves s req t := by
  cases answer with
  | replied data => exact Option.some.inj h ▸ .replied data
  | lostRequest => exact Option.some.inj h ▸ .lostRequest
  | lostReply => exact Option.some.inj h ▸ .lostReply
  | quiet | opened | handshaken | sysInfoSent | executing => cases h

variable [DecidableEq Thread]

inductive HandleMoves (s : State Thread) (rest : List RmsResponseData) : State Thread → Prop where
  | handled : HandleMoves s rest { s with poll := .handling rest }
  | escapes : HandleMoves s rest { s with poll := .escaped }
  | executes (u : Thread) (id : Int) (executors : List Int) (idle : s.senders u = .idle) :
    HandleMoves s rest { s.setSender u (.running id) with
      executors := executors, poll := .handling rest }

theorem runCommand_moves {cmd : Command} {u : Thread} {rest : List RmsResponseData}
    (h : runCommand s cmd u rest = some t) : HandleMoves s rest t := by
  rw [runCommand, Option.ite_none_right_eq_some] at h
  obtain ⟨idle, h⟩ := h
  obtain rfl := Option.some.inj h
  exact .executes u cmd.id _ idle

theorem handleResponseData_moves {resData : RmsResponseData} {rest : List RmsResponseData}
    (h : handleResponseData s resData rest answer = some t) : HandleMoves s rest t := by
  simp only [handleResponseData] at h
  split at h
  · rename_i ok _
    obtain rfl := Option.some.inj h
    cases ok
    · exact .escapes
    · exact .handled
  · exact runCommand_moves h
  · obtain rfl := Option.some.inj h
    exact .handled
  · cases h

/-- All that a step of the poll thread can do. -/
inductive PollMoves (s : State Thread) : Answer Thread → State Thread → Prop where
  | store (here : s.poll = .storing) :
    PollMoves s .quiet { s with pollRequests := true, poll := .handshakeTCP false .socket }
  | handshake {again : Bool} {pc : HandshakePc} {answer : Answer Thread} {t : State Thread}
    (here : s.poll = .handshakeTCP again pc) (h : handshakeStep s again pc answer = some t) :
    PollMoves s answer t
  | again {result : Int} (here : s.poll = .handshaken result) :
    PollMoves s .quiet { s with poll := .handshakeTCP false .socket }
  | enter {result : Int} (here : s.poll = .handshaken result) :
    PollMoves s .quiet { s with poll := .loopTest }
  | loopTest (here : s.poll = .loopTest) :
    PollMoves s .quiet { s with poll := if s.pollRequests then .acquiring else .ended false }
  | acquire (here : s.poll = .acquiring) (positive : s.requestCounter ≠ 0) :
    PollMoves s .quiet { s with requestCounter := s.requestCounter - 1, poll := .flagTest }
  | flagTest (here : s.poll = .flagTest) :
    PollMoves s .quiet { s with poll := if s.pollRequests then .locking else .ended true }
  | lock (here : s.poll = .locking) (free : s.mtx = none) :
    PollMoves s .quiet { s with mtx := some .poll, poll := .sending }
  | send {req : RmsRequest} {rest : List (RequestProtocol × RmsRequest)} {answer : Answer Thread}
    {t : State Thread} (here : s.poll = .sending) (first : s.requestQueue = (.kTCP, req) :: rest)
    (h : sendTcpRequest s req answer = some t) : PollMoves s answer t
  | skip {type : RequestProtocol} {req : RmsRequest} {rest : List (RequestProtocol × RmsRequest)}
    (here : s.poll = .sending) (first : s.requestQueue = (type, req) :: rest)
    (other : type ≠ .kTCP) : PollMoves s .quiet (s.pop (type, req) rest)
  | handle {resData : RmsResponseData} {rest : List RmsResponseData} {answer : Answer Thread}
    {t : State Thread} (here : s.poll = .handling (resData :: rest))
    (h : handleResponseData s resData rest answer = some t) : PollMoves s answer t
  | pop {req : RequestProtocol × RmsRequest} {rest : List (RequestProtocol × RmsRequest)}
    (here : s.poll = .handling []) (first : s.requestQueue = req :: rest) :
    PollMoves s .quiet (s.pop req rest)
  | release (here : s.poll = .releasing) :
    PollMoves s .quiet { s with
      requestCounter := s.requestCounter + 1, poll := .handshakeTCP true .socket }
  | retryTest (here : s.poll = .retryTest) :
    PollMoves s .quiet { s with
      mtx := none, poll := if s.pollRequests then .loopTest else .ended false }

theorem pollStep_moves (h : pollStep s answer = some t) : PollMoves s answer t := by
  simp only [pollStep] at h
  split at h
  · rename_i here
    exact Option.some.inj h ▸ .store here
  · rename_i here
    exact .handshake here h
  · rename_i here
    obtain rfl := Option.some.inj h
    split
    · exact .again here
    · exact .enter here
  · rename_i here
    exact Option.some.inj h ▸ .loopTest here
  · rename_i here
    rw [Option.ite_none_left_eq_some] at h
    exact Option.some.inj h.2 ▸ .acquire here h.1
  · rename_i here
    exact Option.some.inj h ▸ .flagTest here
  · rename_i here
    rw [Option.ite_none_right_eq_some] at h
    exact Option.some.inj h.2 ▸ .lock here h.1
  · rename_i here
    split at h
    · cases h
    · rename_i first
      exact .send here first h
    · rename_i first
      exact Option.some.inj h ▸ .skip here first nofun
    · rename_i first
      exact Option.some.inj h ▸ .skip here first nofun
    · cases h
  · rename_i here
    exact .handle here h
  · rename_i here
    split at h
    · cases h
    · rename_i first
      exact Option.some.inj h ▸ .pop here first
  · rename_i here
    exact Option.some.inj h ▸ .release here
  · rename_i here
    exact Option.some.inj h ▸ .retryTest here
  · cases h

inductive ControlMoves (s : State Thread) : State Thread → Prop where
  | start (here : s.control = .starting) :
    ControlMoves s { s with
      control := .running, poll := if s.pollRequests then s.poll else .storing }
  | clear (here : s.control = .running) :
    ControlMoves s { s with pollRequests := false, control := .releasing }
  | release (here : s.control = .releasing) :
    ControlMoves s { s with requestCounter := s.requestCounter + 1, control := .joining }
  | join (here : s.control = .joining) (permit : Bool) (ended : s.poll = .ended permit) :
    ControlMoves s { s with control := .closing }
  | close (here : s.control = .closing) : ControlMoves s { s with control := .stopped }

inductive SenderMoves (s : State Thread) : Event Thread → State Thread → Prop where
  | call (u : Thread) (type : RequestProtocol) (req : RmsRequest) (here : s.senders u = .idle) :
    SenderMoves s (.call u type req) (s.setSender u (.locking false (type, req)))
  | notify (u : Thread) (id time : Int) (here : s.senders u = .running id) :
    SenderMoves s (.notifyEnd u time)
      (s.setSender u (.locking true (.kTCP, RequestClient.notifyEnd id time)))
  | lock (u : Thread) (last : Bool) (req : RequestProtocol × RmsRequest)
    (here : s.senders u = .locking last req) (free : s.mtx = none) :
    SenderMoves s (.sender u) { s.setSender u (.pushing last req) with mtx := some (.sender u) }
  | push (u : Thread) (last : Bool) (req : RequestProtocol × RmsRequest)
    (here : s.senders u = .pushing last req) :
    SenderMoves s (.sender u) ((s.setSender u (.releasing last)).push req)
  | release (u : Thread) (last : Bool) (here : s.senders u = .releasing last) :
    SenderMoves s (.sender u) { s.setSender u (if last then .finished else .idle) with
      requestCounter := s.requestCounter + 1 }

/-- All that a step can do. -/
inductive Moves (s : State Thread) : Event Thread → State Thread → Prop where
  | control {t : State Thread} (moves : ControlMoves s t) : Moves s .control t
  | sender {e : Event Thread} {t : State Thread} (moves : SenderMoves s e t) : Moves s e t
  | poll {answer : Answer Thread} {t : State Thread} (moves : PollMoves s answer t) :
    Moves s (.poll answer) t

omit [DecidableEq Thread] in
theorem controlStep_moves (h : controlStep s = some t) : ControlMoves s t := by
  cases hc : s.control with
  | starting =>
    simp only [controlStep, hc, Option.some.injEq] at h
    exact h ▸ .start hc
  | running =>
    simp only [controlStep, hc, Option.some.injEq] at h
    exact h ▸ .clear hc
  | releasing =>
    simp only [controlStep, hc, Option.some.injEq] at h
    exact h ▸ .release hc
  | joining =>
    simp only [controlStep, hc] at h
    split at h
    · rename_i permit ended
      exact Option.some.inj h ▸ .join hc permit ended
    · cases h
  | closing =>
    simp only [controlStep, hc, Option.some.injEq] at h
    exact h ▸ .close hc
  | stopped => simp [controlStep, hc] at h

theorem senderStep_moves {u : Thread} (h : senderStep s u = some t) :
    SenderMoves s (.sender u) t := by
  cases hu : s.senders u with
  | idle | running | finished => simp [senderStep, hu] at h
  | locking last req =>
    simp only [senderStep, hu, Option.ite_none_right_eq_some, Option.some.injEq] at h
    exact h.2 ▸ .lock u last req hu h.1
  | pushing last req =>
    simp only [senderStep, hu, Option.some.injEq] at h
    exact h ▸ .push u last req hu
  | releasing last =>
    simp only [senderStep, hu, Option.some.injEq] at h
    exact h ▸ .release u last hu

theorem step_moves {e : Event Thread} (h : step s e = some t) :
    s.poll ≠ .escaped ∧ Moves s e t := by
  rw [step] at h
  split at h
  · cases h
  · rename_i alive
    refine ⟨alive, ?_⟩
    cases e with
    | control => exact .control (controlStep_moves h)
    | call u type req =>
      simp only [threadStep] at h
      split at h
      · rename_i here
        exact .sender (Option.some.inj h ▸ .call u type req here)
      · cases h
    | notifyEnd u time =>
      simp only [threadStep] at h
      split at h
      · rename_i id here
        exact .sender (Option.some.inj h ▸ .notify u id time here)
      · cases h
    | sender u => exact .sender (senderStep_moves h)
    | poll answer => exact .poll (pollStep_moves h)

end Steps

section Stages

/-- The poll thread has stored `true` in its flag. -/
def PollPc.Stored : PollPc Thread → Prop
  | .idle | .storing => False
  | _ => True

instance decidableStored (poll : PollPc Thread) : Decidable poll.Stored := by
  unfold PollPc.Stored
  split <;> infer_instance

/-- `stop` has stored `false`. -/
def ControlPc.Stopping : ControlPc → Prop
  | .starting | .running => False
  | .releasing | .joining | .closing | .stopped => True

theorem leaveHandshake_stored (s : State Thread) (again : Bool) (result : Int) :
    (s.leaveHandshake again result).poll.Stored := by
  cases again <;> exact trivial

theorem HandshakeMoves.frame {s t : State Thread} {again : Bool} (moves : HandshakeMoves s again t) :
    t.poll.Stored ∧ t.control = s.control ∧ t.pollRequests = s.pollRequests := by
  cases moves with
  | stays | escapes => exact ⟨trivial, rfl, rfl⟩
  | leaves result => exact ⟨leaveHandshake_stored _ _ _, rfl, rfl⟩
  | renames id => exact ⟨leaveHandshake_stored _ _ _, rfl, rfl⟩

theorem SendMoves.frame {s t : State Thread} {req : RmsRequest} (moves : SendMoves s req t) :
    t.poll.Stored ∧ t.control = s.control ∧ t.pollRequests = s.pollRequests := by
  cases moves <;> exact ⟨trivial, rfl, rfl⟩

variable [DecidableEq Thread]

theorem HandleMoves.frame {s t : State Thread} {rest : List RmsResponseData}
    (moves : HandleMoves s rest t) :
    t.poll.Stored ∧ t.control = s.control ∧ t.pollRequests = s.pollRequests := by
  cases moves <;> exact ⟨trivial, rfl, rfl⟩

/-- The poll thread writes its flag in its first step and never again. -/
theorem PollMoves.frame {s t : State Thread} {answer : Answer Thread}
    (moves : PollMoves s answer t) :
    t.poll.Stored ∧ t.control = s.control ∧ s.poll ≠ .idle ∧
      (s.poll = .storing ∧ t.pollRequests = true ∨
        s.poll.Stored ∧ t.pollRequests = s.pollRequests) := by
  cases moves with
  | store here => exact ⟨trivial, rfl, by simp [here], Or.inl ⟨here, rfl⟩⟩
  | handshake here h =>
    obtain ⟨stored, control, flag⟩ := (handshakeStep_moves h).frame
    exact ⟨stored, control, by simp [here], Or.inr ⟨by simp [PollPc.Stored, here], flag⟩⟩
  | send here first h =>
    obtain ⟨stored, control, flag⟩ := (sendTcpRequest_moves h).frame
    exact ⟨stored, control, by simp [here], Or.inr ⟨by simp [PollPc.Stored, here], flag⟩⟩
  | handle here h =>
    obtain ⟨stored, control, flag⟩ := (handleResponseData_moves h).frame
    exact ⟨stored, control, by simp [here], Or.inr ⟨by simp [PollPc.Stored, here], flag⟩⟩
  | loopTest here | flagTest here | retryTest here =>
    refine ⟨?_, rfl, by simp [here], Or.inr ⟨by simp [PollPc.Stored, here], rfl⟩⟩
    cases s.pollRequests <;> exact trivial
  | again here | enter here | acquire here | lock here | skip here | pop here | release here =>
    exact ⟨trivial, rfl, by simp [here], Or.inr ⟨by simp [PollPc.Stored, here], rfl⟩⟩

/-- The flag is set from the poll thread's first step until `stop` clears it. -/
structure Started (s : State Thread) : Prop where
  starting : s.control = .starting → s.poll = .idle
  unset : ¬ s.poll.Stored → s.pollRequests = false
  polling : s.poll.Stored → ¬ s.control.Stopping → s.pollRequests = true

omit [DecidableEq Thread] in
theorem started_start (config : Config) : Started (start config : State Thread) :=
  ⟨fun _ => rfl, fun _ => rfl, False.elim⟩

omit [DecidableEq Thread] in
theorem ControlMoves.started {s t : State Thread} (moves : ControlMoves s t) (hs : Started s) :
    Started t := by
  cases moves with
  | start here =>
    have unset : s.pollRequests = false := hs.unset (by simp [PollPc.Stored, hs.starting here])
    refine ⟨nofun, fun _ => unset, ?_⟩
    simp [unset, PollPc.Stored]
  | clear here => exact ⟨nofun, fun _ => rfl, fun _ running => absurd trivial running⟩
  | release | join | close =>
    exact ⟨nofun, hs.unset, fun _ running => absurd trivial running⟩

theorem SenderMoves.started {s t : State Thread} {e : Event Thread} (moves : SenderMoves s e t)
    (hs : Started s) : Started t := by
  cases moves <;> exact ⟨hs.starting, hs.unset, hs.polling⟩

theorem PollMoves.started {s t : State Thread} {answer : Answer Thread}
    (moves : PollMoves s answer t) (hs : Started s) : Started t := by
  obtain ⟨stored, control, begun, flag⟩ := moves.frame
  refine ⟨fun starting => absurd (hs.starting (control ▸ starting)) begun,
    fun unstored => absurd stored unstored, fun _ running => ?_⟩
  rw [control] at running
  obtain ⟨-, flag⟩ | ⟨before, flag⟩ := flag
  · exact flag
  · exact flag.trans (hs.polling before running)

theorem step_started (s : State Thread) (e : Event Thread) (t : State Thread) (hs : Started s)
    (h : step s e = some t) : Started t := by
  obtain ⟨-, moves⟩ := step_moves h
  cases moves with
  | control moves => exact moves.started hs
  | sender moves => exact moves.started hs
  | poll moves => exact moves.started hs

end Stages

end RequestClient
