import RemoteManagement.ReporterThreads
import RemoteManagement.RequestFailures
import RemoteManagement.Consumers
import RemoteManagement.Library.ForwardSimulation

/-!
# One reporter at three levels

The threads of the reporter, the request client and a single consumer are three
views of the same functions. The threads leave out what a handshake reads and what
the server responds, and the time that a consumer sleeps. A run of the threads is
a run of the request client, whose senders are the consumers, and for each of
them it is a run of the consumer among others that use the mutex.
-/

namespace ReporterRefinement

open ThriftTypes GuardedRun ReporterThreads ForwardSimulation

variable {n : Nat}

section Starting

/-- The consumers that `start` has yet to come to have not begun. -/
structure Fresh (s : Reporter n) : Prop where
  once : s.main.unstarted.Nodup
  idle : ∀ i ∈ s.main.unstarted, (s.consumers i).pc = .idle

theorem fresh_start : Fresh (start : Reporter n) := ⟨List.nodup_finRange n, fun _ _ => rfl⟩

theorem fresh_of_started {s : Reporter n} (none : s.main.unstarted = []) : Fresh s :=
  ⟨none ▸ List.nodup_nil, by simp [none]⟩

/-- A step of a consumer that was started is none of another's. -/
theorem Fresh.setPc {s : Reporter n} (hs : Fresh s) {i : Fin n} (pc : ConsumerPc)
    (started : (s.consumers i).pc ≠ .idle) : Fresh (s.setPc i pc) := by
  refine ⟨hs.once, fun j hj => ?_⟩
  have other : j ≠ i := fun here => started (here ▸ hs.idle j hj)
  rw [Reporter.setPc, setConsumer_consumers, if_neg other]
  exact hs.idle j hj

theorem mainStep_fresh {s t : Reporter n} (hs : Fresh s) (h : mainStep s = some t) : Fresh t := by
  obtain ⟨once, idle⟩ := hs
  cases hmain : s.main with
  | starting rest =>
    rw [hmain] at once idle
    cases rest with
    | cons i rest =>
      simp only [mainStep, hmain, Option.some.injEq] at h
      subst h
      obtain ⟨fresh, once⟩ := List.nodup_cons.mp once
      refine ⟨once, fun j hj => ?_⟩
      have other : j ≠ i := fun here => fresh (here ▸ hj)
      simp only [setConsumer_consumers, if_neg other]
      exact idle j (List.mem_cons_of_mem i hj)
    | nil =>
      simp only [mainStep, hmain] at h
      split at h <;> exact Option.some.inj h ▸ fresh_of_started rfl
  | stopping rest =>
    cases rest with
    | cons i rest =>
      simp only [mainStep, hmain, Option.some.injEq] at h
      exact h ▸ fresh_of_started rfl
    | nil =>
      simp only [mainStep, hmain, Option.some.injEq] at h
      exact h ▸ fresh_of_started rfl
  | waiting | releasing | closing =>
    simp only [mainStep, hmain, Option.some.injEq] at h
    exact h ▸ fresh_of_started rfl
  | joining i rest =>
    simp only [mainStep, hmain] at h
    split at h
    · exact Option.some.inj h ▸ fresh_of_started rfl
    · cases h
  | joiningPoll =>
    simp only [mainStep, hmain, Option.ite_none_right_eq_some, Option.some.injEq] at h
    exact h.2 ▸ fresh_of_started rfl
  | stopped => simp [mainStep, hmain] at h

theorem step_fresh (s : Reporter n) (e : Event n) (t : Reporter n) (hs : Fresh s)
    (h : step s e = some t) : Fresh t := by
  cases e with
  | main => exact mainStep_fresh hs h
  | gather i req =>
    obtain ⟨here, rfl⟩ := gather_eq h
    exact hs.setPc _ (by simp [here])
  | consumer i =>
    obtain ⟨c, moves⟩ := consumerStep_moves h
    have started : (s.consumers i).pc ≠ .idle := by
      intro idle
      simp [step, consumerStep, idle] at h
    refine ⟨moves.main ▸ hs.once, fun j hj => ?_⟩
    rw [moves.main] at hj
    have other : j ≠ i := fun here => started (here ▸ hs.idle j hj)
    rw [moves.consumers, Function.update_of_ne other]
    exact hs.idle j hj
  | poll ok =>
    have moves := pollStep_moves h
    exact ⟨moves.main ▸ hs.once, fun j hj => moves.consumers ▸ hs.idle j (moves.main ▸ hj)⟩
  | serverDown =>
    obtain rfl := Option.some.inj h
    exact ⟨hs.once, hs.idle⟩

end Starting

section Client

open RmsConfig

/-- The configuration has what a handshake reads. -/
structure Registered (config : Config) : Prop where
  port : find config serverPort ≠ "" ∧ ∃ port, findLong config serverPort = .ok port
  ip : find config serverIp ≠ ""
  id : ∃ id, findLong config computerId = .ok id

def controlOf : MainPc n → RequestClient.ControlPc
  | .starting _ => .starting
  | .waiting | .stopping _ | .joining _ _ => .running
  | .releasing => .releasing
  | .joiningPoll => .joining
  | .closing => .closing
  | .stopped => .stopped

def senderOf : ConsumerPc → RequestClient.SenderPc
  | .locking req => .locking false (.kTCP, req)
  | .pushing req => .pushing false (.kTCP, req)
  | .releasing => .releasing false
  | .idle | .loopTest | .gathering | .sleeping | .finished => .idle

def handshakeOf : HandshakePc → RequestClient.HandshakePc
  | .loopTest => .loopTest
  | .opening => .opening
  | .flagTest => .flagTest
  | .calling => .readingId

/-- The place of the poll thread; that it kept a permit is seen below only. -/
def pollOf (permit : Bool) : PollPc → RequestClient.PollPc (Fin n)
  | .idle => .idle
  | .storing => .storing
  | .handshakeTCP again pc => .handshakeTCP again (handshakeOf pc)
  | .handshaken result => .handshaken result
  | .loopTest => .loopTest
  | .acquiring => .acquiring
  | .flagTest => .flagTest
  | .locking => .locking
  | .sending => .sending
  | .releasing => .releasing
  | .retryTest => .retryTest
  | .ended => .ended permit

def ownerOf : Owner n → RequestClient.Owner (Fin n)
  | .consumer i => .sender i
  | .poll => .poll

structure Shows (config : Config) (s : Reporter n) (c : RequestClient.State (Fin n)) :
    Prop where
  control : c.control = controlOf s.main
  senders : c.senders = fun i => senderOf (s.consumers i).pc
  poll : ∃ permit, c.poll = pollOf permit s.poll
  mtx : c.mtx = s.mtx.map ownerOf
  requestCounter : c.requestCounter = s.requestCounter
  pollRequests : c.pollRequests = s.pollRequests
  requestQueue : c.requestQueue = s.requestQueue
  config : c.config = config

variable {config : Config} {s t : Reporter n} {c : RequestClient.State (Fin n)}

theorem shows_start (config : Config) :
    Shows config (start : Reporter n) (RequestClient.start config) where
  control := rfl
  senders := rfl
  poll := ⟨false, rfl⟩
  mtx := rfl
  requestCounter := rfl
  pollRequests := rfl
  requestQueue := rfl
  config := rfl

theorem Shows.alive (hs : Shows config s c) : c.poll ≠ .escaped := by
  obtain ⟨permit, poll⟩ := hs.poll
  rw [poll]
  cases s.poll <;> exact nofun

/-- The process has not ended, so the step is that of the thread. -/
theorem Shows.step_eq (hs : Shows config s c) (e : RequestClient.Event (Fin n)) :
    RequestClient.step c e = RequestClient.threadStep c e := by
  rw [RequestClient.step]
  split
  · rename_i escaped
    exact absurd escaped hs.alive
  · rfl

/-- The request client does not see where a consumer is outside of `sendRequest`. -/
theorem senders_setConsumer {i : Fin n} {d : Consumer}
    (senders : c.senders = fun i => senderOf (s.consumers i).pc) (pc : RequestClient.SenderPc)
    (own : senderOf d.pc = pc) :
    Function.update c.senders i pc = fun j => senderOf ((s.setConsumer i d).consumers j).pc := by
  funext j
  simp only [setConsumer_consumers, senders]
  by_cases here : j = i
  · subst here
    simp [own]
  · simp [here]

theorem senders_unseen {i : Fin n} {d : Consumer}
    (senders : c.senders = fun i => senderOf (s.consumers i).pc)
    (own : senderOf d.pc = senderOf (s.consumers i).pc) :
    c.senders = fun j => senderOf ((s.setConsumer i d).consumers j).pc := by
  rw [← senders_setConsumer senders _ own, senders]
  exact (Function.update_eq_self i _).symm

/-- The control thread of the request client is the main thread. -/
theorem main_matched (fresh : Fresh s) (hs : Shows config s c) (h : mainStep s = some t) :
    ∃ fs c', run RequestClient.step c fs = some c' ∧ Shows config t c' := by
  have moves := hs.step_eq .control
  obtain ⟨control, senders, ⟨permit, poll⟩, mtx, counter, flag, queue, same⟩ := hs
  cases hmain : s.main with
  | starting rest =>
    rw [hmain] at control
    cases rest with
    | cons i rest =>
      simp only [mainStep, hmain, Option.some.injEq] at h
      subst h
      have idle := fresh.idle i (by simp [MainPc.unstarted, hmain])
      exact matched_stutter ⟨control, senders_unseen senders (by rw [idle]; rfl), ⟨permit, poll⟩,
        mtx, counter, flag, queue, same⟩
    | nil =>
      have starts : RequestClient.threadStep c .control = some { c with
          control := .running, poll := if c.pollRequests then c.poll else .storing } := by
        simp [RequestClient.threadStep, RequestClient.controlStep, control, controlOf]
      simp only [mainStep, hmain] at h
      split at h
      · rename_i set
        obtain rfl := Option.some.inj h
        exact matched_step (moves.trans starts) ⟨rfl, senders, ⟨permit, by simp [flag, set, poll]⟩,
          mtx, counter, flag, queue, same⟩
      · rename_i unset
        obtain rfl := Option.some.inj h
        exact matched_step (moves.trans starts)
          ⟨rfl, senders, ⟨permit, by simp [flag, unset, pollOf]⟩, mtx, counter, flag, queue, same⟩
  | waiting =>
    rw [hmain] at control
    simp only [mainStep, hmain, Option.some.injEq] at h
    subst h
    exact matched_stutter ⟨control, senders, ⟨permit, poll⟩, mtx, counter, flag, queue, same⟩
  | stopping rest =>
    rw [hmain] at control
    cases rest with
    | cons i rest =>
      simp only [mainStep, hmain, Option.some.injEq] at h
      subst h
      exact matched_stutter ⟨control, senders_unseen senders rfl, ⟨permit, poll⟩, mtx, counter,
        flag, queue, same⟩
    | nil =>
      simp only [mainStep, hmain, Option.some.injEq] at h
      subst h
      have clears : RequestClient.threadStep c .control =
          some { c with pollRequests := false, control := .releasing } := by
        simp [RequestClient.threadStep, RequestClient.controlStep, control, controlOf]
      exact matched_step (moves.trans clears) ⟨rfl, senders, ⟨permit, poll⟩, mtx, counter, rfl,
        queue, same⟩
  | joining i rest =>
    rw [hmain] at control
    simp only [mainStep, hmain] at h
    split at h
    · obtain rfl := Option.some.inj h
      exact matched_stutter ⟨control, senders, ⟨permit, poll⟩, mtx, counter, flag, queue, same⟩
    · cases h
  | releasing =>
    rw [hmain] at control
    simp only [mainStep, hmain, Option.some.injEq] at h
    subst h
    have releases : RequestClient.threadStep c .control =
        some { c with requestCounter := c.requestCounter + 1, control := .joining } := by
      simp [RequestClient.threadStep, RequestClient.controlStep, control, controlOf]
    exact matched_step (moves.trans releases) ⟨rfl, senders, ⟨permit, poll⟩, mtx,
      congrArg (· + 1) counter, flag, queue, same⟩
  | joiningPoll =>
    rw [hmain] at control
    simp only [mainStep, hmain, Option.ite_none_right_eq_some, Option.some.injEq] at h
    obtain ⟨ended, rfl⟩ := h
    have joins : RequestClient.threadStep c .control = some { c with control := .closing } := by
      simp [RequestClient.threadStep, RequestClient.controlStep, control, controlOf, poll,
        ended, pollOf]
    exact matched_step (moves.trans joins) ⟨rfl, senders, ⟨permit, poll⟩, mtx, counter, flag, queue,
      same⟩
  | closing =>
    rw [hmain] at control
    simp only [mainStep, hmain, Option.some.injEq] at h
    subst h
    have closes : RequestClient.threadStep c .control = some { c with control := .stopped } := by
      simp [RequestClient.threadStep, RequestClient.controlStep, control, controlOf]
    exact matched_step (moves.trans closes) ⟨rfl, senders, ⟨permit, poll⟩, mtx, counter, flag,
      queue, same⟩
  | stopped => simp [mainStep, hmain] at h

theorem consumer_matched (hs : Shows config s c) {i : Fin n} (h : consumerStep s i = some t) :
    ∃ fs c', run RequestClient.step c fs = some c' ∧ Shows config t c' := by
  have moves := hs.step_eq (.sender i)
  obtain ⟨control, senders, poll, mtx, counter, flag, queue, same⟩ := hs
  have own : c.senders i = senderOf (s.consumers i).pc := congrFun senders i
  cases hpc : (s.consumers i).pc with
  | idle | gathering | finished => simp [consumerStep, hpc] at h
  | loopTest =>
    simp only [consumerStep, hpc, Option.some.injEq] at h
    subst h
    refine matched_stutter ⟨control, senders_unseen senders ?_, poll, mtx, counter, flag, queue,
      same⟩
    rw [hpc]
    split <;> rfl
  | sleeping =>
    simp only [consumerStep, hpc, Option.some.injEq] at h
    subst h
    exact matched_stutter ⟨control, senders_unseen senders (by rw [hpc]; rfl), poll, mtx, counter,
      flag, queue, same⟩
  | locking req =>
    simp only [consumerStep, hpc, Option.ite_none_right_eq_some, Option.some.injEq] at h
    obtain ⟨free, rfl⟩ := h
    rw [hpc] at own
    have locks : RequestClient.threadStep c (.sender i) = some { c.setSender i
        (.pushing false (.kTCP, req)) with mtx := some (.sender i) } := by
      simp [RequestClient.threadStep, RequestClient.senderStep, own, senderOf, mtx, free]
    exact matched_step (moves.trans locks) ⟨control, senders_setConsumer senders _ rfl, poll, rfl,
      counter, flag, queue, same⟩
  | pushing req =>
    simp only [consumerStep, hpc, Option.some.injEq] at h
    subst h
    rw [hpc] at own
    have pushes : RequestClient.threadStep c (.sender i) =
        some ((c.setSender i (.releasing false)).push (.kTCP, req)) := by
      simp [RequestClient.threadStep, RequestClient.senderStep, own, senderOf]
    exact matched_step (moves.trans pushes) ⟨control, senders_setConsumer senders _ rfl, poll, rfl,
      counter, flag, congrArg (· ++ [_]) queue, same⟩
  | releasing =>
    simp only [consumerStep, hpc, Option.some.injEq] at h
    subst h
    rw [hpc] at own
    have releases : RequestClient.threadStep c (.sender i) =
        some { c.setSender i .idle with requestCounter := c.requestCounter + 1 } := by
      simp [RequestClient.threadStep, RequestClient.senderStep, own, senderOf]
    exact matched_step (moves.trans releases) ⟨control, senders_setConsumer senders _ rfl, poll,
      mtx, congrArg (· + 1) counter, flag, queue, same⟩

theorem gather_matched (hs : Shows config s c) {i : Fin n} {req : RmsRequest}
    (h : step s (.gather i req) = some t) :
    ∃ fs c', run RequestClient.step c fs = some c' ∧ Shows config t c' := by
  obtain ⟨hpc, rfl⟩ := gather_eq h
  have moves := hs.step_eq (.call i .kTCP req)
  obtain ⟨control, senders, poll, mtx, counter, flag, queue, same⟩ := hs
  have own : c.senders i = .idle := (congrFun senders i).trans (by rw [hpc]; rfl)
  have calls : RequestClient.threadStep c (.call i .kTCP req) =
      some (c.setSender i (.locking false (.kTCP, req))) := by
    simp [RequestClient.threadStep, own]
  exact matched_step (moves.trans calls) ⟨control, senders_setConsumer senders _ rfl, poll, mtx,
    counter, flag, queue, same⟩

theorem Shows.poll_to (hs : Shows config s c) {p : PollPc} {q : RequestClient.PollPc (Fin n)}
    (permit : Bool) (place : q = pollOf permit p) :
    Shows config { s with poll := p } { c with poll := q } :=
  { hs with poll := ⟨permit, place⟩ }

theorem handshake_matched (registered : Registered config) (hs : Shows config s c)
    {again ok : Bool} {pc : HandshakePc} (here : s.poll = .handshakeTCP again pc)
    (h : handshakeStep s again ok pc = some t) :
    ∃ fs c', run RequestClient.step c fs = some c' ∧ Shows config t c' := by
  obtain ⟨permit, poll⟩ := hs.poll
  rw [here, pollOf] at poll
  have flag := hs.pollRequests
  cases pc with
  | loopTest =>
    obtain rfl := Option.some.inj h
    have tests : RequestClient.step c (.poll .quiet) = some { c with
        poll := .handshakeTCP again (if c.pollRequests then .opening else .flagTest) } := by
      simp [RequestClient.step, poll, RequestClient.threadStep, RequestClient.pollStep,
        handshakeOf, RequestClient.handshakeStep]
    refine matched_step tests (hs.poll_to permit ?_)
    rw [flag]
    split <;> rfl
  | opening =>
    obtain rfl := Option.some.inj h
    have opens : RequestClient.step c (.poll (.opened ok)) = some { c with
        poll := .handshakeTCP again (if ok then .flagTest else .loopTest) } := by
      simp [RequestClient.step, poll, RequestClient.threadStep, RequestClient.pollStep,
        handshakeOf, RequestClient.handshakeStep]
    refine matched_step opens (hs.poll_to permit ?_)
    split <;> rfl
  | flagTest =>
    have tests : RequestClient.step c (.poll .quiet) = some { c with
        poll := if c.pollRequests then .handshakeTCP again .readingId
          else if again then .retryTest else .handshaken (-1) } := by
      cases hc : c.pollRequests <;>
        simp [RequestClient.step, poll, RequestClient.threadStep, RequestClient.pollStep,
          handshakeOf, RequestClient.handshakeStep, RequestClient.State.leaveHandshake, hc]
    rw [handshakeStep] at h
    refine matched_step tests ?_
    split at h
    · rename_i set
      obtain rfl := Option.some.inj h
      exact hs.poll_to permit (by rw [flag, if_pos set]; rfl)
    · rename_i unset
      obtain rfl := Option.some.inj h
      exact hs.poll_to permit (by rw [flag, if_neg unset]; split <;> rfl)
  | calling =>
    -- the call returns the id that it was given
    obtain ⟨id, reads⟩ := registered.id
    rw [handshakeStep, Option.ite_none_right_eq_some] at h
    obtain ⟨-, h⟩ := h
    obtain rfl := Option.some.inj h
    have reading : RequestClient.step c (.poll .quiet) = some { c with
        poll := .handshakeTCP again (.calling id) } := by
      simp [RequestClient.step, poll, RequestClient.threadStep, RequestClient.pollStep,
        handshakeOf, RequestClient.handshakeStep, hs.config, reads]
    have called : RequestClient.step { c with poll := .handshakeTCP again (.calling id) }
        (.poll (.handshaken (some id))) = some { c with
          poll := if again then .retryTest else .handshaken 0 } := by
      simp [RequestClient.step, RequestClient.threadStep, RequestClient.pollStep,
        RequestClient.handshakeStep, RequestClient.State.leaveHandshake]
    refine matched_two reading called (hs.poll_to permit ?_)
    split <;> rfl

/-- The handshake begins with what the threads leave out. -/
theorem socket_matched (registered : Registered config) (hs : Shows config s c) (again : Bool) :
    RequestClient.step { c with poll := .handshakeTCP again .socket } (.poll .quiet) =
      some { c with poll := .handshakeTCP again .loopTest } := by
  obtain ⟨nonempty, port, reads⟩ := registered.port
  simp [RequestClient.step, RequestClient.threadStep, RequestClient.pollStep,
    RequestClient.handshakeStep, hs.config, nonempty, registered.ip, reads]

/-- A request of another protocol is taken for sent. -/
theorem skip_matched (hs : Shows config s c) (here : s.poll = .sending) {type : RequestProtocol}
    {req : RmsRequest} {rest : List (RequestProtocol × RmsRequest)}
    (first : s.requestQueue = (type, req) :: rest) (other : type ≠ .kTCP) :
    ∃ fs c', run RequestClient.step c fs = some c' ∧
      Shows config { s with requestQueue := rest, mtx := none, poll := .loopTest } c' := by
  obtain ⟨permit, poll⟩ := hs.poll
  rw [here, pollOf] at poll
  have queue := hs.requestQueue
  rw [first] at queue
  have skips : RequestClient.step c (.poll .quiet) = some (c.pop (type, req) rest) := by
    cases type with
    | kTCP => exact absurd rfl other
    | kHTTP | kLOG =>
      simp [RequestClient.step, poll, RequestClient.threadStep, RequestClient.pollStep, queue]
  exact matched_step skips { hs with poll := ⟨permit, rfl⟩, mtx := rfl, requestQueue := rfl }

theorem poll_matched (registered : Registered config) (hs : Shows config s c) {ok : Bool}
    (h : pollStep s ok = some t) :
    ∃ fs c', run RequestClient.step c fs = some c' ∧ Shows config t c' := by
  obtain ⟨permit, poll⟩ := hs.poll
  have flag := hs.pollRequests
  have counter := hs.requestCounter
  have mtx := hs.mtx
  have queue := hs.requestQueue
  cases here : s.poll with
  | idle | ended => simp [pollStep, here] at h
  | storing =>
    rw [here, pollOf] at poll
    simp only [pollStep, here, Option.some.injEq] at h
    subst h
    have stores : RequestClient.step c (.poll .quiet) = some { c with
        pollRequests := true, poll := .handshakeTCP false .socket } := by
      simp [RequestClient.step, poll, RequestClient.threadStep, RequestClient.pollStep]
    have stored : Shows config { s with pollRequests := true } { c with pollRequests := true } :=
      { hs with pollRequests := rfl }
    exact matched_two stores (socket_matched registered stored false)
      (stored.poll_to permit rfl)
  | handshakeTCP again pc =>
    simp only [pollStep, here, Option.ite_none_right_eq_some] at h
    exact handshake_matched registered hs here h.2
  | handshaken result =>
    rw [here, pollOf] at poll
    have tests : RequestClient.step c (.poll .quiet) = some { c with
        poll := if result ≠ 0 ∧ c.pollRequests then .handshakeTCP false .socket
          else .loopTest } := by
      simp [RequestClient.step, poll, RequestClient.threadStep, RequestClient.pollStep]
    simp only [pollStep, here] at h
    split at h
    · rename_i fails
      obtain rfl := Option.some.inj h
      rw [← flag] at fails
      rw [if_pos fails] at tests
      exact matched_two tests (socket_matched registered hs false) (hs.poll_to permit rfl)
    · rename_i connected
      obtain rfl := Option.some.inj h
      rw [← flag] at connected
      rw [if_neg connected] at tests
      exact matched_step tests (hs.poll_to permit rfl)
  | loopTest =>
    rw [here, pollOf] at poll
    simp only [pollStep, here, Option.some.injEq] at h
    subst h
    have tests : RequestClient.step c (.poll .quiet) = some { c with
        poll := if c.pollRequests then .acquiring else .ended false } := by
      simp [RequestClient.step, poll, RequestClient.threadStep, RequestClient.pollStep]
    refine matched_step tests (hs.poll_to false ?_)
    rw [flag]
    split <;> rfl
  | acquiring =>
    rw [here, pollOf] at poll
    simp only [pollStep, here, Option.ite_none_left_eq_some, Option.some.injEq] at h
    obtain ⟨positive, rfl⟩ := h
    have acquires : RequestClient.step c (.poll .quiet) = some { c with
        requestCounter := c.requestCounter - 1, poll := .flagTest } := by
      simp [RequestClient.step, poll, RequestClient.threadStep, RequestClient.pollStep, counter,
        positive]
    exact matched_step acquires
      { hs with poll := ⟨permit, rfl⟩, requestCounter := congrArg (· - 1) counter }
  | flagTest =>
    rw [here, pollOf] at poll
    simp only [pollStep, here, Option.some.injEq] at h
    subst h
    have tests : RequestClient.step c (.poll .quiet) = some { c with
        poll := if c.pollRequests then .locking else .ended true } := by
      simp [RequestClient.step, poll, RequestClient.threadStep, RequestClient.pollStep]
    refine matched_step tests (hs.poll_to true ?_)
    rw [flag]
    split <;> rfl
  | locking =>
    rw [here, pollOf] at poll
    simp only [pollStep, here, Option.ite_none_right_eq_some, Option.some.injEq] at h
    obtain ⟨free, rfl⟩ := h
    have locks : RequestClient.step c (.poll .quiet) = some { c with
        mtx := some .poll, poll := .sending } := by
      simp [RequestClient.step, poll, RequestClient.threadStep, RequestClient.pollStep, mtx, free]
    exact matched_step locks { hs with poll := ⟨permit, rfl⟩, mtx := rfl }
  | sending =>
    rw [here, pollOf] at poll
    simp only [pollStep, here] at h
    split at h
    · cases h
    · rename_i req rest first
      rw [first] at queue
      split at h
      · -- an empty response
        rw [Option.ite_none_right_eq_some] at h
        obtain ⟨-, h⟩ := h
        obtain rfl := Option.some.inj h
        have sends : RequestClient.step c (.poll (.replied [])) = some { c with
            ingested := c.ingested ++ [req], poll := .handling [] } := by
          simp [RequestClient.step, poll, RequestClient.threadStep, RequestClient.pollStep, queue,
            RequestClient.sendTcpRequest]
        have pops : RequestClient.step { c with
            ingested := c.ingested ++ [req], poll := .handling [] } (.poll .quiet) =
            some ({ c with ingested := c.ingested ++ [req] }.pop (.kTCP, req) rest) := by
          simp [RequestClient.step, RequestClient.threadStep, RequestClient.pollStep, queue,
            RequestClient.State.pop]
        exact matched_two sends pops
          { hs with poll := ⟨permit, rfl⟩, mtx := rfl, requestQueue := rfl }
      · obtain rfl := Option.some.inj h
        have fails : RequestClient.step c (.poll .lostRequest) =
            some { c with poll := .releasing } := by
          simp [RequestClient.step, poll, RequestClient.threadStep, RequestClient.pollStep, queue,
            RequestClient.sendTcpRequest]
        exact matched_step fails (hs.poll_to permit rfl)
    · rename_i first
      obtain rfl := Option.some.inj h
      exact skip_matched hs here first (by simp)
    · rename_i first
      obtain rfl := Option.some.inj h
      exact skip_matched hs here first (by simp)
  | releasing =>
    rw [here, pollOf] at poll
    simp only [pollStep, here, Option.some.injEq] at h
    subst h
    have releases : RequestClient.step c (.poll .quiet) = some { c with
        requestCounter := c.requestCounter + 1, poll := .handshakeTCP true .socket } := by
      simp [RequestClient.step, poll, RequestClient.threadStep, RequestClient.pollStep]
    have released : Shows config { s with requestCounter := s.requestCounter + 1 }
        { c with requestCounter := c.requestCounter + 1 } :=
      { hs with requestCounter := congrArg (· + 1) counter }
    exact matched_two releases (socket_matched registered released true)
      (released.poll_to permit rfl)
  | retryTest =>
    rw [here, pollOf] at poll
    simp only [pollStep, here, Option.some.injEq] at h
    subst h
    have tests : RequestClient.step c (.poll .quiet) = some { c with
        mtx := none, poll := if c.pollRequests then .loopTest else .ended false } := by
      simp [RequestClient.step, poll, RequestClient.threadStep, RequestClient.pollStep]
    refine matched_step tests { hs with poll := ⟨false, ?_⟩, mtx := rfl }
    rw [flag]
    split <;> rfl

theorem client_simulates (registered : Registered config) :
    Simulates (step (n := n)) (fun _ _ => True) RequestClient.step
      (fun s c => Fresh s ∧ Shows config s c) := by
  rintro s c e t ⟨fresh, hs⟩ - h
  have matched : ∃ fs c', run RequestClient.step c fs = some c' ∧ Shows config t c' := by
    cases e with
    | main => exact main_matched fresh hs h
    | gather i req => exact gather_matched hs h
    | consumer i => exact consumer_matched hs h
    | poll ok => exact poll_matched registered hs h
    | serverDown =>
      obtain rfl := Option.some.inj h
      exact matched_stutter { hs with }
  obtain ⟨fs, c', goes, shows'⟩ := matched
  exact ⟨fs, c', goes, step_fresh s e t fresh h, shows'⟩

/-- Every run of the threads is one of the request client, with the consumers as
its senders. -/
theorem run_requestClient (registered : Registered config) {es : List (Event n)}
    (arrives : run step start es = some s) :
    ∃ fs c, run RequestClient.step (RequestClient.start config) fs = some c ∧
      Shows config s c := by
  obtain ⟨fs, c, goes, -, shows'⟩ := (client_simulates registered).run_matched
    ⟨fresh_start, shows_start config⟩ (guarded_of_forall fun _ _ => trivial) arrives
  exact ⟨fs, c, goes, shows'⟩

end Client

section Consumer

variable {k : Consumers.Consumer} {i : Fin n} {s s' : Reporter n} {t : Consumers.State}

/-- The place of a consumer, without what its sleeps count. -/
def placeOf : Consumers.Pc → ConsumerPc
  | .idle => .idle
  | .loopTest => .loopTest
  | .reporting _ => .gathering
  | .locking req => .locking req
  | .pushing req => .pushing req
  | .releasing => .releasing
  | .sleepTest _ | .sleeping _ _ => .sleeping
  | .finished => .finished

theorem pc_of_placeOf {p : Consumers.Pc} {q : ConsumerPc} (h : placeOf p = q) :
    match q with
    | .idle => p = .idle
    | .loopTest => p = .loopTest
    | .gathering => ∃ wakes, p = .reporting wakes
    | .locking req => p = .locking req
    | .pushing req => p = .pushing req
    | .releasing => p = .releasing
    | .sleeping => (∃ j, p = .sleepTest j) ∨ ∃ j wakes, p = .sleeping j wakes
    | .finished => p = .finished := by
  subst h
  cases p <;> simp [placeOf]

def viewOf (i : Fin n) (o : Owner n) : Consumers.Owner :=
  if o = .consumer i then .consumer else .others

structure Follows (i : Fin n) (s : Reporter n) (t : Consumers.State) : Prop where
  isConsuming : (s.consumers i).isConsuming = t.isConsuming
  pc : (s.consumers i).pc = placeOf t.pc
  mtx : s.mtx.map (viewOf i) = t.mtx

/-- What the consumer gathers is what it reports. -/
def Gathers (k : Consumers.Consumer) (i : Fin n) : Event n → Prop
  | .gather j req => j = i → Consumers.Made k req
  | _ => True

theorem run_seconds (t : Consumers.State) (m : Nat) :
    run (Consumers.step k) t (List.replicate m .second) = some { t with clock := t.clock + m } := by
  induction m generalizing t with
  | zero => rfl
  | succ m ih =>
    rw [List.replicate_succ, run, Consumers.step, Option.bind_some, ih, Nat.add_comm m,
      ← Nat.add_assoc]

/-- The sleep that is left is slept, unless the flag is cleared. -/
theorem run_sleepTest (left : Nat) (t : Consumers.State) {j : Int} (here : t.pc = .sleepTest j)
    (most : (k.timeout - j).toNat ≤ left) :
    ∃ fs clock, run (Consumers.step k) t fs = some { t with pc := .loopTest, clock := clock } := by
  by_cases more : j < k.timeout ∧ t.isConsuming = true
  · induction left generalizing t j with
    | zero => omega
    | succ left ih =>
      let u : Consumers.State := { t with pc := .sleepTest (j + 1), clock := t.clock + 1 }
      have slept : run (Consumers.step k) t [.thread, .second, .thread] = some u := by
        simp [run, Consumers.step, Consumers.consume, here, more, u]
      obtain ⟨fs, clock, rest⟩ : ∃ fs clock, run (Consumers.step k) u fs =
          some { u with pc := .loopTest, clock := clock } := by
        by_cases again : j + 1 < k.timeout ∧ u.isConsuming = true
        · exact ih u rfl (by omega) again
        · exact ⟨[.thread], u.clock, by
            simp only [run, Consumers.step, Consumers.consume, u] at again ⊢
            simp only [if_neg again, Option.bind_some]⟩
      exact ⟨[.thread, .second, .thread] ++ fs, clock, by
        rw [run_append, slept, Option.bind_some, rest]⟩
  · exact ⟨[.thread], t.clock, by simp [run, Consumers.step, Consumers.consume, here, more]⟩

theorem run_wakes (t : Consumers.State) (sleeps : placeOf t.pc = .sleeping) :
    ∃ fs clock, run (Consumers.step k) t fs = some { t with pc := .loopTest, clock := clock } := by
  rcases pc_of_placeOf (q := .sleeping) sleeps with ⟨j, here⟩ | ⟨j, wakes, here⟩
  · exact run_sleepTest _ t here le_rfl
  · let u : Consumers.State :=
      { t with pc := .sleepTest (j + 1), clock := t.clock + (wakes - t.clock) }
    have slept : run (Consumers.step k) t
        (List.replicate (wakes - t.clock) .second ++ [.thread]) = some u := by
      rw [run_append, run_seconds]
      simp [run, Consumers.step, Consumers.consume, here, u]
      omega
    obtain ⟨fs, clock, rest⟩ := run_sleepTest (k := k) _ u rfl le_rfl
    exact ⟨_, clock, by rw [run_append, slept, Option.bind_some, rest]⟩

/-- The mutex goes to another thread, or comes back from one. -/
theorem others_matched (hs : Follows i s t) (same : s'.consumers i = s.consumers i)
    {o : Owner n} (other : o ≠ .consumer i)
    (mutex : s'.mtx = s.mtx ∨ (s.mtx = none ∧ s'.mtx = some o) ∨
      (s.mtx = some o ∧ s'.mtx = none)) :
    ∃ fs t', run (Consumers.step k) t fs = some t' ∧ Follows i s' t' := by
  obtain ⟨isConsuming, pc, mtx⟩ := hs
  rw [← same] at isConsuming pc
  have others : viewOf i o = .others := if_neg other
  rcases mutex with kept | ⟨free, taken⟩ | ⟨held, given⟩
  · exact matched_stutter ⟨isConsuming, pc, kept ▸ mtx⟩
  · rw [free, Option.map_none] at mtx
    have locks : Consumers.step k t .lock = some { t with mtx := some .others } :=
      if_pos mtx.symm
    exact matched_step locks ⟨isConsuming, pc, by rw [taken, Option.map_some, others]⟩
  · rw [held, Option.map_some, others] at mtx
    have unlocks : Consumers.step k t .unlock = some { t with mtx := none } := if_pos mtx.symm
    exact matched_step unlocks ⟨isConsuming, pc, by rw [given, Option.map_none]⟩

theorem main_followed (fresh : Fresh s) (hs : Follows i s t) (h : mainStep s = some s') :
    ∃ fs t', run (Consumers.step k) t fs = some t' ∧ Follows i s' t' := by
  have mutex := (mainStep_moves h).mtx
  obtain ⟨isConsuming, pc, mtx⟩ := hs
  have stutters (same : s'.consumers i = s.consumers i) :
      ∃ fs t', run (Consumers.step k) t fs = some t' ∧ Follows i s' t' :=
    matched_stutter ⟨same ▸ isConsuming, same ▸ pc, mutex ▸ mtx⟩
  cases hmain : s.main with
  | starting rest =>
    cases rest with
    | cons j rest =>
      simp only [mainStep, hmain, Option.some.injEq] at h
      subst h
      by_cases own : j = i
      · subst own
        have idle := fresh.idle j (by simp [MainPc.unstarted, hmain])
        have here : t.pc = .idle := pc_of_placeOf (q := .idle) (pc.symm.trans idle)
        have starts : Consumers.step k t .start =
            some { t with isConsuming := true, pc := .loopTest } := by
          simp [Consumers.step, here]
        refine matched_step starts ⟨?_, ?_, mtx⟩ <;> simp [setConsumer_consumers, placeOf]
      · exact stutters (by simp [setConsumer_consumers, Ne.symm own])
    | nil =>
      simp only [mainStep, hmain] at h
      split at h <;> exact stutters (Option.some.inj h ▸ rfl)
  | stopping rest =>
    cases rest with
    | cons j rest =>
      simp only [mainStep, hmain, Option.some.injEq] at h
      subst h
      by_cases own : j = i
      · subst own
        have stops : Consumers.step k t .stop = some { t with isConsuming := false } := rfl
        refine matched_step stops ⟨?_, ?_, mtx⟩ <;> simp [setConsumer_consumers, pc]
      · exact stutters (by simp [setConsumer_consumers, Ne.symm own])
    | nil =>
      simp only [mainStep, hmain, Option.some.injEq] at h
      exact stutters (h ▸ rfl)
  | waiting | releasing | closing =>
    simp only [mainStep, hmain, Option.some.injEq] at h
    exact stutters (h ▸ rfl)
  | joining j rest =>
    simp only [mainStep, hmain] at h
    split at h
    · exact stutters (Option.some.inj h ▸ rfl)
    · cases h
  | joiningPoll =>
    simp only [mainStep, hmain, Option.ite_none_right_eq_some, Option.some.injEq] at h
    exact stutters (h.2 ▸ rfl)
  | stopped => simp [mainStep, hmain] at h

/-- The consumer's own step, with the time that goes by in it. -/
theorem own_followed (hs : Follows i s t) (h : consumerStep s i = some s') :
    ∃ fs t', run (Consumers.step k) t fs = some t' ∧ Follows i s' t' := by
  obtain ⟨isConsuming, pc, mtx⟩ := hs
  have goes (p : ConsumerPc) : (s.setPc i p).consumers i = { s.consumers i with pc := p } := by
    simp [Reporter.setPc, setConsumer_consumers]
  cases hpc : (s.consumers i).pc with
  | idle | gathering | finished => simp [consumerStep, hpc] at h
  | loopTest =>
    simp only [consumerStep, hpc, Option.some.injEq] at h
    subst h
    have here : t.pc = .loopTest := pc_of_placeOf (q := .loopTest) (pc.symm.trans hpc)
    have tests : Consumers.step k t .thread = some { t with
        pc := if t.isConsuming then .reporting (t.clock + k.reporter.seconds) else .finished } := by
      simp [Consumers.step, Consumers.consume, here]
    refine matched_step tests ⟨by rw [goes]; exact isConsuming, ?_, mtx⟩
    rw [goes, isConsuming]
    dsimp only
    split <;> rfl
  | locking req =>
    simp only [consumerStep, hpc, Option.ite_none_right_eq_some, Option.some.injEq] at h
    obtain ⟨free, rfl⟩ := h
    have here : t.pc = .locking req := pc_of_placeOf (q := .locking req) (pc.symm.trans hpc)
    rw [free, Option.map_none] at mtx
    have locks : Consumers.step k t .thread =
        some { t with mtx := some .consumer, pc := .pushing req } := by
      simp [Consumers.step, Consumers.consume, here, ← mtx]
    refine matched_step locks ⟨?_, ?_, by simp [viewOf]⟩
    · simpa [Reporter.setPc, setConsumer_consumers] using isConsuming
    · simp [Reporter.setPc, setConsumer_consumers, placeOf]
  | pushing req =>
    simp only [consumerStep, hpc, Option.some.injEq] at h
    subst h
    have here : t.pc = .pushing req := pc_of_placeOf (q := .pushing req) (pc.symm.trans hpc)
    have pushes : Consumers.step k t .thread = some { t with
        sent := t.sent ++ [(t.clock, req)], mtx := none, pc := .releasing } := by
      simp [Consumers.step, Consumers.consume, here]
    refine matched_step pushes ⟨?_, ?_, rfl⟩
    · simpa [Reporter.setPc, setConsumer_consumers] using isConsuming
    · simp [Reporter.setPc, setConsumer_consumers, placeOf]
  | releasing =>
    simp only [consumerStep, hpc, Option.some.injEq] at h
    subst h
    have here : t.pc = .releasing := pc_of_placeOf (q := .releasing) (pc.symm.trans hpc)
    have releases : Consumers.step k t .thread = some { t with pc := .sleepTest 0 } := by
      simp [Consumers.step, Consumers.consume, here]
    refine matched_step releases ⟨?_, ?_, mtx⟩
    · simpa [Reporter.setPc, setConsumer_consumers] using isConsuming
    · simp [Reporter.setPc, setConsumer_consumers, placeOf]
  | sleeping =>
    simp only [consumerStep, hpc, Option.some.injEq] at h
    subst h
    obtain ⟨fs, clock, wakes⟩ := run_wakes (k := k) t (pc.symm.trans hpc)
    refine ⟨fs, _, wakes, ?_, ?_, mtx⟩
    · simpa [Reporter.setPc, setConsumer_consumers] using isConsuming
    · simp [Reporter.setPc, setConsumer_consumers, placeOf]

/-- The report ends when it has slept. -/
theorem gather_followed (hs : Follows i s t) {req : RmsRequest} (made : Consumers.Made k req)
    (h : step s (.gather i req) = some s') :
    ∃ fs t', run (Consumers.step k) t fs = some t' ∧ Follows i s' t' := by
  obtain ⟨hpc, rfl⟩ := gather_eq h
  obtain ⟨isConsuming, pc, mtx⟩ := hs
  obtain ⟨values, timestamp, rfl⟩ := made
  obtain ⟨wakes, here⟩ := pc_of_placeOf (q := .gathering) (pc.symm.trans hpc)
  refine ⟨List.replicate (wakes - t.clock) .second ++ [.report values timestamp],
    { t with clock := t.clock + (wakes - t.clock)
             pc := .locking (Consumers.request k values timestamp) }, ?_, ?_, ?_, mtx⟩
  · have awake : wakes ≤ t.clock + (wakes - t.clock) := by omega
    rw [run_append, run_seconds]
    simp [run, Consumers.step, here, awake]
  · simpa [Reporter.setPc, setConsumer_consumers] using isConsuming
  · simp [Reporter.setPc, setConsumer_consumers, placeOf]

theorem consumer_simulates (k : Consumers.Consumer) (i : Fin n) :
    Simulates (step (n := n)) (fun _ e => Gathers k i e) (Consumers.step k)
      (fun s t => Fresh s ∧ Locked s ∧ Follows i s t) := by
  rintro s t e s' ⟨fresh, locked, hs⟩ gathers h
  have matched : ∃ fs t', run (Consumers.step k) t fs = some t' ∧ Follows i s' t' := by
    cases e with
    | main => exact main_followed fresh hs h
    | gather j req =>
      by_cases own : j = i
      · subst own
        exact gather_followed hs (gathers rfl) h
      · obtain ⟨-, rfl⟩ := gather_eq h
        exact others_matched hs (by simp [Reporter.setPc, setConsumer_consumers, Ne.symm own])
          (o := .poll) (by simp) (Or.inl rfl)
    | consumer j =>
      by_cases own : j = i
      · subst own
        exact own_followed hs h
      · obtain ⟨c, moves⟩ := consumerStep_moves h
        refine others_matched hs (by rw [moves.consumers, Function.update_of_ne (Ne.symm own)])
          (o := .consumer j) (by simpa using own) ?_
        rcases moves.mutex with ⟨kept, -⟩ | taken | ⟨holds, given, -⟩
        · exact Or.inl kept
        · exact Or.inr (Or.inl taken)
        · exact Or.inr (Or.inr ⟨locked.consumers j holds, given⟩)
    | poll ok =>
      have moves := pollStep_moves h
      refine others_matched hs (by rw [moves.consumers]) (o := .poll) (by simp) ?_
      rcases moves.mutex with ⟨kept, -⟩ | taken | ⟨holds, given, -⟩
      · exact Or.inl kept
      · exact Or.inr (Or.inl taken)
      · exact Or.inr (Or.inr ⟨locked.poll holds, given⟩)
    | serverDown =>
      obtain rfl := Option.some.inj h
      exact matched_stutter ⟨hs.isConsuming, hs.pc, hs.mtx⟩
  obtain ⟨fs, t', goes, follows⟩ := matched
  exact ⟨fs, t', goes, step_fresh s e s' fresh h, step_locked s e s' locked h, follows⟩

/-- Every run of the threads in which a consumer gathers its own reports is one of
that consumer. -/
theorem run_consumer (k : Consumers.Consumer) (i : Fin n) {es : List (Event n)}
    (gathers : ∀ e ∈ es, Gathers k i e) (arrives : run step start es = some s) :
    ∃ fs t, run (Consumers.step k) {} fs = some t ∧ Follows i s t := by
  have idle : Follows i (start : Reporter n) {} := ⟨rfl, rfl, rfl⟩
  obtain ⟨fs, t, goes, -, -, follows⟩ := (consumer_simulates k i).run_matched
    ⟨fresh_start, locked_start, idle⟩ (guarded_of_forall gathers) arrives
  exact ⟨fs, t, goes, follows⟩

end Consumer

end ReporterRefinement
