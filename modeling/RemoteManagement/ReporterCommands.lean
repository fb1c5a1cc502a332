import RemoteManagement.RequestDelivery

/-!
# Commands and results in the reporter

A command is among the responses that the poll thread handles until an executor
is started for it. The executor's thread has the command's id until it makes the
request with its result, and the request waits its turn in the queue.
-/

namespace ReporterCommands

open ThriftTypes RequestClient RequestDelivery
open ReporterThreads (RequestProtocol)

/-- The commands among responses. -/
def commands (data : List RmsResponseData) : List Command :=
  data.filterMap (fun d => if d.dataType = .kRunCommand then some d.data.command else none)

/-- The executors' results among the data of a request. -/
def results (data : List RmsRequestData) : List ExecutorResult :=
  data.filterMap (fun d =>
    if d.dataType = .kExecutorResult then some d.data.executorResult else none)

@[simp] theorem commands_nil : commands [] = [] := rfl

@[simp] theorem commands_append (xs ys : List RmsResponseData) :
    commands (xs ++ ys) = commands xs ++ commands ys := List.filterMap_append

theorem commands_cons_of_ne {d : RmsResponseData} (h : d.dataType ≠ .kRunCommand)
    (rest : List RmsResponseData) : commands (d :: rest) = commands rest := by
  simp [commands, h]

theorem commands_cons_command {d : RmsResponseData} (h : d.dataType = .kRunCommand)
    (rest : List RmsResponseData) : commands (d :: rest) = d.data.command :: commands rest := by
  simp [commands, h]

variable {Thread : Type}

/-- The responses that the poll thread has still to handle. -/
def handled : PollPc Thread → List RmsResponseData
  | .handling rest => rest
  | _ => []

/-- The commands that a step starts an executor for. -/
def startedBy (s : State Thread) : Event Thread → List Command
  | .poll (.executing _) =>
    match s.poll with
    | .handling (d :: _) => [d.data.command]
    | _ => []
  | _ => []

/-- The results that a step makes. -/
def endedBy (s : State Thread) : Event Thread → List ExecutorResult
  | .notifyEnd t time =>
    match s.senders t with
    | .running id => results (notifyEnd id time).data
    | _ => []
  | _ => []

/-- The request is held by a sender or waits in the queue. -/
def Carries (s : State Thread) (req : RmsRequest) : Prop :=
  (∃ t type, held (s.senders t) = some (type, req)) ∨ ∃ type, (type, req) ∈ s.requestQueue

theorem results_notifyEnd (id time : Int) :
    results (notifyEnd id time).data = [{ id := toInt32 id, timeFinished := time }] := rfl

theorem handled_leaveHandshake (s : State Thread) (again : Bool) (result : Int) :
    handled (s.leaveHandshake again result).poll = [] := by
  cases again <;> rfl

theorem startedBy_cases (s : State Thread) (e : Event Thread) :
    startedBy s e = [] ∨ ∃ c, startedBy s e = [c] := by
  simp only [startedBy]
  split
  · split
    · exact Or.inr ⟨_, rfl⟩
    · exact Or.inl rfl
  · exact Or.inl rfl

theorem endedBy_cases (s : State Thread) (e : Event Thread) :
    endedBy s e = [] ∨ ∃ result, endedBy s e = [result] := by
  simp only [endedBy]
  split
  · split
    · exact Or.inr ⟨_, results_notifyEnd _ _⟩
    · exact Or.inl rfl
  · exact Or.inl rfl

theorem mem_endedBy {s : State Thread} {e : Event Thread} {result : ExecutorResult} :
    result ∈ endedBy s e ↔ ∃ u id time, e = .notifyEnd u time ∧ s.senders u = .running id ∧
      result = { id := toInt32 id, timeFinished := time } := by
  constructor
  · intro h
    simp only [endedBy] at h
    split at h
    · rename_i u time
      split at h
      · rename_i id running
        exact ⟨u, id, time, rfl, running, by simpa [results_notifyEnd] using h⟩
      · cases h
    · cases h
  · rintro ⟨u, id, time, rfl, running, rfl⟩
    simp [endedBy, running, results_notifyEnd]

section Handling

variable [DecidableEq Thread] {s t : State Thread} {e : Event Thread}

/-- The first response is handled, and if it is a command it is started. -/
theorem handleResponseData_commands {d : RmsResponseData} {rest : List RmsResponseData}
    {answer : Answer Thread} (here : s.poll = .handling (d :: rest))
    (connected : answer ≠ .sysInfoSent false)
    (h : handleResponseData s d rest answer = some t) :
    commands (d :: rest) = startedBy s (.poll answer) ++ commands (handled t.poll) := by
  simp only [handleResponseData] at h
  split at h
  · rename_i ok sysInfo
    obtain rfl := Option.some.inj h
    cases ok
    · exact absurd rfl connected
    · simp [startedBy, handled, commands_cons_of_ne (d := d) (by simp [sysInfo])]
  · rename_i u command
    have later : handled t.poll = rest := by
      rw [runCommand, Option.ite_none_right_eq_some] at h
      exact Option.some.inj h.2 ▸ rfl
    simp [startedBy, here, later, commands_cons_command command]
  · rename_i script
    obtain rfl := Option.some.inj h
    simp [startedBy, handled, commands_cons_of_ne (d := d) (by simp [script])]
  · cases h

/-- Only a reply brings responses, and only a start takes a command away. -/
theorem step_commands (started : Started s) (connected : e ≠ .poll (.sysInfoSent false))
    (h : step s e = some t) :
    (∃ data, e = .poll (.replied data) ∧ s.poll = .sending ∧ handled t.poll = data) ∨
      (∀ data, e ≠ .poll (.replied data)) ∧
        commands (handled s.poll) = startedBy s e ++ commands (handled t.poll) := by
  obtain ⟨-, moves⟩ := step_moves h
  cases moves with
  | control moves =>
    refine Or.inr ⟨by simp, ?_⟩
    cases moves with
    | start here =>
      have idle := started.starting here
      have unset := started.unset (by simp [PollPc.Stored, idle])
      simp [startedBy, idle, unset, handled]
    | clear | release | join | close => rfl
  | sender moves =>
    cases moves with
    | call | notify | lock | push | release => exact Or.inr ⟨by simp, rfl⟩
  | @poll answer _ moves =>
    cases moves with
    | send here first h =>
      cases answer with
      | replied data =>
        obtain rfl := Option.some.inj h
        exact Or.inl ⟨data, rfl, here, rfl⟩
      | lostRequest | lostReply =>
        obtain rfl := Option.some.inj h
        exact Or.inr ⟨by simp, by simp [startedBy, here, handled]⟩
      | quiet | opened | handshaken | sysInfoSent | executing => cases h
    | @handle d rest _ _ here h =>
      have notReply : ∀ data, answer ≠ .replied data := by
        rintro data rfl
        simp only [handleResponseData] at h
        split at h <;> simp_all
      refine Or.inr ⟨fun data same => notReply data (Event.poll.inj same), ?_⟩
      have unlost : answer ≠ .sysInfoSent false := fun lost => connected (lost ▸ rfl)
      rw [here]
      exact handleResponseData_commands here unlost h
    | @handshake again pc _ _ here h =>
      have notReply : ∀ data, answer ≠ .replied data := by
        rintro data rfl
        cases pc <;> simp [handshakeStep] at h
      refine Or.inr ⟨fun data same => notReply data (Event.poll.inj same), ?_⟩
      have after : handled t.poll = [] := by
        cases handshakeStep_moves h with
        | stays | escapes => rfl
        | leaves | renames => exact handled_leaveHandshake _ _ _
      rw [after]
      cases answer <;> simp [startedBy, here, handled]
    | loopTest here | flagTest here | retryTest here =>
      refine Or.inr ⟨by simp, ?_⟩
      simp only [startedBy, here, handled]
      cases s.pollRequests <;> rfl
    | pop here => exact Or.inr ⟨by simp, by simp [startedBy, here, handled, State.pop]⟩
    | skip here => exact Or.inr ⟨by simp, by simp [startedBy, here, handled, State.pop]⟩
    | store here | again here | enter here | acquire here | lock here | release here =>
      exact Or.inr ⟨by simp, by simp [startedBy, here, handled]⟩

end Handling

section Executing

variable [DecidableEq Thread] {s t : State Thread} {e : Event Thread}

theorem senders_setSender (s : State Thread) (u : Thread) (pc : SenderPc) (v : Thread) :
    (s.setSender u pc).senders v = if v = u then pc else s.senders v := by
  simp [State.setSender, Function.update_apply]

theorem running_of_setSender {u v : Thread} {pc : SenderPc} {id : Int}
    (quiet : ∀ id, pc ≠ .running id) (h : (s.setSender v pc).senders u = .running id) :
    u ≠ v ∧ s.senders u = .running id := by
  rw [senders_setSender] at h
  split at h
  · exact absurd h (quiet id)
  · rename_i other
    exact ⟨other, h⟩

/-- A handled response starts at most the thread of its command. -/
theorem handleResponseData_senders {d : RmsResponseData} {rest : List RmsResponseData}
    {answer : Answer Thread} (here : s.poll = .handling (d :: rest))
    (h : handleResponseData s d rest answer = some t) :
    t.requestQueue = s.requestQueue ∧ (t.senders = s.senders ∨
      ∃ u c, answer = .executing u ∧ startedBy s (.poll answer) = [c] ∧
        s.senders u = .idle ∧ t.senders = (s.setSender u (.running c.id)).senders) := by
  simp only [handleResponseData] at h
  split at h
  · exact Option.some.inj h ▸ ⟨rfl, Or.inl rfl⟩
  · rename_i u _
    rw [runCommand, Option.ite_none_right_eq_some] at h
    obtain ⟨idle, h⟩ := h
    have started : startedBy s (.poll (.executing u)) = [d.data.command] := by
      simp [startedBy, here]
    exact Option.some.inj h ▸ ⟨rfl, Or.inr ⟨u, _, rfl, started, idle, rfl⟩⟩
  · exact Option.some.inj h ▸ ⟨rfl, Or.inl rfl⟩
  · cases h

/-- The poll thread takes requests out of the queue, and starts the threads of
commands. -/
theorem pollStep_senders {answer : Answer Thread} (moves : PollMoves s answer t) :
    t.requestQueue ⊆ s.requestQueue ∧ (t.senders = s.senders ∨
      ∃ u c, answer = .executing u ∧ startedBy s (.poll answer) = [c] ∧
        s.senders u = .idle ∧ t.senders = (s.setSender u (.running c.id)).senders) := by
  cases moves with
  | send here first h =>
    cases sendTcpRequest_moves h <;> exact ⟨List.Subset.refl _, Or.inl rfl⟩
  | handshake here h =>
    cases handshakeStep_moves h <;> exact ⟨List.Subset.refl _, Or.inl rfl⟩
  | handle here h =>
    obtain ⟨queue, senders⟩ := handleResponseData_senders here h
    exact ⟨queue ▸ List.Subset.refl _, senders⟩
  | skip here first | pop here first =>
    exact ⟨by rw [first]; exact List.subset_cons_self _ _, Or.inl rfl⟩
  | store | again | enter | loopTest | acquire | flagTest | lock | release | retryTest =>
    exact ⟨List.Subset.refl _, Or.inl rfl⟩

/-- A thread runs a command on, or it has just been started for it. -/
theorem step_running (h : step s e = some t) {u : Thread} {id : Int}
    (running : t.senders u = .running id) :
    s.senders u = .running id ∧ (∀ time, e ≠ .notifyEnd u time) ∨
      ∃ c, e = .poll (.executing u) ∧ startedBy s e = [c] ∧ c.id = id := by
  obtain ⟨-, moves⟩ := step_moves h
  cases moves with
  | control moves => cases moves <;> exact Or.inl ⟨running, nofun⟩
  | sender moves =>
    cases moves with
    | call v type req here | lock v last req here | push v last req here =>
      exact Or.inl ⟨(running_of_setSender (by simp) running).2, nofun⟩
    | release v last here =>
      have quiet : ∀ id, (if last then SenderPc.finished else .idle) ≠ .running id := by
        cases last <;> nofun
      exact Or.inl ⟨(running_of_setSender quiet running).2, nofun⟩
    | notify v id' time here =>
      obtain ⟨other, still⟩ := running_of_setSender (by simp) running
      refine Or.inl ⟨still, ?_⟩
      rintro time' ⟨⟩
      exact other rfl
  | poll moves =>
    rcases (pollStep_senders moves).2 with same | ⟨v, c, rfl, started, -, same⟩
    · exact Or.inl ⟨same ▸ running, nofun⟩
    · rw [same, senders_setSender] at running
      split at running
      · rename_i hu
        exact Or.inr ⟨c, hu ▸ rfl, started, SenderPc.running.inj running⟩
      · exact Or.inl ⟨running, nofun⟩

/-- A request that is carried was carried before, is a call's, or has the result
of a thread whose command has ended. -/
theorem step_carries (h : step s e = some t) {req : RmsRequest} (carries : Carries t req) :
    Carries s req ∨ (∃ u type, e = .call u type req) ∨
      ∃ u id time, e = .notifyEnd u time ∧ s.senders u = .running id ∧ req = notifyEnd id time := by
  obtain ⟨-, moves⟩ := step_moves h
  cases moves with
  | control moves => cases moves <;> exact Or.inl carries
  | sender moves =>
    -- a thread that is given a request, and all the others
    have split {v : Thread} {pc : SenderPc} {u : Thread} {type : RequestProtocol}
        (hold : held ((s.setSender v pc).senders u) = some (type, req)) :
        held pc = some (type, req) ∨ Carries s req := by
      rw [senders_setSender] at hold
      split at hold
      · exact Or.inl hold
      · exact Or.inr (Or.inl ⟨u, type, hold⟩)
    cases moves with
    | call v type req' here =>
      obtain ⟨u, type', hold⟩ | queued := carries
      · rcases split hold with own | old
        · obtain ⟨rfl, rfl⟩ := Prod.mk.inj (Option.some.inj own)
          exact Or.inr (Or.inl ⟨v, type, rfl⟩)
        · exact Or.inl old
      · exact Or.inl (Or.inr queued)
    | notify v id time here =>
      obtain ⟨u, type', hold⟩ | queued := carries
      · rcases split hold with own | old
        · obtain ⟨-, rfl⟩ := Prod.mk.inj (Option.some.inj own)
          exact Or.inr (Or.inr ⟨v, id, time, rfl, here, rfl⟩)
        · exact Or.inl old
      · exact Or.inl (Or.inr queued)
    | lock v last req' here =>
      obtain ⟨u, type', hold⟩ | queued := carries
      · rcases split hold with own | old
        · exact Or.inl (Or.inl ⟨v, type', by rw [here]; exact own⟩)
        · exact Or.inl old
      · exact Or.inl (Or.inr queued)
    | push v last req' here =>
      obtain ⟨u, type', hold⟩ | ⟨type', queued⟩ := carries
      · rcases split hold with own | old
        · cases own
        · exact Or.inl old
      · rcases List.mem_append.mp queued with old | new
        · exact Or.inl (Or.inr ⟨type', old⟩)
        · obtain rfl := List.mem_singleton.mp new
          exact Or.inl (Or.inl ⟨v, type', by rw [here]; rfl⟩)
    | release v last here =>
      obtain ⟨u, type', hold⟩ | queued := carries
      · rcases split hold with own | old
        · cases last <;> cases own
        · exact Or.inl old
      · exact Or.inl (Or.inr queued)
  | poll moves =>
    obtain ⟨queue, senders⟩ := pollStep_senders moves
    obtain ⟨u, type, hold⟩ | ⟨type, queued⟩ := carries
    · rcases senders with same | ⟨v, c, -, -, -, same⟩
      · exact Or.inl (Or.inl ⟨u, type, same ▸ hold⟩)
      · rw [same, senders_setSender] at hold
        split at hold
        · cases hold
        · exact Or.inl (Or.inl ⟨u, type, hold⟩)
    · exact Or.inl (Or.inr ⟨type, queue queued⟩)

end Executing

end ReporterCommands
