import RemoteManagement.RequestClient

/-!
# Failures of the connection

A call that throws leads to a retry if it stands in a `try` block. The calls of
`handshake` and of `sendSysInfo` do not, nor does the conversion of what the
configuration holds.
-/

namespace RequestFailures

open ThriftTypes GuardedRun RequestClient RmsConfig

/-- The configuration sets the address and the port of the server. -/
def SetsServer (config : Config) : Prop :=
  find config serverPort ≠ "" ∧ find config serverIp ≠ ""

instance decidableSetsServer (config : Config) : Decidable (SetsServer config) :=
  inferInstanceAs (Decidable (_ ∧ _))

/-- The call at hand throws. -/
def Fails {Thread : Type} : Event Thread → Prop
  | .poll (.opened ok) | .poll (.sysInfoSent ok) => ok = false
  | .poll (.handshaken newId) => newId = none
  | .poll .lostRequest | .poll .lostReply => True
  | _ => False

/-- The poll thread opens the connection again, or gives the permit back and
then shakes hands again. -/
def Retries {Thread : Type} : PollPc Thread → Prop
  | .handshakeTCP _ .loopTest | .releasing => True
  | _ => False

variable {Thread : Type}

/-- A step after which no exception has left the poll thread, which has ended
only if `stop` was called; a call that fails is tried again. -/
structure Robust (s t : State Thread) (e : Event Thread) : Prop where
  caught : t.poll ≠ .escaped
  lasting : ∀ permit, t.poll = .ended permit → t.control.Stopping
  retried : Fails e → Retries t.poll ∧ t.requestQueue = s.requestQueue

/-- What stands outside the `try` blocks does not throw. -/
def Sheltered (s : State Thread) (e : Event Thread) : Prop :=
  match s.poll, e with
  | .handshakeTCP _ .socket, .poll .quiet => (findLong s.config serverPort).isOk = true
  | .handshakeTCP _ .readingId, .poll .quiet => (findLong s.config computerId).isOk = true
  | .handshakeTCP _ (.calling _), .poll (.handshaken none) => False
  | .handling _, .poll (.sysInfoSent false) => False
  | _, _ => True

section Steps

variable {s t : State Thread}

theorem serverPort_ne_computerId : serverPort ≠ computerId := by decide

theorem serverIp_ne_computerId : serverIp ≠ computerId := by decide

theorem setsServer_replace {config : Config} (sets : SetsServer config) (id : String) :
    SetsServer (replace config computerId id) := by
  rw [SetsServer, find_replace_of_ne _ _ serverPort_ne_computerId,
    find_replace_of_ne _ _ serverIp_ne_computerId]
  exact sets

theorem leaveHandshake_poll (s : State Thread) (again : Bool) (result : Int) :
    (s.leaveHandshake again result).poll ≠ .escaped ∧
      ∀ permit, (s.leaveHandshake again result).poll ≠ .ended permit := by
  cases again <;> simp [State.leaveHandshake]

/-- A handshake goes on exactly if what it reads and the call it makes outside
the `try` block do not throw. -/
theorem handshake_caught_iff {again : Bool} {pc : HandshakePc} {answer : Answer Thread}
    (here : s.poll = .handshakeTCP again pc) (h : handshakeStep s again pc answer = some t) :
    t.poll ≠ .escaped ↔ Sheltered s (.poll answer) := by
  unfold handshakeStep at h
  split at h
  · rw [Option.ite_none_left_eq_some] at h
    obtain ⟨-, h⟩ := h
    split at h <;> obtain rfl := Option.some.inj h
    · rename_i hport
      simp [Sheltered, here, hport, Except.isOk, Except.toBool]
    · rename_i hport
      simp [Sheltered, here, hport, Except.isOk, Except.toBool]
  · obtain rfl := Option.some.inj h
    simp [Sheltered, here]
  · obtain rfl := Option.some.inj h
    simp [Sheltered, here]
  · obtain rfl := Option.some.inj h
    refine iff_of_true ?_ (by simp [Sheltered, here])
    split
    · exact nofun
    · exact (leaveHandshake_poll s again (-1)).1
  · split at h <;> obtain rfl := Option.some.inj h
    · rename_i hid
      simp [Sheltered, here, hid, Except.isOk, Except.toBool]
    · rename_i hid
      simp [Sheltered, here, hid, Except.isOk, Except.toBool]
  · obtain rfl := Option.some.inj h
    simp [Sheltered, here]
  · obtain rfl := Option.some.inj h
    exact iff_of_true (leaveHandshake_poll _ again 0).1 (by simp [Sheltered, here])
  · cases h

theorem handshake_lasts {again : Bool} (moves : HandshakeMoves s again t) (permit : Bool) :
    t.poll ≠ .ended permit := by
  cases moves with
  | stays | escapes => exact nofun
  | leaves result => exact (leaveHandshake_poll _ again result).2 permit
  | renames id => exact (leaveHandshake_poll _ again 0).2 permit

/-- The one failure that a handshake catches is that of `open`. -/
theorem handshake_retried {again : Bool} {pc : HandshakePc} {answer : Answer Thread}
    (h : handshakeStep s again pc answer = some t) (caught : t.poll ≠ .escaped)
    (fails : Fails (.poll answer)) : Retries t.poll ∧ t.requestQueue = s.requestQueue := by
  unfold handshakeStep at h
  split at h
  · exact fails.elim
  · exact fails.elim
  · obtain rfl := Option.some.inj h
    simp [show _ = false from fails, Retries]
  · exact fails.elim
  · exact fails.elim
  · exact absurd (Option.some.inj h ▸ rfl) caught
  · cases fails
  · cases h

theorem send_robust {req : RmsRequest} {answer : Answer Thread}
    (h : sendTcpRequest s req answer = some t) : Robust s t (.poll answer) := by
  cases answer with
  | replied data => exact Option.some.inj h ▸ ⟨nofun, nofun, False.elim⟩
  | lostRequest | lostReply =>
    exact Option.some.inj h ▸ ⟨nofun, nofun, fun _ => ⟨trivial, rfl⟩⟩
  | quiet | opened | handshaken | sysInfoSent | executing => cases h

variable [DecidableEq Thread]

theorem runCommand_poll {cmd : Command} {u : Thread} {rest : List RmsResponseData}
    (h : runCommand s cmd u rest = some t) : t.poll = .handling rest := by
  rw [runCommand, Option.ite_none_right_eq_some] at h
  obtain ⟨-, h⟩ := h
  exact Option.some.inj h ▸ rfl

theorem handle_robust_iff {resData : RmsResponseData} {rest : List RmsResponseData}
    {answer : Answer Thread} (here : s.poll = .handling (resData :: rest))
    (h : handleResponseData s resData rest answer = some t) :
    Robust s t (.poll answer) ↔ Sheltered s (.poll answer) := by
  unfold handleResponseData at h
  split at h
  · rename_i ok _
    obtain rfl := Option.some.inj h
    cases ok with
    | true => exact iff_of_true ⟨nofun, nofun, nofun⟩ (by simp [Sheltered, here])
    | false => exact iff_of_false (fun robust => robust.caught rfl) (by simp [Sheltered, here])
  · refine iff_of_true ?_ (by simp [Sheltered, here])
    have poll := runCommand_poll h
    exact ⟨by simp [poll], by simp [poll], False.elim⟩
  · obtain rfl := Option.some.inj h
    exact iff_of_true ⟨nofun, nofun, False.elim⟩ (by simp [Sheltered, here])
  · cases h

/-- What holds along every run: the flag is set until `stop`, the loop ends only
after it, and the address of the server stays configured. -/
structure Running (s : State Thread) : Prop where
  started : Started s
  lasting : ∀ permit, s.poll = .ended permit → s.control.Stopping
  sets : SetsServer s.config

omit [DecidableEq Thread] in
theorem stopping_of_flag (hs : Running s) (stored : s.poll.Stored)
    (flag : s.pollRequests = false) : s.control.Stopping := by
  by_cases stopping : s.control.Stopping
  · exact stopping
  · simp [hs.started.polling stored stopping] at flag

omit [DecidableEq Thread] in
theorem control_robust (hs : Running s) (alive : s.poll ≠ .escaped) (moves : ControlMoves s t) :
    Robust s t .control := by
  cases moves with
  | start here =>
    have unset := hs.started.unset (by simp [PollPc.Stored, hs.started.starting here])
    exact ⟨by simp [unset], by simp [unset], False.elim⟩
  | clear | release | join | close => exact ⟨alive, fun _ _ => trivial, False.elim⟩

theorem sender_robust {e : Event Thread} (hs : Running s) (alive : s.poll ≠ .escaped)
    (moves : SenderMoves s e t) : Robust s t e := by
  cases moves <;> exact ⟨alive, hs.lasting, False.elim⟩

theorem poll_robust_iff {answer : Answer Thread} (hs : Running s) (moves : PollMoves s answer t) :
    Robust s t (.poll answer) ↔ Sheltered s (.poll answer) := by
  cases moves with
  | store here | again here | enter here | acquire here | lock here | skip here | pop here
  | release here =>
    exact iff_of_true ⟨nofun, nofun, False.elim⟩ (by simp [Sheltered, here])
  | loopTest here | flagTest here | retryTest here =>
    have stored : s.poll.Stored := by simp [PollPc.Stored, here]
    refine iff_of_true ?_ (by simp [Sheltered, here])
    by_cases flag : s.pollRequests = true
    · exact ⟨by simp [flag], by simp [flag], False.elim⟩
    · have stopping := stopping_of_flag hs stored (Bool.eq_false_iff.mpr flag)
      exact ⟨by simp [flag], fun _ _ => stopping, False.elim⟩
  | handshake here h =>
    have caught := handshake_caught_iff here h
    refine ⟨fun robust => caught.mp robust.caught, fun sheltered => ?_⟩
    have alive := caught.mpr sheltered
    exact ⟨alive, fun permit ended => absurd ended (handshake_lasts (handshakeStep_moves h) permit),
      handshake_retried h alive⟩
  | send here first h => exact iff_of_true (send_robust h) (by simp [Sheltered, here])
  | handle here h => exact handle_robust_iff here h

omit [DecidableEq Thread] in
theorem sheltered_of_ne_poll {e : Event Thread} (h : ∀ answer, e ≠ .poll answer) :
    Sheltered s e := by
  simp only [Sheltered]
  split
  · exact absurd rfl (h _)
  · exact absurd rfl (h _)
  · exact absurd rfl (h _)
  · exact absurd rfl (h _)
  · exact trivial

theorem moves_robust_iff {e : Event Thread} (hs : Running s) (h : step s e = some t) :
    Robust s t e ↔ Sheltered s e := by
  obtain ⟨alive, moves⟩ := step_moves h
  cases moves with
  | control moves =>
    exact iff_of_true (control_robust hs alive moves) (sheltered_of_ne_poll nofun)
  | sender moves =>
    exact iff_of_true (sender_robust hs alive moves)
      (sheltered_of_ne_poll (by cases moves <;> exact nofun))
  | poll moves => exact poll_robust_iff hs moves

theorem step_setsServer {e : Event Thread} (sets : SetsServer s.config) (h : step s e = some t) :
    SetsServer t.config := by
  obtain ⟨-, moves⟩ := step_moves h
  cases moves with
  | control moves => cases moves <;> exact sets
  | sender moves => cases moves <;> exact sets
  | poll moves =>
    cases moves with
    | handshake here h =>
      cases handshakeStep_moves h with
      | renames id => exact setsServer_replace sets id
      | stays | leaves | escapes => exact sets
    | send here first h => cases sendTcpRequest_moves h <;> exact sets
    | handle here h => cases handleResponseData_moves h <;> exact sets
    | store | again | enter | loopTest | acquire | flagTest | lock | skip | pop | release
    | retryTest => exact sets

end Steps

section Runs

variable [DecidableEq Thread]

/-- In any run of a client whose configuration sets the server's address, no
exception leaves the poll thread, every failed call is tried again and the
thread ends only after `stop`, exactly if at each step what stands outside the
`try` blocks does not throw. -/
theorem robust_iff_sheltered {config : Config} (sets : SetsServer config)
    {es : List (Event Thread)} {s : State Thread} (arrives : run step (start config) es = some s) :
    Guarded step (fun s e => ∀ t, step s e = some t → Robust s t e) (start config) es ↔
      Guarded step Sheltered (start config) es := by
  refine guarded_iff Running ?_ ?_ ⟨started_start config, nofun, sets⟩ arrives
  · intro s e t hs robust h
    exact ⟨step_started s e t hs.started h, (robust t h).lasting, step_setsServer hs.sets h⟩
  · intro s e t hs h
    simp only [h, Option.some.injEq, forall_eq', moves_robust_iff hs h]

/-- No id has been asked for yet, and the configuration has no entry for it. -/
def noEntry : Config := replace unregistered computerId ""

theorem unsheltered_runs_escape :
    SetsServer noEntry ∧ SetsServer unregistered ∧
      (run step (start noEntry) (.control :: (connects 1).take 6 : List (Event Unit))).any
        (fun s => decide (s.poll = .escaped)) = true ∧
      (run step (start unregistered) (.control :: (connects 1).take 6 ++
        [.poll (.handshaken none)] : List (Event Unit))).any
        (fun s => decide (s.poll = .escaped)) = true ∧
      (run step (start unregistered) (.control :: connects 1 ++ sends () {} ++
        takes (.replied [{ dataType := .kSendSystemInfo }]) ++
        [.poll (.sysInfoSent false)] : List (Event Unit))).any
        (fun s => decide (s.poll = .escaped)) = true := by
  decide

def connected : List (Event Unit) := .control :: connects 1

theorem connected_robust_iff :
    Guarded step (fun s e => ∀ t, step s e = some t → Robust s t e) (start unregistered)
        connected ↔ Guarded step Sheltered (start unregistered) connected :=
  robust_iff_sheltered (by decide)
    (s := (run step (start unregistered) connected).get (by decide)) (Option.some_get _).symm

end Runs

end RequestFailures
