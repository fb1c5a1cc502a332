import RemoteManagement.ExecutorLoop
import RemoteManagement.Library.ForwardSimulation
import RemoteManagement.Library.RunTrace
import Mathlib.Logic.Function.Basic

/-!
# The pipes of the executors

All executors make their pipes in one process. A fork copies every descriptor
that is open there, those of other executors too, and a command closes no pipes
but its own before it is executed. From then on it can close and redirect what it
has, and leave processes behind that have the same. The end of a pipe is reached
when no process has the write end any more; an end is had only by inheritance.
-/

namespace ExecutorPipes

open ExecutorLoop (Fd Reader)
open ExecutorOutput (Byte bufferSize)
open BoundedPipe ForwardSimulation GuardedRun RunTrace

inductive Stream where
  | stdin
  | stdout
  | stderr
  deriving DecidableEq

inductive Side where
  | read
  | write
  deriving DecidableEq

/-- One end of one of the three pipes of an executor. -/
structure End (Thread : Type) where
  thread : Thread
  stream : Stream
  side : Side
  deriving DecidableEq

/-- Some of the ends. -/
abbrev Descriptors (Thread : Type) := End Thread → Bool

/-- Where the thread of an executor is in `runCommand`. -/
inductive Pc where
  | started
  | pipedStdin
  | pipedStdout
  | pipedStderr
  | forked
  | closedStdin
  | closedStdout
  | looping
  | left
  deriving DecidableEq

/-- The child that an executor has forked, or a process that comes from it. -/
structure Process (Thread : Type) where
  command : Thread
  /-- It is not the child itself. -/
  spawned : Bool := false
  /-- It no longer is a copy of the reporter. -/
  executed : Bool := false
  inherited : Descriptors Thread
  /-- What it closed, or a process that it comes from had closed. -/
  closed : Descriptors Thread := fun _ => false
  ended : Bool := false

structure State (Thread : Type) where
  held : Descriptors Thread := fun _ => false
  pc : Thread → Pc := fun _ => .started
  processes : List (Process Thread) := []
  loops : Thread → ExecutorLoop.State := fun _ => ExecutorLoop.start

/-- The steps of a round of the loop. -/
inductive Round where
  | poll
  | readStdout
  | readStderr
  | check

inductive Event (Thread : Type) where
  | thread (u : Thread)
  | loop (u : Thread) (r : Round)
  | exec (n : Nat)
  | writes (n : Nat) (u : Thread) (fd : Fd) (bytes : List Byte)
  | closes (n : Nat) (e : End Thread)
  | spawns (n : Nat)
  | ends (n : Nat)

def Round.event : Round → ExecutorLoop.Event
  | .poll => .poll
  | .readStdout => .readStdout
  | .readStderr => .readStderr
  | .check => .check

section Steps

variable {Thread : Type}

/-- The write end of an output stream. -/
def sink (u : Thread) : Fd → End Thread
  | .stdout => ⟨u, .stdout, .write⟩
  | .stderr => ⟨u, .stderr, .write⟩

def Process.has (p : Process Thread) (e : End Thread) : Bool :=
  !p.ended && p.inherited e && !p.closed e

/-- Some process has the end. -/
def State.Held (s : State Thread) (e : End Thread) : Prop :=
  s.held e = true ∨ ∃ p ∈ s.processes, p.has e = true

instance decidableHeld (s : State Thread) (e : End Thread) : Decidable (s.Held e) :=
  inferInstanceAs (Decidable (_ ∨ _))

/-- The stream's pipe has been made. -/
def made : Pc → Fd → Bool
  | .started, _ | .pipedStdin, _ | .pipedStdout, .stderr => false
  | .pipedStdout, .stdout => true
  | .pipedStderr, _ | .forked, _ | .closedStdin, _ | .closedStdout, _ | .looping, _
  | .left, _ => true

def State.hungUp (s : State Thread) (u : Thread) (fd : Fd) : Bool :=
  made (s.pc u) fd && !decide (s.Held (sink u fd))

/-- Whether a pipe is closed is read off the descriptors. -/
def shown (closed : Fd → Bool) (l : ExecutorLoop.State) : ExecutorLoop.State where
  stdout := { l.stdout with closed := closed .stdout }
  stderr := { l.stderr with closed := closed .stderr }
  reader := l.reader

/-- The loop of an executor, as it sees its pipes. -/
def State.loop (s : State Thread) (u : Thread) : ExecutorLoop.State :=
  shown (s.hungUp u) (s.loops u)

def State.alive (s : State Thread) (n : Nat) : Option (Process Thread) :=
  s.processes[n]?.filter (fun p => !p.ended)

def State.running (s : State Thread) (n : Nat) : Option (Process Thread) :=
  (s.alive n).filter (fun p => p.executed)

def State.setProcess (s : State Thread) (n : Nat) (p : Process Thread) : State Thread :=
  { s with processes := s.processes.set n p }

def State.addProcess (s : State Thread) (p : Process Thread) : State Thread :=
  { s with processes := s.processes ++ [p] }

variable [DecidableEq Thread]

def State.move (s : State Thread) (u : Thread) (pc : Pc) (held : Descriptors Thread) :
    State Thread :=
  { s with held := held, pc := Function.update s.pc u pc }

def State.setLoop (s : State Thread) (u : Thread) (l : ExecutorLoop.State) : State Thread :=
  { s with loops := Function.update s.loops u l }

/-- After `pipe`. -/
def opens (held : Descriptors Thread) (u : Thread) (stream : Stream) : Descriptors Thread :=
  fun e => held e || (e.thread = u && e.stream = stream)

/-- After `close`. -/
def closes (held : Descriptors Thread) (ends : List (End Thread)) : Descriptors Thread :=
  fun e => held e && e ∉ ends

/-- What the cleanup closes. -/
def cleanup (u : Thread) : List (End Thread) :=
  [⟨u, .stdin, .write⟩, ⟨u, .stdout, .read⟩, ⟨u, .stderr, .read⟩]

def Process.close (p : Process Thread) (ends : List (End Thread)) : Process Thread :=
  { p with closed := fun e => p.closed e || e ∈ ends }

/-- The child closes its six ends, three of which it has copied to its stdin,
stdout and stderr. -/
def Process.exec (p : Process Thread) : Process Thread :=
  { p.close (cleanup p.command) with executed := true }

def threadStep (s : State Thread) (u : Thread) : Option (State Thread) :=
  match s.pc u with
  | .started => some (s.move u .pipedStdin (opens s.held u .stdin))
  | .pipedStdin => some (s.move u .pipedStdout (opens s.held u .stdout))
  | .pipedStdout => some (s.move u .pipedStderr (opens s.held u .stderr))
  | .pipedStderr =>
    some ((s.addProcess { command := u, inherited := s.held }).move u .forked s.held)
  | .forked => some (s.move u .closedStdin (closes s.held [⟨u, .stdin, .read⟩]))
  | .closedStdin => some (s.move u .closedStdout (closes s.held [⟨u, .stdout, .write⟩]))
  | .closedStdout => some (s.move u .looping (closes s.held [⟨u, .stderr, .write⟩]))
  | .looping =>
    if (s.loops u).reader = .left then some (s.move u .left (closes s.held (cleanup u))) else none
  | .left => none

def step (s : State Thread) : Event Thread → Option (State Thread)
  | .thread u => threadStep s u
  | .loop u r =>
    if s.pc u = .looping then (ExecutorLoop.step (s.loop u) r.event).map (s.setLoop u) else none
  | .exec n => ((s.alive n).filter (fun p => !p.executed)).map (fun p => s.setProcess n p.exec)
  | .writes n u fd bytes =>
    ((s.running n).filter (fun p => p.has (sink u fd))).bind
      (fun _ => (ExecutorLoop.step (s.loop u) (.write fd bytes)).map (s.setLoop u))
  | .closes n e =>
    ((s.running n).filter (fun p => p.has e)).map (fun p => s.setProcess n (p.close [e]))
  | .spawns n => (s.running n).map (fun p => s.addProcess { p with spawned := true })
  | .ends n => (s.alive n).map (fun p => s.setProcess n { p with ended := true })

end Steps

/-- The reporter has the write end of the executor's stdout. -/
def settingUp : Pc → Bool
  | .pipedStdout | .pipedStderr | .forked | .closedStdin => true
  | .started | .pipedStdin | .closedStdout | .looping | .left => false

/-- The reporter has the write end of the executor's stdin. -/
def feeding : Pc → Bool
  | .started | .left => false
  | .pipedStdin | .pipedStdout | .pipedStderr | .forked | .closedStdin | .closedStdout
  | .looping => true

def hasForked : Pc → Bool
  | .started | .pipedStdin | .pipedStdout | .pipedStderr => false
  | .forked | .closedStdin | .closedStdout | .looping | .left => true

theorem feeding_of_hasForked {pc : Pc} (forked : hasForked pc = true) (loops : pc ≠ .left) :
    feeding pc = true := by
  cases pc with
  | left => exact absurd rfl loops
  | started => cases forked
  | pipedStdin | pipedStdout | pipedStderr | forked | closedStdin | closedStdout | looping => rfl

/-- A fork, with the executors whose stdout the new command gets a write end of. -/
structure Fork (Thread : Type) where
  command : Thread
  inherits : Thread → Bool

def forks {Thread : Type} (s : State Thread) : Event Thread → List (Fork Thread)
  | .thread v => if s.pc v = .pipedStderr then [⟨v, fun u => settingUp (s.pc u)⟩] else []
  | .loop _ _ | .exec _ | .writes _ _ _ _ | .closes _ _ | .spawns _ | .ends _ => []

section Processes

variable {Thread : Type} {s : State Thread} {n : Nat} {p q : Process Thread}

@[simp] theorem held_setProcess : (s.setProcess n p).held = s.held := rfl

@[simp] theorem pc_setProcess : (s.setProcess n p).pc = s.pc := rfl

@[simp] theorem loops_setProcess : (s.setProcess n p).loops = s.loops := rfl

@[simp] theorem processes_setProcess : (s.setProcess n p).processes = s.processes.set n p := rfl

@[simp] theorem held_addProcess : (s.addProcess p).held = s.held := rfl

@[simp] theorem pc_addProcess : (s.addProcess p).pc = s.pc := rfl

@[simp] theorem loops_addProcess : (s.addProcess p).loops = s.loops := rfl

@[simp] theorem processes_addProcess : (s.addProcess p).processes = s.processes ++ [p] := rfl

theorem alive_eq_some (h : s.alive n = some p) : s.processes[n]? = some p :=
  (Option.filter_eq_some_iff.mp h).1

theorem running_eq_some (h : s.running n = some p) : s.processes[n]? = some p :=
  alive_eq_some (Option.filter_eq_some_iff.mp h).1

theorem held_of_addProcess {e : End Thread} (has : p.has e = true → s.Held e)
    (h : (s.addProcess p).Held e) : s.Held e := by
  rcases h with own | ⟨q, mem, has'⟩
  · exact Or.inl own
  · rcases List.mem_append.mp mem with old | new
    · exact Or.inr ⟨q, old, has'⟩
    · rw [List.mem_singleton.mp new] at has'
      exact has has'

end Processes

section Updates

variable {Thread : Type} [DecidableEq Thread] {s : State Thread} {u : Thread}

@[simp] theorem held_move (pc : Pc) (held : Descriptors Thread) :
    (s.move u pc held).held = held := rfl

@[simp] theorem pc_move (pc : Pc) (held : Descriptors Thread) :
    (s.move u pc held).pc = Function.update s.pc u pc := rfl

@[simp] theorem processes_move (pc : Pc) (held : Descriptors Thread) :
    (s.move u pc held).processes = s.processes := rfl

@[simp] theorem loops_move (pc : Pc) (held : Descriptors Thread) :
    (s.move u pc held).loops = s.loops := rfl

@[simp] theorem held_setLoop (l : ExecutorLoop.State) : (s.setLoop u l).held = s.held := rfl

@[simp] theorem pc_setLoop (l : ExecutorLoop.State) : (s.setLoop u l).pc = s.pc := rfl

@[simp] theorem processes_setLoop (l : ExecutorLoop.State) :
    (s.setLoop u l).processes = s.processes := rfl

@[simp] theorem loops_setLoop (l : ExecutorLoop.State) :
    (s.setLoop u l).loops = Function.update s.loops u l := rfl

end Updates

section Loops

variable {Thread : Type} {s t : State Thread} {u v : Thread} {fd : Fd}

/-- The pipes of a loop can only hang up. -/
theorem run_hangsUp {closed closed' : Fd → Bool} (l : ExecutorLoop.State)
    (stays : ∀ fd, closed fd = true → closed' fd = true) :
    ∃ fs, run ExecutorLoop.step (shown closed l) fs = some (shown closed' l) := by
  refine ⟨(if closed' .stdout then [.close .stdout] else []) ++
    (if closed' .stderr then [.close .stderr] else []), ?_⟩
  have out : closed' .stdout = false → closed .stdout = false := by
    simpa using mt (stays .stdout)
  have err : closed' .stderr = false → closed .stderr = false := by
    simpa using mt (stays .stderr)
  cases hout : closed' .stdout <;> cases herr : closed' .stderr <;>
    simp [run, ExecutorLoop.step, ExecutorLoop.State.setPipe, ExecutorLoop.State.pipe, shown,
      Pipe.close, hout, herr, out, err]

theorem hungUp_iff : s.hungUp u fd = true ↔ made (s.pc u) fd = true ∧ ¬ s.Held (sink u fd) := by
  simp [State.hungUp]

/-- What is not had any more is not had again. -/
theorem hungUp_mono (stays : made (s.pc u) fd = true → made (t.pc u) fd = true)
    (had : made (s.pc u) fd = true → t.Held (sink u fd) → s.Held (sink u fd))
    (h : s.hungUp u fd = true) : t.hungUp u fd = true := by
  rw [hungUp_iff] at h ⊢
  exact ⟨stays h.1, mt (had h.1) h.2⟩

variable [DecidableEq Thread]

theorem held_of_move {pc : Pc} {held : Descriptors Thread} {e : End Thread}
    (had : held e = true → s.held e = true) (h : (s.move u pc held).Held e) : s.Held e :=
  h.imp_left had

theorem hungUp_opens {pc : Pc} {stream : Stream} (made_v : ∀ fd, made (s.pc v) fd = true →
      made pc fd = true ∧ (sink v fd).stream ≠ stream) (h : s.hungUp u fd = true) :
    (s.move v pc (opens s.held v stream)).hungUp u fd = true := by
  refine hungUp_mono (fun was => ?_) (fun was => held_of_move fun had => ?_) h
  · rw [pc_move, Function.update_apply]
    split
    · rename_i own
      exact (made_v fd (own ▸ was)).1
    · exact was
  · rcases Bool.or_eq_true_iff.mp had with had | new
    · exact had
    · have thread : (sink u fd).thread = u := by cases fd <;> rfl
      simp only [thread, Bool.and_eq_true, decide_eq_true_eq] at new
      obtain ⟨rfl, stream⟩ := new
      exact absurd stream (made_v fd was).2

theorem hungUp_closes {pc : Pc} {ends : List (End Thread)}
    (made_v : ∀ fd, made (s.pc v) fd = true → made pc fd = true) (h : s.hungUp u fd = true) :
    (s.move v pc (closes s.held ends)).hungUp u fd = true := by
  refine hungUp_mono (fun was => ?_) (fun _ => held_of_move fun had => ?_) h
  · rw [pc_move, Function.update_apply]
    split
    · rename_i own
      exact made_v fd (own ▸ was)
    · exact was
  · exact (Bool.and_eq_true_iff.mp had).1

theorem threadStep_hungUp (h : threadStep s v = some t) (was : s.hungUp u fd = true) :
    t.hungUp u fd = true := by
  rw [threadStep] at h
  cases here : s.pc v with
  | left =>
    simp only [here] at h
    cases h
  | looping =>
    simp only [here, Option.ite_none_right_eq_some, Option.some.injEq] at h
    exact h.2 ▸ hungUp_closes (fun _ _ => rfl) was
  | started | pipedStdin | pipedStdout =>
    simp only [here, Option.some.injEq] at h
    refine h ▸ hungUp_opens (fun fd made_v => ?_) was
    cases fd <;> simp_all [made, sink]
  | forked | closedStdin | closedStdout =>
    simp only [here, Option.some.injEq] at h
    exact h ▸ hungUp_closes (fun _ _ => rfl) was
  | pipedStderr =>
    simp only [here, Option.some.injEq] at h
    subst h
    refine hungUp_mono (fun _ => ?_) (fun _ had => ?_) was
    · rw [pc_move, Function.update_apply]
      split
      · rfl
      · assumption
    · refine held_of_addProcess (fun has => Or.inl ?_) (held_of_move id had)
      simpa [Process.has] using has

theorem threadStep_loops (h : threadStep s v = some t) : t.loops = s.loops := by
  rw [threadStep] at h
  cases here : s.pc v with
  | left =>
    simp only [here] at h
    cases h
  | looping =>
    simp only [here, Option.ite_none_right_eq_some, Option.some.injEq] at h
    exact h.2 ▸ rfl
  | started | pipedStdin | pipedStdout | pipedStderr | forked | closedStdin | closedStdout =>
    simp only [here, Option.some.injEq] at h
    exact h ▸ rfl

/-- A step that closes nothing leaves the pipes hung up as they are. -/
theorem shown_step {closed : Fd → Bool} {l l' : ExecutorLoop.State} {e : ExecutorLoop.Event}
    (opened : ∀ fd, e ≠ .close fd) (h : ExecutorLoop.step (shown closed l) e = some l') :
    shown closed l' = l' := by
  cases e with
  | close fd => exact absurd rfl (opened fd)
  | write fd bytes =>
    obtain ⟨p, writes, rfl⟩ := Option.map_eq_some_iff.mp h
    have same : p.closed = closed fd := by
      rw [Pipe.closed_write writes]
      cases fd <;> rfl
    cases fd <;> simp [shown, ExecutorLoop.State.setPipe, ← same]
  | poll =>
    obtain ⟨-, rfl⟩ := ExecutorLoop.step_poll h
    rfl
  | readStdout =>
    obtain ⟨out, err, hup, -, rfl⟩ := ExecutorLoop.step_readStdout h
    cases out <;> rfl
  | readStderr =>
    obtain ⟨err, hup, -, rfl⟩ := ExecutorLoop.step_readStderr h
    cases err <;> rfl
  | check =>
    obtain ⟨hup, -, rfl⟩ := ExecutorLoop.step_check h
    rfl

theorem loop_eq_of_setLoop {l : ExecutorLoop.State} {e : ExecutorLoop.Event}
    (opened : ∀ fd, e ≠ .close fd) (h : ExecutorLoop.step (s.loop u) e = some l) :
    (s.setLoop u l).loop u = l := by
  rw [State.loop, loops_setLoop, Function.update_self]
  exact shown_step opened h

theorem loop_setLoop_of_ne (l : ExecutorLoop.State) (other : u ≠ v) :
    (s.setLoop v l).loop u = s.loop u := by
  rw [State.loop, loops_setLoop, Function.update_of_ne other]
  rfl

end Loops

section Cases

variable {Thread : Type} {s t : State Thread} {e : Event Thread}

/-- What a process can become in a step. -/
structure Follows (e : Event Thread) (n : Nat) (p q : Process Thread) : Prop where
  command : q.command = p.command
  spawned : q.spawned = p.spawned
  inherited : q.inherited = p.inherited
  had : ∀ d, q.has d = true → p.has d = true
  has : ∀ d, p.has d = true →
    q.has d = true ∨ d ∈ cleanup p.command ∨ e = .closes n d ∨ e = .ends n

theorem follows_ended (n : Nat) (p : Process Thread) :
    Follows (.ends n) n p { p with ended := true } where
  command := rfl
  spawned := rfl
  inherited := rfl
  had := by simp [Process.has]
  has := fun _ _ => Or.inr (Or.inr (Or.inr rfl))

theorem held_of_setProcess {n : Nat} {p q : Process Thread} (now : s.processes[n]? = some p)
    (follows : Follows e n p q) {d : End Thread} (h : (s.setProcess n q).Held d) : s.Held d := by
  rcases h with own | ⟨q', mem, has⟩
  · exact Or.inl own
  · right
    rcases List.mem_or_eq_of_mem_set mem with old | rfl
    · exact ⟨q', old, has⟩
    · exact ⟨p, List.mem_of_getElem? now, follows.had d has⟩

variable [DecidableEq Thread]

theorem follows_exec (n : Nat) (p : Process Thread) : Follows (.exec n) n p p.exec where
  command := rfl
  spawned := rfl
  inherited := rfl
  had := by simp +contextual [Process.has, Process.exec, Process.close]
  has := by
    intro d has
    by_cases own : d ∈ cleanup p.command
    · exact Or.inr (Or.inl own)
    · simp_all [Process.has, Process.exec, Process.close]

theorem follows_close (n : Nat) (p : Process Thread) (d : End Thread) :
    Follows (.closes n d) n p (p.close [d]) where
  command := rfl
  spawned := rfl
  inherited := rfl
  had := by simp +contextual [Process.has, Process.close]
  has := by
    intro d' has
    by_cases same : d' = d
    · exact Or.inr (Or.inr (Or.inl (same ▸ rfl)))
    · simp_all [Process.has, Process.close]

theorem step_cases (h : step s e = some t) :
    (∃ u, e = .thread u ∧ threadStep s u = some t) ∨
      forks s e = [] ∧
        ((∃ u f l, (∀ fd, f ≠ .close fd) ∧ ExecutorLoop.step (s.loop u) f = some l ∧
            t = s.setLoop u l) ∨
          (∃ n p q, s.processes[n]? = some p ∧ Follows e n p q ∧ t = s.setProcess n q) ∨
          ∃ p ∈ s.processes, t = s.addProcess { p with spawned := true }) := by
  cases e with
  | thread u => exact Or.inl ⟨u, rfl, h⟩
  | loop u r =>
    simp only [step, Option.ite_none_right_eq_some, Option.map_eq_some_iff] at h
    obtain ⟨-, l, goes, rfl⟩ := h
    exact Or.inr ⟨rfl, Or.inl ⟨u, r.event, l, by cases r <;> simp [Round.event], goes, rfl⟩⟩
  | writes n u fd bytes =>
    obtain ⟨p, -, writes⟩ := Option.bind_eq_some_iff.mp h
    obtain ⟨l, goes, rfl⟩ := Option.map_eq_some_iff.mp writes
    exact Or.inr ⟨rfl, Or.inl ⟨u, .write fd bytes, l, by simp, goes, rfl⟩⟩
  | exec n =>
    obtain ⟨p, now, rfl⟩ := Option.map_eq_some_iff.mp h
    have now := alive_eq_some (Option.filter_eq_some_iff.mp now).1
    exact Or.inr ⟨rfl, Or.inr (Or.inl ⟨n, p, p.exec, now, follows_exec n p, rfl⟩)⟩
  | closes n d =>
    obtain ⟨p, now, rfl⟩ := Option.map_eq_some_iff.mp h
    have now := running_eq_some (Option.filter_eq_some_iff.mp now).1
    exact Or.inr ⟨rfl, Or.inr (Or.inl ⟨n, p, p.close [d], now, follows_close n p d, rfl⟩)⟩
  | spawns n =>
    obtain ⟨p, now, rfl⟩ := Option.map_eq_some_iff.mp h
    exact Or.inr ⟨rfl, Or.inr (Or.inr ⟨p, List.mem_of_getElem? (running_eq_some now), rfl⟩)⟩
  | ends n =>
    obtain ⟨p, now, rfl⟩ := Option.map_eq_some_iff.mp h
    exact Or.inr ⟨rfl, Or.inr (Or.inl ⟨n, p, _, alive_eq_some now, follows_ended n p, rfl⟩)⟩

end Cases

section Refinement

variable {Thread : Type}

/-- What the loop of an executor does not see, but for pipes that hang up. -/
theorem matched_hungUp {s t : State Thread} {u : Thread} (same : t.loops u = s.loops u)
    (stays : ∀ fd, s.hungUp u fd = true → t.hungUp u fd = true) :
    ∃ fs l, run ExecutorLoop.step (s.loop u) fs = some l ∧ t.loop u = l := by
  obtain ⟨fs, goes⟩ := run_hangsUp (s.loops u) stays
  exact ⟨fs, t.loop u, by rw [State.loop, goes, State.loop, same], rfl⟩

variable [DecidableEq Thread]

/-- Whatever happens to the other executors and the processes, the loop of each
executor makes steps that it makes alone. -/
theorem step_matched (u : Thread) :
    Simulates step (fun _ _ => True) ExecutorLoop.step
      (fun (s : State Thread) (l : ExecutorLoop.State) => s.loop u = l) := by
  rintro s _ e t rfl - h
  rcases step_cases h with ⟨v, -, moves⟩ |
    ⟨-, ⟨v, f, l, opened, goes, rfl⟩ | ⟨n, p, q, now, follows, rfl⟩ | ⟨p, mem, rfl⟩⟩
  · exact matched_hungUp (congrFun (threadStep_loops moves) u) fun _ => threadStep_hungUp moves
  · by_cases own : u = v
    · obtain rfl := own
      exact matched_step goes (loop_eq_of_setLoop opened goes)
    · exact matched_stutter (loop_setLoop_of_ne l own)
  · exact matched_hungUp rfl fun _ => hungUp_mono id fun _ => held_of_setProcess now follows
  · refine matched_hungUp rfl fun _ => hungUp_mono id fun _ => held_of_addProcess fun has => ?_
    exact Or.inr ⟨p, mem, has⟩

/-- In every run of all executors and their processes, the loop of each executor
goes through a run of its own. -/
theorem run_loop {s : State Thread} {es : List (Event Thread)} (u : Thread)
    (arrives : run step {} es = some s) :
    ∃ fs, run ExecutorLoop.step ExecutorLoop.start fs = some (s.loop u) := by
  obtain ⟨fs, l, goes, rfl⟩ := (step_matched u).run_matched (t := ExecutorLoop.start) rfl
    (guarded_of_forall fun _ _ => trivial) arrives
  exact ⟨fs, goes⟩

end Refinement

/-- The process comes from the fork. -/
def Process.Of {Thread : Type} (p : Process Thread) (f : Fork Thread) : Prop :=
  f.command = p.command ∧ ∀ u, p.inherited ⟨u, .stdout, .write⟩ = f.inherits u

structure Accounted {Thread : Type} (s : State Thread) (seen : List (Fork Thread)) : Prop where
  stdout : ∀ u, s.held ⟨u, .stdout, .write⟩ = settingUp (s.pc u)
  stdin : ∀ u, s.held ⟨u, .stdin, .write⟩ = feeding (s.pc u)
  forked : ∀ f ∈ seen, hasForked (s.pc f.command) = true
  once : ∀ f ∈ seen, ∀ g ∈ seen, f.command = g.command → f = g
  born : ∀ p ∈ s.processes, ∃ f ∈ seen, p.Of f

section Accounts

variable {Thread : Type} {s t : State Thread} {seen : List (Fork Thread)} {u : Thread}

theorem accounted_start : Accounted ({} : State Thread) [] where
  stdout := fun _ => rfl
  stdin := fun _ => rfl
  forked := nofun
  once := nofun
  born := nofun

/-- The processes of the commands that were forked while the reporter had the write
end of the stdout have it, unless they have ended or it has been closed. -/
theorem Accounted.held_iff (h : Accounted s seen) (closed : settingUp (s.pc u) = false) :
    ¬ s.Held ⟨u, .stdout, .write⟩ ↔
      ∀ p ∈ s.processes, (∃ f ∈ seen, f.command = p.command ∧ f.inherits u = true) →
        p.ended = true ∨ p.closed ⟨u, .stdout, .write⟩ = true := by
  have inherited (p : Process Thread) (mem : p ∈ s.processes) :
      p.inherited ⟨u, .stdout, .write⟩ = true ↔
        ∃ f ∈ seen, f.command = p.command ∧ f.inherits u = true := by
    obtain ⟨f, seen_f, command, inherits⟩ := h.born p mem
    rw [inherits u]
    constructor
    · exact fun has => ⟨f, seen_f, command, has⟩
    · rintro ⟨g, seen_g, command', has⟩
      rw [h.once f seen_f g seen_g (command.trans command'.symm), has]
  rw [State.Held, h.stdout, closed]
  simp only [Bool.false_eq_true, false_or, not_exists, not_and]
  refine forall_congr' fun p => forall_congr' fun mem => ?_
  rw [← inherited p mem]
  simp only [Process.has, Bool.and_eq_true, Bool.not_eq_true']
  by_cases ended : p.ended = true <;> simp [ended]

/-- A step that changes no descriptors of the reporter and adds no command. -/
theorem Accounted.keep (h : Accounted s seen) (held : t.held = s.held) (pc : t.pc = s.pc)
    (old : ∀ q ∈ t.processes, ∃ p ∈ s.processes, q.command = p.command ∧
      q.inherited = p.inherited) : Accounted t seen := by
  refine ⟨?_, ?_, ?_, h.once, fun q mem => ?_⟩
  · rw [held, pc]
    exact h.stdout
  · rw [held, pc]
    exact h.stdin
  · rw [pc]
    exact h.forked
  · obtain ⟨p, mem, command, inherited⟩ := old q mem
    obtain ⟨f, seen, of⟩ := h.born p mem
    exact ⟨f, seen, by rw [Process.Of, command, inherited]; exact of⟩

variable [DecidableEq Thread]

theorem opens_of_ne (held : Descriptors Thread) (stream : Stream) {e : End Thread}
    (other : e.thread ≠ u) : opens held u stream e = held e := by
  simp [opens, other]

theorem closes_of_ne (held : Descriptors Thread) {ends : List (End Thread)}
    (own : ∀ e ∈ ends, e.thread = u) {e : End Thread} (other : e.thread ≠ u) :
    closes held ends e = held e := by
  have kept : e ∉ ends := fun mem => other (own e mem)
  simp [closes, kept]

/-- A step of a thread that is no fork changes ends of its own. -/
theorem Accounted.move (h : Accounted s seen) {pc : Pc} {held : Descriptors Thread}
    (stdout : held ⟨u, .stdout, .write⟩ = settingUp pc)
    (stdin : held ⟨u, .stdin, .write⟩ = feeding pc)
    (others : ∀ e, e.thread ≠ u → held e = s.held e)
    (forked : hasForked (s.pc u) = true → hasForked pc = true) :
    Accounted (s.move u pc held) seen := by
  refine ⟨fun v => ?_, fun v => ?_, fun f mem => ?_, h.once, h.born⟩
  · rw [held_move, pc_move, Function.update_apply]
    split
    · rename_i own
      rw [own, stdout]
    · rename_i other
      rw [others _ other, h.stdout]
  · rw [held_move, pc_move, Function.update_apply]
    split
    · rename_i own
      rw [own, stdin]
    · rename_i other
      rw [others _ other, h.stdin]
  · rw [pc_move, Function.update_apply]
    split
    · rename_i own
      exact forked (own ▸ h.forked f mem)
    · exact h.forked f mem

/-- A fork copies what the reporter has. -/
theorem Accounted.fork (h : Accounted s seen) (here : s.pc u = .pipedStderr) :
    Accounted ((s.addProcess { command := u, inherited := s.held }).move u .forked s.held)
      (seen ++ [⟨u, fun v => settingUp (s.pc v)⟩]) := by
  have new_fork (f : Fork Thread) (mem : f ∈ seen) : f.command ≠ u := by
    intro own
    have forked := h.forked f mem
    rw [own, here] at forked
    cases forked
  refine ⟨fun v => ?_, fun v => ?_, fun f mem => ?_, fun f mem_f g mem_g same => ?_,
    fun p mem => ?_⟩
  · rw [held_move, pc_move, pc_addProcess, Function.update_apply, h.stdout]
    split
    · rename_i own
      rw [own, here]
      rfl
    · rfl
  · rw [held_move, pc_move, pc_addProcess, Function.update_apply, h.stdin]
    split
    · rename_i own
      rw [own, here]
      rfl
    · rfl
  · rw [pc_move, pc_addProcess, Function.update_apply]
    split
    · rfl
    · rename_i other
      rcases List.mem_append.mp mem with old | new
      · exact h.forked f old
      · exact absurd (List.mem_singleton.mp new ▸ rfl) other
  · rcases List.mem_append.mp mem_f with old_f | new_f <;>
      rcases List.mem_append.mp mem_g with old_g | new_g
    · exact h.once f old_f g old_g same
    · exact absurd (same.trans (List.mem_singleton.mp new_g ▸ rfl)) (new_fork f old_f)
    · exact absurd (same.symm.trans (List.mem_singleton.mp new_f ▸ rfl)) (new_fork g old_g)
    · rw [List.mem_singleton.mp new_f, List.mem_singleton.mp new_g]
  · rcases List.mem_append.mp mem with old | new
    · obtain ⟨f, seen, of⟩ := h.born p old
      exact ⟨f, List.mem_append_left _ seen, of⟩
    · rw [List.mem_singleton.mp new]
      exact ⟨_, List.mem_append_right _ (List.mem_singleton_self _), rfl, h.stdout⟩

theorem threadStep_accounted (hs : Accounted s seen) (h : threadStep s u = some t) :
    Accounted t (seen ++ forks s (.thread u)) := by
  have stdout := hs.stdout u
  have stdin := hs.stdin u
  rw [threadStep] at h
  cases here : s.pc u with
  | pipedStderr =>
    simp only [here, Option.some.injEq] at h
    simp only [forks, here, if_true]
    exact h ▸ hs.fork here
  | left =>
    simp only [here] at h
    cases h
  | looping =>
    simp only [here, Option.ite_none_right_eq_some, Option.some.injEq] at h
    rw [here] at stdout stdin
    simp only [forks, here, reduceCtorEq, if_false, List.append_nil]
    exact h.2 ▸ hs.move (by simp [closes, cleanup, stdout, settingUp])
      (by simp [closes, cleanup, feeding])
      (fun e => closes_of_ne s.held (by simp [cleanup])) (fun _ => rfl)
  | started | pipedStdin | pipedStdout =>
    simp only [here, Option.some.injEq] at h
    rw [here] at stdout stdin
    simp only [forks, here, reduceCtorEq, if_false, List.append_nil]
    exact h ▸ hs.move (by simp [opens, stdout, settingUp]) (by simp [opens, stdin, feeding])
      (fun e => opens_of_ne s.held _) (by rw [here]; exact id)
  | forked | closedStdin | closedStdout =>
    simp only [here, Option.some.injEq] at h
    rw [here] at stdout stdin
    simp only [forks, here, reduceCtorEq, if_false, List.append_nil]
    exact h ▸ hs.move (by simp [closes, stdout, settingUp]) (by simp [closes, stdin, feeding])
      (fun e => closes_of_ne s.held (by simp)) (fun _ => rfl)

theorem step_accounted (s : State Thread) (e : Event Thread) (t : State Thread)
    (seen : List (Fork Thread)) (hs : Accounted s seen) (h : step s e = some t) :
    Accounted t (seen ++ forks s e) := by
  rcases step_cases h with ⟨u, rfl, moves⟩ | ⟨none_forked, rest⟩
  · exact threadStep_accounted hs moves
  rw [none_forked, List.append_nil]
  rcases rest with ⟨u, f, l, -, -, rfl⟩ | ⟨n, p, q, now, follows, rfl⟩ | ⟨p, mem, rfl⟩
  · exact hs.keep rfl rfl fun p mem => ⟨p, mem, rfl, rfl⟩
  · refine hs.keep rfl rfl fun q' mem => ?_
    rcases List.mem_or_eq_of_mem_set mem with old | rfl
    · exact ⟨q', old, rfl, rfl⟩
    · exact ⟨p, List.mem_of_getElem? now, follows.command, follows.inherited⟩
  · refine hs.keep rfl rfl fun q mem' => ?_
    rcases List.mem_append.mp mem' with old | new
    · exact ⟨q, old, rfl, rfl⟩
    · exact ⟨p, mem, by rw [List.mem_singleton.mp new], by rw [List.mem_singleton.mp new]⟩

end Accounts

/-- A round of the loop. -/
def rounds : List Round := [.poll, .readStdout, .readStderr, .check]

section Rounds

theorem leaves_iff {l : ExecutorLoop.State} (polling : l.reader = .polling) :
    (∃ l', run ExecutorLoop.step l (rounds.map Round.event) = some l' ∧ l'.reader = .left) ↔
      l.stdout.closed = true := by
  by_cases ready : l.ready
  · cases hup : l.stdout.closed <;>
      simp [rounds, Round.event, run, ExecutorLoop.step, polling, ready, hup]
  · have opened : l.stdout.closed = false := by
      simp_all [ExecutorLoop.State.ready]
    simp [rounds, Round.event, run, ExecutorLoop.step, ready, opened]

variable {Thread : Type} [DecidableEq Thread] {s : State Thread} {u : Thread}

theorem run_loop_rounds (looping : s.pc u = .looping) (rs : List Round) :
    (run step s (rs.map (.loop u))).map (fun t => t.loop u) =
      run ExecutorLoop.step (s.loop u) (rs.map Round.event) := by
  induction rs generalizing s with
  | nil => rfl
  | cons r rs ih =>
    simp only [List.map_cons, run, step, if_pos looping]
    cases goes : ExecutorLoop.step (s.loop u) r.event with
    | none => rfl
    | some l =>
      have here : (s.setLoop u l).loop u = l :=
        loop_eq_of_setLoop (by cases r <;> simp [Round.event]) goes
      have there := ih (s := s.setLoop u l) looping
      rw [here] at there
      exact there

/-- In every run, whatever the processes do, a round of an executor's loop leaves it
exactly if all processes have let go of the write end of its stdout that come from a
command forked between the making of that stdout and the closing of its write end. -/
theorem run_leaves_iff {es : List (Event Thread)} (arrives : run step {} es = some s)
    (looping : s.pc u = .looping) (polling : (s.loops u).reader = .polling) :
    (∃ t, run step s (rounds.map (.loop u)) = some t ∧ (t.loops u).reader = .left) ↔
      ∀ p ∈ s.processes,
        (∃ f ∈ observed step forks {} es, f.command = p.command ∧ f.inherits u = true) →
        p.ended = true ∨ p.closed ⟨u, .stdout, .write⟩ = true := by
  have accounted : Accounted s (observed step forks {} es) :=
    run_observed_start Accounted step_accounted accounted_start arrives
  have left : (∃ t, run step s (rounds.map (.loop u)) = some t ∧ (t.loops u).reader = .left) ↔
      s.hungUp u .stdout = true := by
    refine Iff.trans ?_ (leaves_iff (l := s.loop u) polling)
    rw [← run_loop_rounds looping]
    simp only [Option.map_eq_some_iff, exists_exists_and_eq_and]
    rfl
  have made : made (s.pc u) .stdout = true := by
    rw [looping]
    rfl
  rw [left, hungUp_iff, and_iff_right made]
  exact accounted.held_iff (by rw [looping]; rfl)

end Rounds

section Waits

variable {Thread : Type}

/-- The process is the child that the executor has forked. -/
def Process.IsCommand (p : Process Thread) (u : Thread) : Prop :=
  p.command = u ∧ p.spawned = false

/-- The executor's command keeps its stdout until it ends, and ends only when the
end of its input is reached. -/
def Attentive (u : Thread) (s : State Thread) : Event Thread → Prop
  | .closes n e => (∃ p ∈ s.processes[n]?, p.IsCommand u) → e ≠ ⟨u, .stdout, .write⟩
  | .ends n => (∃ p ∈ s.processes[n]?, p.IsCommand u) → ¬ s.Held ⟨u, .stdin, .write⟩
  | .thread _ | .loop _ _ | .exec _ | .writes _ _ _ _ | .spawns _ => True

section Instances

variable [DecidableEq Thread]

instance decidableIsCommand (p : Process Thread) (u : Thread) : Decidable (p.IsCommand u) :=
  inferInstanceAs (Decidable (_ ∧ _))

instance decidableAttentive (u : Thread) (s : State Thread) : ∀ e, Decidable (Attentive u s e)
  | .closes n e => inferInstanceAs
      (Decidable ((∃ p ∈ s.processes[n]?, p.IsCommand u) → e ≠ ⟨u, .stdout, .write⟩))
  | .ends n => inferInstanceAs
      (Decidable ((∃ p ∈ s.processes[n]?, p.IsCommand u) → ¬ s.Held ⟨u, .stdin, .write⟩))
  | .thread _ | .loop _ _ | .exec _ | .writes _ _ _ _ | .spawns _ => isTrue trivial

end Instances

/-- The loop has not found stdout hung up. -/
def stays : Reader → Bool
  | .polling => true
  | .reading _ _ hup | .readingStderr _ hup | .checking hup => !hup
  | .left => false

/-- The executor and its command wait for each other. -/
structure Waiting (s : State Thread) (u : Thread) : Prop where
  born : hasForked (s.pc u) = true → ∃ p ∈ s.processes, p.IsCommand u
  has : ∀ p ∈ s.processes, p.IsCommand u → p.has ⟨u, .stdout, .write⟩ = true
  stays : stays (s.loops u).reader = true
  loops : s.pc u ≠ .left

variable {s t : State Thread} {u : Thread} {seen : List (Fork Thread)}

theorem stays_step {l l' : ExecutorLoop.State} {e : ExecutorLoop.Event}
    (opened : l.stdout.closed = false) (before : stays l.reader = true)
    (h : ExecutorLoop.step l e = some l') : stays l'.reader = true := by
  cases e with
  | write fd bytes =>
    obtain ⟨p, -, -, rfl⟩ := ExecutorLoop.step_write h
    cases fd <;> exact before
  | close fd =>
    obtain rfl := Option.some.inj h
    cases fd <;> exact before
  | poll =>
    obtain ⟨-, rfl⟩ := ExecutorLoop.step_poll h
    simp [stays, opened]
  | readStdout =>
    obtain ⟨out, err, hup, reading, rfl⟩ := ExecutorLoop.step_readStdout h
    rw [reading] at before
    exact before
  | readStderr =>
    obtain ⟨err, hup, reading, rfl⟩ := ExecutorLoop.step_readStderr h
    rw [reading] at before
    exact before
  | check =>
    obtain ⟨hup, checking, rfl⟩ := ExecutorLoop.step_check h
    rw [checking] at before
    simp_all [stays]

/-- Its own command has the write end of its stdout. -/
theorem Waiting.hungUp (waits : Waiting s u) (hs : Accounted s seen) :
    s.hungUp u .stdout = false := by
  rw [← Bool.not_eq_true, hungUp_iff]
  rintro ⟨made, unheld⟩
  by_cases forked : hasForked (s.pc u) = true
  · obtain ⟨p, mem, own⟩ := waits.born forked
    exact unheld (Or.inr ⟨p, mem, waits.has p mem own⟩)
  · refine unheld (Or.inl ((hs.stdout u).trans ?_))
    cases here : s.pc u <;> simp_all [ExecutorPipes.made, hasForked, settingUp]

theorem Waiting.setProcess {e : Event Thread} (waits : Waiting s u) (hs : Accounted s seen)
    (attends : Attentive u s e) {n : Nat} {p q : Process Thread}
    (now : s.processes[n]? = some p) (follows : Follows e n p q) :
    Waiting (s.setProcess n q) u := by
  have same : q.IsCommand u ↔ p.IsCommand u := by
    rw [Process.IsCommand, Process.IsCommand, follows.command, follows.spawned]
  refine ⟨fun forked => ?_, fun p' mem own => ?_, waits.stays, waits.loops⟩
  · obtain ⟨p', mem, own⟩ := waits.born forked
    obtain ⟨m, there⟩ := List.mem_iff_getElem?.mp mem
    by_cases other : n = m
    · have eq : p = p' := by
        rw [other, there] at now
        exact (Option.some.inj now).symm
      have bound : n < s.processes.length := (List.getElem?_eq_some_iff.mp now).1
      exact ⟨q, List.mem_set bound q, same.mpr (eq ▸ own)⟩
    · refine ⟨p', List.mem_of_getElem? (i := m) ?_, own⟩
      rw [processes_setProcess, List.getElem?_set_ne other, there]
  · rcases List.mem_or_eq_of_mem_set mem with old | rfl
    · exact waits.has p' old own
    have own : p.IsCommand u := same.mp own
    rcases follows.has _ (waits.has p (List.mem_of_getElem? now) own) with
      has | cleaned | rfl | rfl
    · exact has
    · simp [cleanup] at cleaned
    · exact absurd rfl (attends ⟨p, now, own⟩)
    · -- the reporter closes the write end of the stdin only when the loop is left
      obtain ⟨f, mem, command, -⟩ := hs.born p (List.mem_of_getElem? now)
      have forked : hasForked (s.pc u) = true := by
        rw [← own.1, ← command]
        exact hs.forked f mem
      have feeds := feeding_of_hasForked forked waits.loops
      exact absurd (Or.inl ((hs.stdin u).trans feeds)) (attends ⟨p, now, own⟩)

variable [DecidableEq Thread]

theorem Waiting.move (waits : Waiting s u) {v : Thread} {pc : Pc} {held : Descriptors Thread}
    (forked : hasForked pc = true → hasForked (s.pc v) = true) (loops : v = u → pc ≠ .left) :
    Waiting (s.move v pc held) u := by
  refine ⟨fun now => waits.born ?_, waits.has, waits.stays, ?_⟩
  · rw [pc_move, Function.update_apply] at now
    split at now
    · rename_i own
      exact own ▸ forked now
    · exact now
  · rw [pc_move, Function.update_apply]
    split
    · rename_i own
      exact loops own.symm
    · exact waits.loops

/-- The command gets the write end that the reporter has. -/
theorem Waiting.fork (waits : Waiting s u) (hs : Accounted s seen) {v : Thread}
    (here : s.pc v = .pipedStderr) :
    Waiting ((s.addProcess { command := v, inherited := s.held }).move v .forked s.held) u := by
  refine ⟨fun now => ?_, fun p mem own => ?_, waits.stays, ?_⟩
  · by_cases own : u = v
    · exact ⟨_, List.mem_append_right _ (List.mem_singleton_self _), own.symm, rfl⟩
    · rw [pc_move, pc_addProcess, Function.update_of_ne own] at now
      obtain ⟨p, mem, command⟩ := waits.born now
      exact ⟨p, List.mem_append_left _ mem, command⟩
  · rcases List.mem_append.mp mem with old | new
    · exact waits.has p old own
    · rw [List.mem_singleton.mp new] at own ⊢
      obtain rfl : v = u := own.1
      have stdout := hs.stdout v
      rw [here] at stdout
      simpa [Process.has, settingUp] using stdout
  · rw [pc_move, pc_addProcess, Function.update_apply]
    split
    · simp
    · exact waits.loops

theorem threadStep_waiting (hs : Accounted s seen) (waits : Waiting s u) {v : Thread}
    (h : threadStep s v = some t) : Waiting t u := by
  rw [threadStep] at h
  cases here : s.pc v with
  | left =>
    simp only [here] at h
    cases h
  | looping =>
    simp only [here, Option.ite_none_right_eq_some, Option.some.injEq] at h
    obtain ⟨left, rfl⟩ := h
    refine waits.move (by simp [here, hasForked]) ?_
    rintro rfl
    have stays := waits.stays
    rw [left] at stays
    cases stays
  | pipedStderr =>
    simp only [here, Option.some.injEq] at h
    exact h ▸ waits.fork hs here
  | started | pipedStdin | pipedStdout | forked | closedStdin | closedStdout =>
    simp only [here, Option.some.injEq] at h
    exact h ▸ waits.move (by simp [here, hasForked]) (by simp)

theorem step_waiting {e : Event Thread} (hs : Accounted s seen) (waits : Waiting s u)
    (attends : Attentive u s e) (h : step s e = some t) : Waiting t u := by
  rcases step_cases h with ⟨v, rfl, moves⟩ |
    ⟨-, ⟨v, f, l, -, goes, rfl⟩ | ⟨n, p, q, now, follows, rfl⟩ | ⟨p, mem, rfl⟩⟩
  · exact threadStep_waiting hs waits moves
  · refine ⟨waits.born, waits.has, ?_, waits.loops⟩
    rw [loops_setLoop, Function.update_apply]
    split
    · rename_i own
      obtain rfl := own
      exact stays_step (l := s.loop u) (waits.hungUp hs) waits.stays goes
    · exact waits.stays
  · exact waits.setProcess hs attends now follows
  · refine ⟨fun forked => ?_, fun q mem' own => ?_, waits.stays, waits.loops⟩
    · obtain ⟨p', mem', own⟩ := waits.born forked
      exact ⟨p', List.mem_append_left _ mem', own⟩
    · rcases List.mem_append.mp mem' with old | new
      · exact waits.has q old own
      · rw [List.mem_singleton.mp new] at own
        exact absurd own.2 (by simp)

/-- In every run in which the executor's command keeps its stdout until it ends, and
ends only when the end of its input is reached, neither it nor the loop comes to an
end. -/
theorem run_waiting {es : List (Event Thread)} (attends : Guarded step (Attentive u) {} es)
    (arrives : run step {} es = some s) :
    (∀ p ∈ s.processes, p.IsCommand u → p.ended = false) ∧ (s.loops u).reader ≠ .left := by
  have start : Waiting ({} : State Thread) u := ⟨nofun, nofun, rfl, nofun⟩
  have kept (s : State Thread) (e : Event Thread) (t : State Thread) (seen : List (Fork Thread))
      (hs : Accounted s seen ∧ Waiting s u) (attends : Attentive u s e) (h : step s e = some t) :
      Accounted t (seen ++ forks s e) ∧ Waiting t u :=
    ⟨step_accounted s e t seen hs.1 h, step_waiting hs.1 hs.2 attends h⟩
  have waiting : Waiting s u := (guarded_run_observed
    (fun s seen => Accounted s seen ∧ Waiting s u) kept ⟨accounted_start, start⟩ attends arrives).2
  refine ⟨fun p mem own => ?_, fun left => ?_⟩
  · have has := waiting.has p mem own
    simp only [Process.has, Bool.and_eq_true, Bool.not_eq_true'] at has
    exact has.1.1
  · have stays := waiting.stays
    rw [left] at stays
    cases stays

end Waits

/-- The second command is forked while the first has its pipes made. The first ends,
and a process that it leaves behind has its stdout redirected. -/
def overlapping : List (Event Bool) :=
  List.replicate 3 (.thread false) ++ List.replicate 7 (.thread true) ++
    List.replicate 4 (.thread false) ++
    [.exec 0, .exec 1, .spawns 1, .closes 2 (sink false .stdout), .ends 1]

/-- The second command closes the write end that it has inherited. -/
def redirected : List (Event Bool) := overlapping ++ [.closes 0 (sink false .stdout)]

theorem run_leaves_iff_overlapping :
    let s := (run step {} overlapping).get (by decide +kernel)
    let t := (run step {} redirected).get (by decide +kernel)
    (¬ ∃ s', run step s (rounds.map (.loop false)) = some s' ∧ (s'.loops false).reader = .left) ∧
      ∃ t', run step t (rounds.map (.loop false)) = some t' ∧ (t'.loops false).reader = .left := by
  constructor
  · refine mt (run_leaves_iff (Option.some_get _).symm ?_ ?_).mp ?_ <;> decide +kernel
  · refine (run_leaves_iff (Option.some_get _).symm ?_ ?_).mpr ?_ <;> decide +kernel

theorem run_waiting_redirected :
    let s := (run step {} redirected).get (by decide +kernel)
    (∀ p ∈ s.processes, p.IsCommand true → p.ended = false) ∧ (s.loops true).reader ≠ .left :=
  run_waiting (by decide +kernel) (Option.some_get _).symm

end ExecutorPipes
