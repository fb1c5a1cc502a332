import RemoteManagement.ExecutorOutput
import RemoteManagement.Library.BoundedPipe
import RemoteManagement.Library.GuardedRun

/-!
# The loop of runCommand

The loop polls the pipes of the command's two output streams, reads those that
were found readable, and is left when the poll found stdout hung up. The
command writes and closes between any two of these steps; it exits by closing
what it has not closed. A read is as large as a pipe, so it takes all there is.
-/

namespace ExecutorLoop

open BoundedPipe GuardedRun
open ExecutorOutput (Byte bufferSize)

inductive Fd where
  | stdout
  | stderr
  deriving DecidableEq

/-- Where the loop is, with what the poll of the round has found: whether stdout
and stderr are readable, and whether stdout is hung up. -/
inductive Reader where
  | polling
  | reading (out err hup : Bool)
  | readingStderr (err hup : Bool)
  | checking (hup : Bool)
  | left
  deriving DecidableEq

structure State where
  stdout : Pipe Byte bufferSize
  stderr : Pipe Byte bufferSize
  reader : Reader

inductive Event where
  | write (fd : Fd) (bytes : List Byte)
  | close (fd : Fd)
  | poll
  | readStdout
  | readStderr
  | check

def State.pipe (s : State) : Fd → Pipe Byte bufferSize
  | .stdout => s.stdout
  | .stderr => s.stderr

def State.setPipe (s : State) (p : Pipe Byte bufferSize) : Fd → State
  | .stdout => { s with stdout := p }
  | .stderr => { s with stderr := p }

/-- The poll has no timeout, so it waits until a stream is readable or hung up. -/
def State.ready (s : State) : Bool :=
  s.stdout.readable || s.stdout.closed || s.stderr.readable || s.stderr.closed

def readIf (found : Bool) (p : Pipe Byte bufferSize) : Pipe Byte bufferSize :=
  if found then p.read bufferSize else p

/-- What is written after the loop was left stays where nobody reads it. -/
def step (s : State) : Event → Option State
  | .write fd bytes => ((s.pipe fd).write bytes).map (fun p => s.setPipe p fd)
  | .close fd => some (s.setPipe (s.pipe fd).close fd)
  | .poll =>
    if s.reader = .polling ∧ s.ready then
      some { s with reader := .reading s.stdout.readable s.stderr.readable s.stdout.closed }
    else none
  | .readStdout =>
    match s.reader with
    | .reading out err hup =>
      some { s with stdout := readIf out s.stdout, reader := .readingStderr err hup }
    | _ => none
  | .readStderr =>
    match s.reader with
    | .readingStderr err hup =>
      some { s with stderr := readIf err s.stderr, reader := .checking hup }
    | _ => none
  | .check =>
    match s.reader with
    | .checking hup => some { s with reader := if hup then .left else .polling }
    | _ => none

def start : State := ⟨.empty, .empty, .polling⟩

/-- Stderr will not be read any more. -/
def deaf : Reader → Bool
  | .polling => false
  | .reading _ err hup => hup && !err
  | .readingStderr err hup => hup && !err
  | .checking hup => hup
  | .left => true

/-- Nothing is written to stderr once it will not be read any more. -/
def Heard (s : State) : Event → Prop
  | .write .stderr bytes => deaf s.reader = true → bytes = []
  | _ => True

instance (s : State) : ∀ e, Decidable (Heard s e)
  | .write .stderr bytes => inferInstanceAs (Decidable (deaf s.reader = true → bytes = []))
  | .write .stdout _ | .close _ | .poll | .readStdout | .readStderr | .check => isTrue trivial

/-- Where stdout was found hung up, it is empty once it has been read. -/
def StdoutEnded (s : State) : Prop :=
  match s.reader with
  | .polling => True
  | .reading out _ hup =>
    hup = true → s.stdout.closed = true ∧ (out = false → s.stdout.held = [])
  | .readingStderr _ hup => hup = true → s.stdout.closed = true ∧ s.stdout.held = []
  | .checking hup => hup = true → s.stdout.closed = true ∧ s.stdout.held = []
  | .left => s.stdout.closed = true ∧ s.stdout.held = []

/-- Nothing is left in stderr when it will not be read any more. -/
def StderrHeard (s : State) : Prop := deaf s.reader = true → s.stderr.held = []

section Steps

variable {s t : State}

theorem step_write {fd : Fd} {bytes : List Byte} (h : step s (.write fd bytes) = some t) :
    ∃ p, (s.pipe fd).closed = false ∧ p.held = (s.pipe fd).held ++ bytes ∧ t = s.setPipe p fd := by
  obtain ⟨p, hp, rfl⟩ := Option.map_eq_some_iff.mp h
  obtain ⟨opened, held⟩ := Pipe.write_eq_some hp
  exact ⟨p, opened, held, rfl⟩

theorem step_poll (h : step s .poll = some t) :
    s.reader = .polling ∧
      t = { s with reader := .reading s.stdout.readable s.stderr.readable s.stdout.closed } := by
  simp only [step] at h
  split at h
  · rename_i polling
    exact ⟨polling.1, (Option.some.inj h).symm⟩
  · cases h

theorem step_readStdout (h : step s .readStdout = some t) :
    ∃ out err hup, s.reader = .reading out err hup ∧
      t = { s with stdout := readIf out s.stdout, reader := .readingStderr err hup } := by
  simp only [step] at h
  split at h
  · rename_i out err hup hr
    exact ⟨out, err, hup, hr, (Option.some.inj h).symm⟩
  · cases h

theorem step_readStderr (h : step s .readStderr = some t) :
    ∃ err hup, s.reader = .readingStderr err hup ∧
      t = { s with stderr := readIf err s.stderr, reader := .checking hup } := by
  simp only [step] at h
  split at h
  · rename_i err hup hr
    exact ⟨err, hup, hr, (Option.some.inj h).symm⟩
  · cases h

theorem step_check (h : step s .check = some t) :
    ∃ hup, s.reader = .checking hup ∧
      t = { s with reader := if hup then .left else .polling } := by
  simp only [step] at h
  split at h
  · rename_i hup hr
    exact ⟨hup, hr, (Option.some.inj h).symm⟩
  · cases h

end Steps

theorem step_stdoutEnded (s : State) (e : Event) (t : State) (hs : StdoutEnded s)
    (h : step s e = some t) : StdoutEnded t := by
  cases e with
  | write fd bytes =>
    obtain ⟨p, opened, -, rfl⟩ := step_write h
    cases fd with
    | stdout =>
      -- nothing is known of an open stdout
      have opened : s.stdout.closed = false := opened
      cases hr : s.reader <;> simp_all [StdoutEnded, State.setPipe]
    | stderr => exact hs
  | close fd =>
    obtain rfl := Option.some.inj h
    cases fd with
    | stdout => cases hr : s.reader <;> simp_all [StdoutEnded, State.setPipe, State.pipe]
    | stderr => exact hs
  | poll =>
    obtain ⟨-, rfl⟩ := step_poll h
    exact fun hup => ⟨hup, Pipe.readable_eq_false_iff.mp⟩
  | readStdout =>
    obtain ⟨out, err, hup, hr, rfl⟩ := step_readStdout h
    simp only [StdoutEnded, hr] at hs ⊢
    intro found
    obtain ⟨closed, empty⟩ := hs found
    cases out with
    | true => exact ⟨closed, Pipe.held_read _⟩
    | false => exact ⟨closed, empty rfl⟩
  | readStderr =>
    obtain ⟨err, hup, hr, rfl⟩ := step_readStderr h
    simpa only [StdoutEnded, hr] using hs
  | check =>
    obtain ⟨hup, hr, rfl⟩ := step_check h
    simp only [StdoutEnded, hr] at hs ⊢
    cases hup with
    | true => exact hs rfl
    | false => exact trivial

/-- A step leaves something unread in stderr if it was left before, or if it is
a write that is not heard. -/
theorem step_stderrHeard_iff (s : State) (e : Event) (t : State) (h : step s e = some t) :
    StderrHeard t ↔ StderrHeard s ∧ Heard s e := by
  cases e with
  | write fd bytes =>
    obtain ⟨p, -, held, rfl⟩ := step_write h
    cases fd with
    | stdout => exact (and_iff_left trivial).symm
    | stderr =>
      simp only [StderrHeard, Heard, State.setPipe, held, List.append_eq_nil_iff, State.pipe]
      exact forall_and
  | close fd =>
    obtain rfl := Option.some.inj h
    cases fd <;> exact (and_iff_left trivial).symm
  | poll =>
    obtain ⟨polling, rfl⟩ := step_poll h
    have before : StderrHeard s := by simp [StderrHeard, polling, deaf]
    -- stderr is given up only if the poll has found nothing in it
    refine iff_of_true (fun unheard => ?_) ⟨before, trivial⟩
    simp only [deaf, Bool.and_eq_true, Bool.not_eq_true'] at unheard
    exact Pipe.readable_eq_false_iff.mp unheard.2
  | readStdout =>
    obtain ⟨out, err, hup, hr, rfl⟩ := step_readStdout h
    simp [StderrHeard, Heard, hr, deaf]
  | readStderr =>
    obtain ⟨err, hup, hr, rfl⟩ := step_readStderr h
    cases err <;> simp [StderrHeard, Heard, hr, deaf, readIf]
  | check =>
    obtain ⟨hup, hr, rfl⟩ := step_check h
    cases hup <;> simp [StderrHeard, Heard, hr, deaf]

/-- After the loop was left, everything that has been written was read exactly
if nothing was written to stderr that was not heard. -/
theorem all_read_iff {s : State} {es : List Event} (arrives : run step start es = some s)
    (left : s.reader = .left) :
    (∀ fd, (s.pipe fd).Drained) ↔ Guarded step Heard start es := by
  have ended : StdoutEnded s :=
    run_preserves step_stdoutEnded (show StdoutEnded start from trivial) arrives
  have heard := run_invariant_iff step_stderrHeard_iff arrives
  have first : StderrHeard start := by simp [StderrHeard, start, deaf]
  simp only [StdoutEnded, left] at ended
  rw [and_iff_right first, StderrHeard, left] at heard
  rw [← heard]
  constructor
  · exact fun all _ => Pipe.drained_iff.mp (all .stderr)
  · intro empty fd
    cases fd with
    | stdout => exact Pipe.drained_iff.mpr ended.2
    | stderr => exact Pipe.drained_iff.mpr (empty rfl)

/-- A command that writes to both streams and exits. -/
def shortCommand : List Event :=
  [.write .stdout [104, 105], .write .stderr [33], .close .stdout, .close .stderr, .poll,
    .readStdout, .readStderr, .check]

theorem all_read_shortCommand :
    let s := (run step start shortCommand).get (by rfl)
    s.reader = .left ∧ ∀ fd, (s.pipe fd).Drained := by
  have arrives : run step start shortCommand = some ((run step start shortCommand).get (by rfl)) :=
    (Option.some_get _).symm
  exact ⟨rfl, (all_read_iff arrives rfl).mpr (by decide)⟩

/-- A command that closes stdout and goes on to write to stderr. -/
def closedStdout : List Event :=
  [.close .stdout, .poll, .readStdout, .readStderr, .check, .write .stderr [33]]

theorem closedStdout_not_read :
    ∃ s, run step start closedStdout = some s ∧ s.reader = .left ∧
      ¬ ∀ fd, (s.pipe fd).Drained := by
  refine ⟨_, rfl, rfl, fun all => ?_⟩
  exact absurd (Pipe.drained_iff.mp (all .stderr)) (by decide)

end ExecutorLoop
