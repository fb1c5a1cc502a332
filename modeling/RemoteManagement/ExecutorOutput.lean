import RemoteManagement.Library.CString

/-!
# One round of runCommand

A round of the loop reads what is ready of the command's output and error
stream into one buffer, makes a string of the buffer after each read, and
reports both strings. The buffer is a new variable in each round, so anything
may be in it. How much was read is not looked at again.
-/

namespace ExecutorOutput

open CString

abbrev Byte := UInt8

def bufferSize : Nat := 1024 * 64

structure Buffer where
  bytes : List Byte
  full : bytes.length = bufferSize

/-- What a read may put into the buffer. -/
structure Chunk where
  bytes : List Byte
  fits : bytes.length ≤ bufferSize

/-- What a stream is found to be when it is polled, and read if it is ready. -/
inductive Stream where
  | notReady
  | failed
  | ready (chunk : Chunk)

def Stream.polled : Stream → Bool
  | .notReady => false
  | _ => true

/-- A round ends early if the read of stdout fails, and has no result if the
string in the buffer has no end. -/
inductive Stop where
  | broken
  | overrun
  deriving DecidableEq

def Buffer.read (buffer : Buffer) (chunk : Chunk) : Buffer where
  bytes := fill chunk.bytes buffer.bytes
  full := by
    rw [length_fill (by rw [buffer.full]; exact chunk.fits), buffer.full]

/-- The assignment of the buffer to a string. -/
def Buffer.string (buffer : Buffer) : Except Stop (List Byte) :=
  match cString 0 buffer.bytes with
  | some s => .ok s
  | none => .error .overrun

/-- `out` is empty before, since it was cleared after the last report. -/
def readStdout (buffer : Buffer) : Stream → Except Stop (List Byte × Buffer)
  | .notReady => return ([], buffer)
  | .failed => throw .broken
  | .ready chunk => do
    let out ← (buffer.read chunk).string
    return (out, buffer.read chunk)

/-- What this read returns is not kept, so that it cannot fail. -/
def readStderr (buffer : Buffer) : Stream → Except Stop (List Byte)
  | .notReady => return []
  | .failed => buffer.string
  | .ready chunk => (buffer.read chunk).string

/-- The strings that are reported, if any are. -/
def round (buffer : Buffer) (stdout stderr : Stream) :
    Except Stop (Option (List Byte × List Byte)) := do
  let (out, buffer) ← readStdout buffer stdout
  let err ← readStderr buffer stderr
  return if stderr.polled || stdout.polled then some (out, err) else none

/-- A stream that is not read, or of which this is read. -/
def Stream.of : Option Chunk → Stream
  | none => .notReady
  | some chunk => .ready chunk

/-- The round reports what was read, if anything was. -/
def whatWasRead (stdout stderr : Option Chunk) : Option (List Byte × List Byte) :=
  if stdout.isSome || stderr.isSome then
    some (stdout.elim [] Chunk.bytes, stderr.elim [] Chunk.bytes)
  else none

/-- The bytes have no NUL in them and find one behind them. -/
def Ends (buffer : Buffer) (chunk : Chunk) : Prop :=
  0 ∉ chunk.bytes ∧ buffer.bytes[chunk.bytes.length]? = some 0

theorem string_read_iff (buffer : Buffer) (chunk : Chunk) :
    (buffer.read chunk).string = .ok chunk.bytes ↔ Ends buffer chunk := by
  have filled : cString 0 (buffer.read chunk).bytes = some chunk.bytes ↔ Ends buffer chunk :=
    cString_fill_iff
  rw [← filled, Buffer.string]
  cases cString 0 (buffer.read chunk).bytes <;> simp

/-- Bytes that are read over others end if they are not the shorter ones. -/
theorem ends_read_iff {buffer : Buffer} {first : Chunk} (ends : Ends buffer first) (second : Chunk) :
    Ends (buffer.read first) second ↔
      Ends buffer second ∧ first.bytes.length ≤ second.bytes.length := by
  rw [Ends, Ends, and_assoc]
  refine and_congr Iff.rfl ?_
  rcases Nat.lt_or_ge second.bytes.length first.bytes.length with shorter | longer
  · refine iff_of_false (fun found => ends.1 ?_) (fun h => by omega)
    rw [Buffer.read, getElem?_fill_of_lt _ shorter] at found
    exact List.mem_of_getElem? found
  · rw [Buffer.read, getElem?_fill_of_le _ longer]
    exact (and_iff_left longer).symm

theorem bind_eq_ok {α β : Type} {x : Except Stop α} {f : α → Except Stop β} {b : β} :
    x >>= f = .ok b ↔ ∃ a, x = .ok a ∧ f a = .ok b := by
  cases x with
  | error stop => simp [bind, Except.bind]
  | ok a => simp [bind, Except.bind]

theorem map_eq_ok {α β : Type} {x : Except Stop α} {f : α → β} {b : β} :
    f <$> x = .ok b ↔ ∃ a, x = .ok a ∧ f a = b := by
  cases x with
  | error stop => simp [Functor.map, Except.map]
  | ok a => simp [Functor.map, Except.map]

/-- The strings are exactly what was read if and only if the bytes of each
stream end, and those of stderr are not fewer than those of stdout before. -/
theorem round_exact_iff (buffer : Buffer) (stdout stderr : Option Chunk) :
    round buffer (.of stdout) (.of stderr) = .ok (whatWasRead stdout stderr) ↔
      (∀ o ∈ stdout, Ends buffer o) ∧
        (∀ e ∈ stderr, Ends buffer e ∧ ∀ o ∈ stdout, o.bytes.length ≤ e.bytes.length) := by
  cases stdout with
  | none =>
    cases stderr with
    | none => exact iff_of_true rfl (by simp)
    | some e =>
      simp [round, whatWasRead, Stream.of, readStdout, readStderr, Stream.polled, map_eq_ok,
        string_read_iff]
  | some o =>
    cases stderr with
    | none =>
      simp [round, whatWasRead, Stream.of, readStdout, readStderr, Stream.polled, map_eq_ok,
        string_read_iff]
    | some e =>
      have both : round buffer (.of (some o)) (.of (some e)) = .ok (whatWasRead (some o) (some e)) ↔
          Ends buffer o ∧ Ends (buffer.read o) e := by
        simp [round, whatWasRead, Stream.of, readStdout, readStderr, Stream.polled, bind_eq_ok,
          map_eq_ok, string_read_iff]
      rw [both]
      simp only [Option.mem_def, Option.some.injEq, forall_eq']
      exact and_congr_right fun ends => ends_read_iff ends e

/-- A buffer that was zero, and two reads of which the second is shorter. -/
def zeros : Buffer := ⟨List.replicate bufferSize 0, List.length_replicate⟩

def hello : Chunk := ⟨[104, 101, 108, 108, 111], by decide⟩

def no : Chunk := ⟨[110, 111], by decide⟩

/-- The rest of what was written to stdout is reported as written to stderr. -/
theorem shorterStderr_not_exact :
    round zeros (.of (some hello)) (.of (some no)) =
        .ok (some (hello.bytes, [110, 111, 108, 108, 111])) ∧
      round zeros (.of (some hello)) (.of (some no)) ≠ .ok (whatWasRead (some hello) (some no)) := by
  decide +kernel

end ExecutorOutput
