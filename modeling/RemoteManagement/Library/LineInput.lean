import RemoteManagement.Library.Stdio

/-!
# Lines of an input that is read beyond its end

`getline` clears its string before it reads, unless an earlier call has met the
end of the input: then it fails and the string keeps what it holds. So a loop
that does not look at the stream sees the lines of the text, and after them what
follows the last newline, again and again.
-/

namespace LineInput

open Stdio

structure Input where
  rest : List Char
  atEnd : Bool := false
  deriving DecidableEq

/-- `getline(stream, s)` for a string that holds `old`. -/
def Input.getline (i : Input) (old : List Char) : List Char × Input :=
  if i.atEnd then (old, i)
  else (line i.rest, ⟨dropLine i.rest, '\n' ∉ i.rest⟩)

/-- The string and the input after so many calls. -/
def Input.reads (i : Input) (old : List Char) : Nat → List Char × Input
  | 0 => (old, i)
  | n + 1 => (i.getline old).2.reads (i.getline old).1 n

/-- What a call finds in a text, the calls counted from zero. -/
def typed (text : List Char) (k : Nat) : List Char :=
  (text.splitOn '\n').getD k ((text.splitOn '\n').getLastD [])

theorem reads_atEnd {i : Input} (ended : i.atEnd = true) (old : List Char) (n : Nat) :
    i.reads old n = (old, i) := by
  induction n with
  | zero => rfl
  | succ n ih => rw [Input.reads, Input.getline, if_pos ended, ih]

theorem splitOn_append {l : List Char} (one : '\n' ∉ l) (rest : List Char) :
    (l ++ '\n' :: rest).splitOn '\n' = l :: rest.splitOn '\n' := by
  rw [List.splitOn_append_cons_self, List.splitOn_eq_singleton one, List.singleton_append]

theorem typed_of_notMem {text : List Char} (one : '\n' ∉ text) (k : Nat) :
    typed text k = text := by
  rw [typed, List.splitOn_eq_singleton one]
  cases k <;> rfl

@[simp] theorem typed_append_zero {l : List Char} (one : '\n' ∉ l) (rest : List Char) :
    typed (l ++ '\n' :: rest) 0 = l := by
  rw [typed, splitOn_append one]
  rfl

@[simp] theorem typed_append_succ {l : List Char} (one : '\n' ∉ l) (rest : List Char) (k : Nat) :
    typed (l ++ '\n' :: rest) (k + 1) = typed rest k := by
  have more : rest.splitOn '\n' ≠ [] := List.splitOn_ne_nil '\n' rest
  obtain ⟨first, others, split⟩ := List.exists_cons_of_ne_nil more
  rw [typed, typed, splitOn_append one, split]
  rfl

/-- A text has a newline after its first line, or is one line. -/
theorem line_cases (text : List Char) :
    '\n' ∉ text ∨ ∃ l rest, '\n' ∉ l ∧ text = l ++ '\n' :: rest := by
  by_cases newline : '\n' ∈ text
  · obtain ⟨l, rest, rfl, one⟩ := List.eq_append_cons_of_mem newline
    exact Or.inr ⟨l, rest, one, rfl⟩
  · exact Or.inl newline

/-- The calls find the lines, and at last the same again and again. -/
theorem reads_typed (text old : List Char) (k : Nat) :
    (Input.reads ⟨text, false⟩ old (k + 1)).1 = typed text k := by
  induction k generalizing text old with
  | zero =>
    rcases line_cases text with one | ⟨l, rest, one, rfl⟩
    · simp [Input.reads, Input.getline, line_of_notMem one, typed_of_notMem one]
    · simp [Input.reads, Input.getline, line_append one, one]
  | succ k ih =>
    rcases line_cases text with one | ⟨l, rest, one, rfl⟩
    · have first : Input.getline ⟨text, false⟩ old = (text, ⟨dropLine text, true⟩) := by
        simp [Input.getline, line_of_notMem one, one]
      rw [Input.reads, first, reads_atEnd rfl, typed_of_notMem one]
    · have first : Input.getline ⟨l ++ '\n' :: rest, false⟩ old = (l, ⟨rest, false⟩) := by
        simp [Input.getline, line_append one, dropLine_append one]
      rw [Input.reads, first, ih rest l, typed_append_succ one]

end LineInput
