import RemoteManagement.Library.Stdio

/-!
# Words and lines of a stream

The extraction of a string takes a word and leaves the white space behind it,
that of an int takes a number and gives the nearest int, and `getline` takes the
text up to a newline, which it drops. None does anything on a stream that has
failed, nor `getline` on one that has been extracted from to its end.
-/

namespace DecimalText.Stream

open Stdio

/-- `stream >> s` for a string that holds `old`. -/
def extractString (s : Stream) (old : List Char) : List Char × Stream :=
  if s.failed ∨ skipSpace s.rest = [] then (old, { s with failed := true })
  else (word (skipSpace s.rest), ⟨afterWord (skipSpace s.rest), false⟩)

/-- `getline(stream, s)` for a string that holds `old`, which it still holds
where an extraction has come to the end. -/
def getline (s : Stream) (old : List Char) : List Char × Stream :=
  if s.failed ∨ s.rest = [] then (old, { s with failed := true })
  else (line s.rest, ⟨dropLine s.rest, false⟩)

/-- Whether a sign and digits are a number of type int. -/
def isInt (number : Bool × List Char) : Bool :=
  number.2 ≠ [] ∧ -2 ^ 31 ≤ value number ∧ value number < 2 ^ 31

/-- The int nearest to the number in front of a text, zero if there is none. -/
def nearestInt (text : List Char) : Int :=
  max (-2 ^ 31) (min (value (takeNumber text).1) (2 ^ 31 - 1))

theorem nearestInt_of_isInt {text : List Char} (h : isInt (takeNumber text).1 = true) :
    nearestInt text = value (takeNumber text).1 := by
  obtain ⟨-, low, high⟩ := of_decide_eq_true h
  rw [nearestInt]
  omega

/-- An int is extracted unless the stream is at its end; it fails if the number
is not of type int. -/
theorem extractInt_eq {text : List Char} (more : skipSpace text ≠ []) (old : Int) :
    extractInt ⟨text, false⟩ old = (nearestInt (skipSpace text),
      ⟨(takeNumber (skipSpace text)).2, !isInt (takeNumber (skipSpace text)).1⟩) := by
  simp only [extractInt, more, Bool.false_eq_true, or_self, if_false, nearestInt, isInt]
  generalize takeNumber (skipSpace text) = taken
  obtain ⟨⟨negative, digits⟩, rest⟩ := taken
  dsimp only
  by_cases noDigits : digits = []
  · subst noDigits
    simp [value]
  · rw [if_neg noDigits]
    generalize value (negative, digits) = n
    by_cases low : n < -2 ^ 31
    · have nearest : max (-2 ^ 31) (min n (2 ^ 31 - 1)) = -2 ^ 31 := by omega
      have out : ¬ (digits ≠ [] ∧ -2 ^ 31 ≤ n ∧ n < 2 ^ 31) := by omega
      rw [if_pos low, nearest, decide_eq_false out]
      rfl
    · rw [if_neg low]
      by_cases high : 2 ^ 31 ≤ n
      · have nearest : max (-2 ^ 31) (min n (2 ^ 31 - 1)) = 2 ^ 31 - 1 := by omega
        have out : ¬ (digits ≠ [] ∧ -2 ^ 31 ≤ n ∧ n < 2 ^ 31) := by omega
        rw [if_pos high, nearest, decide_eq_false out]
        rfl
      · have nearest : max (-2 ^ 31) (min n (2 ^ 31 - 1)) = n := by omega
        have int : digits ≠ [] ∧ -2 ^ 31 ≤ n ∧ n < 2 ^ 31 := ⟨noDigits, by omega, by omega⟩
        rw [if_neg high, nearest, decide_eq_true int]
        rfl

theorem extractString_word {w rest : List Char} (h : IsWord w) (ends : EndsWord rest)
    (gap : List Char) (blank : ∀ c ∈ gap, isSpace c = true) (old : List Char) :
    extractString ⟨gap ++ (w ++ rest), false⟩ old = (w, ⟨rest, false⟩) := by
  have nonempty : w ++ rest ≠ [] := by simp [h.nonempty]
  simp only [extractString, skipSpace_append blank, h.skipSpace, nonempty, Bool.false_eq_true,
    or_self, if_false, (word_append h ends).1, (word_append h ends).2]

theorem extractString_blank {gap : List Char} (blank : ∀ c ∈ gap, isSpace c = true)
    (failed : Bool) (old : List Char) :
    extractString ⟨gap, failed⟩ old = (old, ⟨gap, true⟩) := by
  have none : skipSpace gap = [] := List.dropWhile_eq_nil_iff.mpr blank
  simp [extractString, none]

end DecimalText.Stream

namespace Stdio

open DecimalText

/-- What a loop over `getline` reads of a file. -/
def lines : List Char → List (List Char)
  | [] => []
  | c :: cs =>
    if c = '\n' then [] :: lines cs
    else
      match lines cs with
      | [] => [[c]]
      | l :: ls => (c :: l) :: ls

theorem lines_getline (s : List Char) :
    lines s =
      if (Stream.getline ⟨s, false⟩ []).2.failed then []
      else (Stream.getline ⟨s, false⟩ []).1 :: lines (Stream.getline ⟨s, false⟩ []).2.rest := by
  induction s with
  | nil => rfl
  | cons c s ih =>
    by_cases newline : c = '\n'
    · simp [lines, Stream.getline, newline, line, dropLine]
    · have next : lines (c :: s) =
          match lines s with
          | [] => [[c]]
          | l :: ls => (c :: l) :: ls := if_neg newline
      rw [next, ih]
      cases s with
      | nil => simp [Stream.getline, newline, line, dropLine, lines]
      | cons d s => simp [Stream.getline, newline, line, dropLine]

/-- Lines without newlines of their own are read back. -/
theorem lines_flatMap {ls : List (List Char)} (one : ∀ l ∈ ls, '\n' ∉ l) :
    lines (ls.flatMap (fun l => l ++ ['\n'])) = ls := by
  induction ls with
  | nil => rfl
  | cons l ls ih =>
    rw [List.forall_mem_cons] at one
    have cut : (l :: ls).flatMap (fun l => l ++ ['\n']) =
        l ++ '\n' :: ls.flatMap (fun l => l ++ ['\n']) := by simp
    have nonempty : l ++ '\n' :: ls.flatMap (fun l => l ++ ['\n']) ≠ [] := by simp
    rw [cut, lines_getline]
    simp only [Stream.getline, nonempty, Bool.false_eq_true, or_self, if_false, line_append one.1,
      dropLine_append one.1, ih one.2]

end Stdio
