import Mathlib.Data.List.TakeWhile

/-!
# Strings in a buffer

A buffer of a fixed length is filled from its start, which leaves what was
behind. The string in it ends at the first terminator, and a buffer without one
has none. What was filled in is the string exactly if it has no terminator
itself and is followed by one.
-/

namespace CString

universe u

variable {α : Type u} [DecidableEq α]

def cString (terminator : α) (buffer : List α) : Option (List α) :=
  if terminator ∈ buffer then some (buffer.takeWhile (fun x => x ≠ terminator)) else none

omit [DecidableEq α] in
/-- The start of the buffer is replaced. -/
def fill (new buffer : List α) : List α := new ++ buffer.drop new.length

omit [DecidableEq α] in
theorem length_fill {new buffer : List α} (fits : new.length ≤ buffer.length) :
    (fill new buffer).length = buffer.length := by
  rw [fill, List.length_append, List.length_drop]
  omega

omit [DecidableEq α] in
theorem getElem?_fill_of_le {new : List α} (buffer : List α) {i : Nat} (h : new.length ≤ i) :
    (fill new buffer)[i]? = buffer[i]? := by
  have index : new.length + (i - new.length) = i := by omega
  rw [fill, List.getElem?_append_right h, List.getElem?_drop, index]

omit [DecidableEq α] in
theorem getElem?_fill_of_lt {new : List α} (buffer : List α) {i : Nat} (h : i < new.length) :
    (fill new buffer)[i]? = new[i]? :=
  List.getElem?_append_left h

theorem cString_append_iff {terminator : α} {new rest : List α} :
    cString terminator (new ++ rest) = some new ↔
      terminator ∉ new ∧ rest.head? = some terminator := by
  constructor
  · intro h
    rw [cString] at h
    split at h
    · rename_i mem
      have taken := Option.some.inj h
      have free : terminator ∉ new := by
        intro inside
        rw [← taken] at inside
        simpa using List.mem_takeWhile_imp inside
      have whole : ∀ x ∈ new, decide (x ≠ terminator) = true :=
        fun x hx => decide_eq_true fun same => free (same ▸ hx)
      rw [List.takeWhile_append_of_pos whole] at taken
      refine ⟨free, ?_⟩
      cases rest with
      | nil => simp [free] at mem
      | cons x rest =>
        by_cases same : x = terminator
        · rw [same]
          rfl
        · simp [same] at taken
    · cases h
  · rintro ⟨free, ends⟩
    obtain ⟨rest, rfl⟩ := List.head?_eq_some_iff.mp ends
    have whole : ∀ x ∈ new, decide (x ≠ terminator) = true :=
      fun x hx => decide_eq_true fun same => free (same ▸ hx)
    rw [cString, if_pos (by simp), List.takeWhile_append_of_pos whole]
    simp

/-- What is filled in is read back if the terminator comes right behind it. -/
theorem cString_fill_iff {terminator : α} {new buffer : List α} :
    cString terminator (fill new buffer) = some new ↔
      terminator ∉ new ∧ buffer[new.length]? = some terminator := by
  rw [fill, cString_append_iff, List.head?_drop]

end CString
