import Mathlib.Logic.Basic

/-!
# Bounded pipes

A pipe holds what was written into it and not read, up to its capacity. A write
that does not fit, or comes after the close, does not happen. A read takes what
is held, up to a count. Nothing is lost or reordered between the two: what was
written is what was taken and then what is held.
-/

namespace BoundedPipe

universe u

structure Pipe (α : Type u) (capacity : Nat) where
  written : List α := []
  taken : List α := []
  held : List α := []
  closed : Bool := false
  split : written = taken ++ held
  fits : held.length ≤ capacity

namespace Pipe

variable {α : Type u} {capacity : Nat}

def empty : Pipe α capacity := ⟨[], [], [], false, rfl, Nat.zero_le capacity⟩

def write (p : Pipe α capacity) (xs : List α) : Option (Pipe α capacity) :=
  if h : p.closed = false ∧ p.held.length + xs.length ≤ capacity then
    some { p with
      written := p.written ++ xs
      held := p.held ++ xs
      split := by rw [p.split, List.append_assoc]
      fits := by rw [List.length_append]; exact h.2 }
  else none

def close (p : Pipe α capacity) : Pipe α capacity := { p with closed := true }

def read (p : Pipe α capacity) (count : Nat) : Pipe α capacity where
  written := p.written
  taken := p.taken ++ p.held.take count
  held := p.held.drop count
  closed := p.closed
  split := by rw [p.split, List.append_assoc, List.take_append_drop]
  fits := by
    rw [List.length_drop]
    have := p.fits
    omega

/-- A reader that waits for something to read would find it. -/
def readable (p : Pipe α capacity) : Bool := !p.held.isEmpty

/-- Everything that was written has been read. -/
def Drained (p : Pipe α capacity) : Prop := p.taken = p.written

@[simp] theorem held_close (p : Pipe α capacity) : p.close.held = p.held := rfl

@[simp] theorem closed_close (p : Pipe α capacity) : p.close.closed = true := rfl

theorem readable_eq_false_iff {p : Pipe α capacity} : p.readable = false ↔ p.held = [] := by
  simp [readable]

theorem drained_iff {p : Pipe α capacity} : p.Drained ↔ p.held = [] := by
  rw [Drained, p.split, List.self_eq_append_right]

theorem write_eq_some {p q : Pipe α capacity} {xs : List α} (h : p.write xs = some q) :
    p.closed = false ∧ q.held = p.held ++ xs := by
  rw [write] at h
  split at h
  · rename_i room
    obtain rfl := Option.some.inj h
    exact ⟨room.1, rfl⟩
  · cases h

theorem closed_write {p q : Pipe α capacity} {xs : List α} (h : p.write xs = some q) :
    q.closed = p.closed := by
  rw [write] at h
  split at h
  · exact Option.some.inj h ▸ rfl
  · cases h

/-- A read of as much as the pipe can hold takes everything. -/
@[simp] theorem held_read (p : Pipe α capacity) : (p.read capacity).held = [] :=
  List.drop_eq_nil_of_le p.fits

end Pipe

end BoundedPipe
