import Mathlib.Data.List.DropRight

/-!
# Sliding windows

A window that is over its limit drops its oldest entry before it takes a new
one. The test is made before the entry comes, so a window that is kept this way
holds up to one entry more than the limit.
-/

namespace SlidingWindow

universe u

variable {α : Type u}

def push (limit : Nat) (window : List α) (x : α) : List α :=
  (if window.length > limit then window.tail else window) ++ [x]

theorem length_rtake (n : Nat) (xs : List α) : (xs.rtake n).length = min n xs.length := by
  rw [List.rtake, List.length_drop]
  omega

theorem rtake_of_length_le {n : Nat} {xs : List α} (h : xs.length ≤ n) : xs.rtake n = xs := by
  rw [List.rtake, Nat.sub_eq_zero_of_le h, List.drop_zero]

theorem tail_rtake {n : Nat} {xs : List α} (h : n < xs.length) :
    (xs.rtake (n + 1)).tail = xs.rtake n := by
  have next : xs.length - (n + 1) + 1 = xs.length - n := by omega
  rw [List.rtake, List.rtake, List.tail_drop, next]

/-- The window holds the last entries, one more than the limit. -/
theorem push_rtake (limit : Nat) (xs : List α) (x : α) :
    push limit (xs.rtake (limit + 1)) x = (xs ++ [x]).rtake (limit + 1) := by
  rw [push, List.rtake_concat_succ, length_rtake]
  rcases Nat.lt_or_ge limit xs.length with full | room
  · rw [if_pos (by omega), tail_rtake full]
  · rw [if_neg (by omega), rtake_of_length_le (by omega), rtake_of_length_le room]

theorem foldl_push (limit : Nat) {start : List α} (h : start.length ≤ limit + 1) (xs : List α) :
    xs.foldl (push limit) start = (start ++ xs).rtake (limit + 1) := by
  induction xs using List.reverseRecOn with
  | nil => rw [List.append_nil, rtake_of_length_le h, List.foldl_nil]
  | append_singleton xs x ih => rw [List.foldl_concat, ih, push_rtake, List.append_assoc]

end SlidingWindow
