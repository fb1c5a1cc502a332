import Mathlib.Data.List.Chain
import Mathlib.Tactic.Ring

/-!
# Times that keep a distance

Each time comes at least a period after the one before it. So the last of them
bounds how many there are.
-/

namespace Spacing

def Spaced (period : Nat) (times : List Nat) : Prop :=
  times.IsChain (fun a b => a + period ≤ b)

variable {period : Nat} {times : List Nat}

theorem spaced_nil : Spaced period [] := .nil

theorem Spaced.mono (h : Spaced period times) {shorter : Nat} (le : shorter ≤ period) :
    Spaced shorter times :=
  h.imp fun _ _ apart => (Nat.add_le_add_left le _).trans apart

/-- The next time is a period or more after the last. -/
theorem Spaced.concat (h : Spaced period times) {b : Nat}
    (later : ∀ a ∈ times.getLast?, a + period ≤ b) : Spaced period (times ++ [b]) := by
  refine List.isChain_append.mpr ⟨h, .singleton b, fun a ha c hc => ?_⟩
  obtain rfl : b = c := by simpa using hc
  exact later a ha

/-- Between so many times there is so much time. -/
theorem Spaced.span_le (h : Spaced period times) {first last : Nat}
    (starts : times.head? = some first) (ends : times.getLast? = some last) :
    first + (times.length - 1) * period ≤ last := by
  induction times generalizing first with
  | nil => cases starts
  | cons a times ih =>
    obtain rfl : a = first := by simpa using starts
    cases times with
    | nil =>
      obtain rfl : a = last := by simpa using ends
      simp
    | cons b times =>
      obtain ⟨gap, rest⟩ := List.isChain_cons_cons.mp h
      have span := ih rest rfl (by simpa using ends)
      simp only [List.length_cons, Nat.add_sub_cancel] at span ⊢
      calc
        a + (times.length + 1) * period = a + period + times.length * period := by ring
        _ ≤ b + times.length * period := Nat.add_le_add_right gap _
        _ ≤ last := span

theorem Spaced.length_le (h : Spaced period times) {clock : Nat}
    (past : ∀ a ∈ times.getLast?, a ≤ clock) : (times.length - 1) * period ≤ clock := by
  cases starts : times.head? with
  | none => simp [List.head?_eq_none_iff.mp starts]
  | some first =>
    cases ends : times.getLast? with
    | none => simp [List.getLast?_eq_none_iff.mp ends]
    | some last =>
      have span := h.span_le starts ends
      have bound := past last ends
      omega

end Spacing
