import Mathlib.Algebra.Order.Ring.Int
import Mathlib.Tactic.Ring

/-!
# A trigger with a moving deadline

An event that comes after the deadline fires and moves the deadline on by one
period. If the events are in order of time and no slot between two deadlines is
empty, exactly the first event of each slot fires.
-/

namespace PeriodicTrigger

universe u

variable {α : Type u} (time : α → Int) (period : Int)

/-- The events that fire when the deadline is at `next`. -/
def fired (next : Int) : List α → List α
  | [] => []
  | a :: as =>
    if next < time a then a :: fired (next + period) as else fired next as

/-- The slot after the deadline that is `k` periods after `next`. -/
def InSlot (next : Int) (k : Nat) (t : Int) : Prop :=
  next + k * period < t ∧ t ≤ next + (k + 1) * period

instance (next : Int) (k : Nat) (t : Int) : Decidable (InSlot period next k t) :=
  inferInstanceAs (Decidable (_ ∧ _))

variable {time period}

theorem inSlot_succ (next : Int) (k : Nat) (t : Int) :
    InSlot period next (k + 1) t ↔ InSlot period (next + period) k t := by
  have lower : next + ((k + 1 : Nat) : Int) * period = next + period + k * period := by
    push_cast
    ring
  have upper : next + (((k + 1 : Nat) : Int) + 1) * period =
      next + period + (k + 1) * period := by
    push_cast
    ring
  rw [InSlot, InSlot, lower, upper]

theorem lt_of_inSlot (hp : 0 < period) {next : Int} {k : Nat} {t : Int}
    (h : InSlot period next k t) : next < t := by
  have : 0 ≤ (k : Int) * period := Int.mul_nonneg (Int.natCast_nonneg k) hp.le
  have := h.1
  omega

theorem lt_of_mem_fired (hp : 0 < period) {next : Int} {as : List α} {a : α}
    (h : a ∈ fired time period next as) : next < time a := by
  induction as generalizing next with
  | nil => cases h
  | cons b as ih =>
    rw [fired] at h
    split at h
    · rename_i hb
      rcases List.mem_cons.mp h with rfl | h
      · exact hb
      · have := ih h
        omega
    · exact ih h

/-- One event fires in each slot: the first. -/
theorem filter_fired (hp : 0 < period) {next : Int} {as : List α}
    (sorted : as.Pairwise (fun a b => time a ≤ time b)) {n : Nat}
    (regular : ∀ k < n, ∃ a ∈ as, InSlot period next k (time a)) {k : Nat} (hk : k < n) :
    (fired time period next as).filter (fun a => InSlot period next k (time a)) =
      (as.find? (fun a => InSlot period next k (time a))).toList := by
  induction as generalizing next n k with
  | nil => rfl
  | cons a as ih =>
    obtain ⟨first, sorted⟩ := List.pairwise_cons.mp sorted
    by_cases fires : next < time a
    · -- the slot that starts at the deadline is not empty, so the first event is in it
      have early : time a ≤ next + period := by
        obtain ⟨b, hb, hslot⟩ := regular 0 (by omega)
        have late : time b ≤ next + period := by simpa using hslot.2
        rcases List.mem_cons.mp hb with rfl | hb
        · exact late
        · exact (first b hb).trans late
      have others : ∀ k, ¬ InSlot period next (k + 1) (time a) := by
        intro k h
        have := lt_of_inSlot hp ((inSlot_succ next k _).mp h)
        omega
      rw [fired, if_pos fires]
      cases k with
      | zero =>
        have here : InSlot period next 0 (time a) := by
          simp [InSlot, fires, early]
        have none : (fired time period (next + period) as).filter
            (fun b => InSlot period next 0 (time b)) = [] := by
          rw [List.filter_eq_nil_iff]
          intro b hb
          have := lt_of_mem_fired hp hb
          simp [InSlot, this]
        simp [here, none]
      | succ k =>
        have regularRest : ∀ j < n - 1, ∃ b ∈ as, InSlot period (next + period) j (time b) := by
          intro j hj
          obtain ⟨b, hb, hslot⟩ := regular (j + 1) (by omega)
          rcases List.mem_cons.mp hb with rfl | hb
          · exact absurd hslot (others j)
          · exact ⟨b, hb, (inSlot_succ next j _).mp hslot⟩
        have rest := ih sorted regularRest (k := k) (by omega)
        simp only [inSlot_succ] at others ⊢
        simp [others k, rest]
    · have before : ∀ k, ¬ InSlot period next k (time a) :=
        fun k h => fires (lt_of_inSlot hp h)
      have regularRest : ∀ j < n, ∃ b ∈ as, InSlot period next j (time b) := by
        intro j hj
        obtain ⟨b, hb, hslot⟩ := regular j hj
        rcases List.mem_cons.mp hb with rfl | hb
        · exact absurd hslot (before j)
        · exact ⟨b, hb, hslot⟩
      rw [fired, if_neg fires, ih sorted regularRest hk]
      simp [before k]

end PeriodicTrigger
