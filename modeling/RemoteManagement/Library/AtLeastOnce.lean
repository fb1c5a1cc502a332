import Mathlib.Data.List.Basic

/-!
# At-least-once delivery in order

A log keeps the order of a list and may repeat each element, but skips none. A
sender that goes to the next element only after the present one has arrived
writes such a log.
-/

namespace AtLeastOnce

universe u

variable {α : Type u}

/-- The second list is the first with each element one or more times in a row. -/
inductive Stutters : List α → List α → Prop where
  | nil : Stutters [] []
  | snoc {xs ys : List α} (x : α) (n : Nat) (h : Stutters xs ys) :
    Stutters (xs ++ [x]) (ys ++ List.replicate (n + 1) x)

/-- What is done is in the log, and after it the next pending element so many
times. -/
def Delivered (done pending log : List α) (copies : Nat) : Prop :=
  ∃ handed, Stutters done handed ∧
    (copies = 0 ∧ log = handed ∨
      ∃ x, pending.head? = some x ∧ log = handed ++ List.replicate copies x)

variable {done pending log : List α} {copies : Nat}

theorem delivered_nil : Delivered ([] : List α) [] [] 0 := ⟨[], .nil, Or.inl ⟨rfl, rfl⟩⟩

theorem Delivered.enqueue (h : Delivered done pending log copies) (x : α) :
    Delivered done (pending ++ [x]) log copies := by
  obtain ⟨handed, stutters, rest⟩ := h
  refine ⟨handed, stutters, rest.imp_right ?_⟩
  rintro ⟨y, first, hlog⟩
  exact ⟨y, by rw [List.head?_append, first, Option.some_or], hlog⟩

theorem Delivered.arrive (h : Delivered done pending log copies) {x : α}
    (first : pending.head? = some x) : Delivered done pending (log ++ [x]) (copies + 1) := by
  obtain ⟨handed, stutters, ⟨rfl, rfl⟩ | ⟨y, hy, rfl⟩⟩ := h
  · exact ⟨log, stutters, Or.inr ⟨x, first, rfl⟩⟩
  · obtain rfl := Option.some.inj (hy.symm.trans first)
    exact ⟨handed, stutters, Or.inr ⟨y, hy, by
      rw [List.replicate_succ', List.append_assoc]⟩⟩

/-- What has arrived at least once is done. -/
theorem Delivered.advance {x : α} {rest : List α} (h : Delivered done (x :: rest) log copies)
    (arrived : copies ≠ 0) : Delivered (done ++ [x]) rest log 0 := by
  obtain ⟨handed, stutters, ⟨none, -⟩ | ⟨y, hy, rfl⟩⟩ := h
  · exact absurd none arrived
  · obtain rfl := Option.some.inj hy
    obtain ⟨n, rfl⟩ := Nat.exists_eq_succ_of_ne_zero arrived
    exact ⟨_, stutters.snoc x n, Or.inl ⟨rfl, rfl⟩⟩

theorem Delivered.log_eq (h : Delivered done pending log copies) :
    ∃ handed rest, Stutters done handed ∧ log = handed ++ rest ∧
      ∀ x ∈ rest, pending.head? = some x := by
  obtain ⟨handed, stutters, ⟨-, rfl⟩ | ⟨y, hy, rfl⟩⟩ := h
  · exact ⟨log, [], stutters, by simp, nofun⟩
  · exact ⟨handed, _, stutters, rfl, fun x hx => List.eq_of_mem_replicate hx ▸ hy⟩

end AtLeastOnce
