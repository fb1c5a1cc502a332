import Mathlib.Logic.Basic

/-!
# Programs that ask queries

A program either returns or asks one query and goes on with the answer. What a
run does is given by a handler that answers queries and changes a state. The
same program can be run against a handler, or be inspected for whether it asks
anything at all.
-/

namespace QueryProgram

universe u v w

inductive Program (Q : Type u) (R : Type v) (α : Type w) where
  | ret (a : α)
  | query (q : Q) (next : R → Program Q R α)

namespace Program

variable {Q : Type u} {R : Type v} {α β σ : Type w}

def bind : Program Q R α → (α → Program Q R β) → Program Q R β
  | .ret a, f => f a
  | .query q next, f => .query q (fun r => (next r).bind f)

instance : Monad (Program Q R) where
  pure := .ret
  bind := bind

def ask (q : Q) : Program Q R R := .query q .ret

/-- Whether the program asks a query before it returns. -/
def asks : Program Q R α → Bool
  | .ret _ => false
  | .query _ _ => true

@[simp] theorem pure_eq (a : α) : (pure a : Program Q R α) = .ret a := rfl

@[simp] theorem bind_eq (p : Program Q R α) (f : α → Program Q R β) : p >>= f = p.bind f := rfl

@[simp] theorem map_eq (f : α → β) (p : Program Q R α) : f <$> p = p.bind (.ret ∘ f) := rfl

@[simp] theorem ret_bind (a : α) (f : α → Program Q R β) :
    (Program.ret a : Program Q R α).bind f = f a := rfl

@[simp] theorem query_bind (q : Q) (next : R → Program Q R α) (f : α → Program Q R β) :
    (query q next).bind f = query q (fun r => (next r).bind f) := rfl

theorem bind_bind {γ : Type w} (p : Program Q R α) (f : α → Program Q R β)
    (g : β → Program Q R γ) : (p.bind f).bind g = p.bind (fun a => (f a).bind g) := by
  induction p with
  | ret a => rfl
  | query q next ih => exact congrArg (query q) (funext ih)

@[simp] theorem asks_ret (a : α) : (Program.ret a : Program Q R α).asks = false := rfl

@[simp] theorem asks_query (q : Q) (next : R → Program Q R α) : (query q next).asks = true := rfl

/-- What follows a program adds no query if it only returns. -/
theorem asks_bind_of_returns (p : Program Q R α) {f : α → Program Q R β}
    (returns : ∀ a, (f a).asks = false) : (p.bind f).asks = p.asks := by
  cases p with
  | ret a => exact returns a
  | query q next => rfl

/-- Whatever the answers, each query that the program asks has the property. -/
def Only (P : Q → Prop) : Program Q R α → Prop
  | .ret _ => True
  | .query q next => P q ∧ ∀ r, (next r).Only P

theorem only_bind {P : Q → Prop} {p : Program Q R α} {f : α → Program Q R β} (hp : p.Only P)
    (hf : ∀ a, (f a).Only P) : (p.bind f).Only P := by
  induction p with
  | ret a => exact hf a
  | query q next ih => exact ⟨hp.1, fun r => ih r (hp.2 r)⟩

theorem only_mono {P P' : Q → Prop} (h : ∀ q, P q → P' q) {p : Program Q R α} (hp : p.Only P) :
    p.Only P' := by
  induction p with
  | ret a => exact trivial
  | query q next ih => exact ⟨h q hp.1, fun r => ih r (hp.2 r)⟩

theorem only_ask {P : Q → Prop} {q : Q} (h : P q) : (ask q : Program Q R R).Only P :=
  ⟨h, fun _ => trivial⟩

/-- Whatever the answers, what the program returns has the property. -/
def Returns (P : α → Prop) : Program Q R α → Prop
  | .ret a => P a
  | .query _ next => ∀ r, (next r).Returns P

@[simp] theorem returns_ret {P : α → Prop} (a : α) :
    (Program.ret a : Program Q R α).Returns P ↔ P a := Iff.rfl

@[simp] theorem returns_query {P : α → Prop} (q : Q) (next : R → Program Q R α) :
    (query q next).Returns P ↔ ∀ r, (next r).Returns P := Iff.rfl

theorem returns_bind {P : α → Prop} {P' : β → Prop} {p : Program Q R α} {f : α → Program Q R β}
    (hp : p.Returns P) (hf : ∀ a, P a → (f a).Returns P') : (p.bind f).Returns P' := by
  induction p with
  | ret a => exact hf a hp
  | query q next ih => exact fun r => ih r (hp r)

/-- What follows has only to deal with what can be returned. -/
theorem only_bind_of_returns {P : Q → Prop} {P' : α → Prop} {p : Program Q R α}
    {f : α → Program Q R β} (hp : p.Only P) (returns : p.Returns P')
    (hf : ∀ a, P' a → (f a).Only P) : (p.bind f).Only P := by
  induction p with
  | ret a => exact hf a returns
  | query q next ih => exact ⟨hp.1, fun r => ih r (hp.2 r) (returns r)⟩

theorem returns_any (p : Program Q R α) : p.Returns (fun _ => True) := by
  induction p with
  | ret a => exact trivial
  | query q next ih => exact ih

end Program

section Run

variable {Q : Type u} {R α β σ : Type w}
variable (handle : Q → σ → R × σ)

def Program.run : Program Q R α → σ → α × σ
  | .ret a, s => (a, s)
  | .query q next, s => (next (handle q s).1).run (handle q s).2

@[simp] theorem run_ret (a : α) (s : σ) :
    (Program.ret a : Program Q R α).run handle s = (a, s) := rfl

@[simp] theorem run_query (q : Q) (next : R → Program Q R α) (s : σ) :
    (Program.query q next).run handle s = (next (handle q s).1).run handle (handle q s).2 := rfl

@[simp] theorem run_bind (p : Program Q R α) (f : α → Program Q R β) (s : σ) :
    (p.bind f).run handle s = (f (p.run handle s).1).run handle (p.run handle s).2 := by
  induction p generalizing s with
  | ret a => rfl
  | query q next ih => exact ih (handle q s).1 (handle q s).2

@[simp] theorem run_ask (q : Q) (s : σ) :
    (Program.ask q : Program Q R R).run handle s = handle q s := rfl

theorem run_returns {P : α → Prop} {p : Program Q R α} (returns : p.Returns P) (s : σ) :
    P (p.run handle s).1 := by
  induction p generalizing s with
  | ret a => exact returns
  | query q next ih => exact ih (handle q s).1 (returns _) (handle q s).2

/-- In the run from the state, every answer is a good one. -/
def Program.AllAnswers (good : R → Prop) : Program Q R α → σ → Prop
  | .ret _, _ => True
  | .query q next, s =>
    good (handle q s).1 ∧ (next (handle q s).1).AllAnswers good (handle q s).2

instance decidableAllAnswers (good : R → Prop) [DecidablePred good] :
    ∀ (p : Program Q R α) (s : σ), Decidable (p.AllAnswers handle good s)
  | .ret _, _ => isTrue trivial
  | .query q next, s =>
    have := decidableAllAnswers good (next (handle q s).1) (handle q s).2
    inferInstanceAs (Decidable (_ ∧ _))

@[simp] theorem allAnswers_ret (good : R → Prop) (a : α) (s : σ) :
    (Program.ret a : Program Q R α).AllAnswers handle good s ↔ True := Iff.rfl

@[simp] theorem allAnswers_ask (good : R → Prop) (q : Q) (s : σ) :
    (Program.ask q : Program Q R R).AllAnswers handle good s ↔ good (handle q s).1 :=
  and_iff_left trivial

@[simp] theorem allAnswers_bind (good : R → Prop) (p : Program Q R α) (f : α → Program Q R β)
    (s : σ) :
    (p.bind f).AllAnswers handle good s ↔ p.AllAnswers handle good s ∧
      (f (p.run handle s).1).AllAnswers handle good (p.run handle s).2 := by
  induction p generalizing s with
  | ret a => exact (and_iff_right trivial).symm
  | query q next ih =>
    rw [Program.query_bind, Program.AllAnswers, Program.AllAnswers, ih, run_query, and_assoc]

/-- The answers to a list of queries, asked one after the other. -/
def replies : List Q → σ → List R
  | [], _ => []
  | q :: qs, s => (handle q s).1 :: replies qs (handle q s).2

/-- While the state stays in order, queries of the right kind are answered well. -/
theorem allAnswers_of_only {P : Q → Prop} {good : R → Prop} (inv : σ → Prop)
    (keep : ∀ q s, inv s → inv (handle q s).2) (one : ∀ q s, P q → inv s → good (handle q s).1)
    {p : Program Q R α} (only : p.Only P) {s : σ} (h : inv s) : p.AllAnswers handle good s := by
  induction p generalizing s with
  | ret a => exact trivial
  | query q next ih => exact ⟨one q s only.1 h, ih _ (only.2 _) (keep q s h)⟩

/-- What each query does to the state, when it composes, the program does. -/
theorem run_only {P : Q → Prop} (rel : σ → σ → Prop) (refl : ∀ s, rel s s)
    (trans : ∀ s t u, rel s t → rel t u → rel s u) (one : ∀ q s, P q → rel s (handle q s).2)
    {p : Program Q R α} (only : p.Only P) (s : σ) : rel s (p.run handle s).2 := by
  induction p generalizing s with
  | ret a => exact refl s
  | query q next ih =>
    exact trans _ _ _ (one q s only.1) (ih (handle q s).1 (only.2 _) (handle q s).2)

end Run

end QueryProgram
