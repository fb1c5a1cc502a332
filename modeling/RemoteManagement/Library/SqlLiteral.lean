import Mathlib.Data.List.TakeWhile

/-!
# Reading string literals in SQL text

A literal opens at a single quote and closes at the first single quote that is
not doubled; two quotes inside it stand for one. Everything outside literals
is left as single characters, so the result of a reading fixes the code of a
text as well as the strings in it. Text handed over as a C string is cut at
its first NUL.

A text is rendered from pieces, and the question is when reading gives the
pieces back.
-/

namespace SqlLiteral

def quote : Char := '\''

def nul : Char := '\x00'

inductive Token where
  | code (c : Char)
  | literal (s : List Char)
  deriving DecidableEq, Repr

/-- Where the reader is: outside literals, inside one, or just after a quote
inside one, which either closes it or is the first half of a doubled quote. -/
inductive Mode where
  | outside
  | inside (acc : List Char)
  | quoted (acc : List Char)

def scan : Mode → List Char → Option (List Token)
  | .outside, [] => some []
  | .inside _, [] => none
  | .quoted acc, [] => some [.literal acc]
  | .outside, c :: cs =>
    if c = quote then scan (.inside []) cs else (scan .outside cs).map (.code c :: ·)
  | .inside acc, c :: cs =>
    if c = quote then scan (.quoted acc) cs else scan (.inside (acc ++ [c])) cs
  | .quoted acc, c :: cs =>
    if c = quote then scan (.inside (acc ++ [quote])) cs
    else (scan .outside cs).map (fun ts => .literal acc :: .code c :: ts)

def read (text : List Char) : Option (List Token) := scan .outside text

/-- Doubling every quote, which is how a string is written inside a literal. -/
def double (s : List Char) : List Char :=
  s.flatMap (fun c => if c = quote then [quote, quote] else [c])

@[simp] theorem double_nil : double [] = [] := rfl

theorem double_cons (c : Char) (s : List Char) :
    double (c :: s) = (if c = quote then [quote, quote] else [c]) ++ double s := by
  simp [double]

theorem double_of_quote_free {s : List Char} (h : quote ∉ s) : double s = s := by
  induction s with
  | nil => rfl
  | cons c s ih =>
    have hc : c ≠ quote := fun e => h (e ▸ List.mem_cons_self)
    rw [double_cons, if_neg hc, ih (fun hs => h (List.mem_cons_of_mem c hs))]
    rfl

/-- The text after a closing quote must not be read as a doubled quote. -/
def StartsOutside (rest : List Char) : Prop := rest.head? ≠ some quote

theorem scan_quoted {rest : List Char} (h : StartsOutside rest) (acc : List Char) :
    scan (.quoted acc) rest = (scan .outside rest).map (.literal acc :: ·) := by
  cases rest with
  | nil => rfl
  | cons c cs =>
    have hc : c ≠ quote := fun e => h (by simp [e])
    simp [scan, hc, Function.comp_def]

/-- A string with its quotes doubled is always read back. -/
theorem scan_double {rest : List Char} (h : StartsOutside rest) (s acc : List Char) :
    scan (.inside acc) (double s ++ quote :: rest) =
      (scan .outside rest).map (.literal (acc ++ s) :: ·) := by
  induction s generalizing acc with
  | nil => simpa [scan] using scan_quoted h acc
  | cons c s ih =>
    by_cases hc : c = quote
    · subst hc
      have hs := ih (acc ++ [quote])
      simpa [double_cons, scan] using hs
    · have hs := ih (acc ++ [c])
      simpa [double_cons, hc, scan] using hs

theorem scan_outside_code {s : List Char} (h : quote ∉ s) (rest : List Char) :
    scan .outside (s ++ rest) = (scan .outside rest).map (s.map Token.code ++ ·) := by
  induction s with
  | nil => simp
  | cons c s ih =>
    have hc : c ≠ quote := fun e => h (e ▸ List.mem_cons_self)
    have hs := ih (fun hs => h (List.mem_cons_of_mem c hs))
    simp only [List.cons_append, scan, if_neg hc, hs, Option.map_map, List.map_cons]
    rfl

/-- Only text of the doubled form is read as a literal. -/
theorem scan_inside_some {text acc l : List Char} {ts : List Token}
    (h : scan (.inside acc) text = some (.literal l :: ts)) :
    ∃ s rest, l = acc ++ s ∧ text = double s ++ quote :: rest := by
  -- Both modes are followed at once: after a quote the literal may go on.
  suffices both : ∀ (text acc : List Char),
      (scan (.inside acc) text = some (.literal l :: ts) →
        ∃ s rest, l = acc ++ s ∧ text = double s ++ quote :: rest) ∧
      (scan (.quoted acc) text = some (.literal l :: ts) →
        ∃ s rest, l = acc ++ s ∧ quote :: text = double s ++ quote :: rest) from
    (both text acc).1 h
  intro text
  induction text with
  | nil =>
    intro acc
    refine ⟨fun h => by simp [scan] at h, fun h => ?_⟩
    simp only [scan, Option.some.injEq, List.cons.injEq, Token.literal.injEq] at h
    exact ⟨[], [], by simp [h.1], rfl⟩
  | cons c cs ih =>
    intro acc
    constructor
    · intro h
      by_cases hc : c = quote
      · subst hc
        simp only [scan, if_true] at h
        exact (ih acc).2 h
      · simp only [scan, if_neg hc] at h
        obtain ⟨s, rest, hl, ht⟩ := (ih (acc ++ [c])).1 h
        exact ⟨c :: s, rest, by simp [hl], by simp [double_cons, hc, ht]⟩
    · intro h
      by_cases hc : c = quote
      · subst hc
        simp only [scan, if_true] at h
        obtain ⟨s, rest, hl, ht⟩ := (ih (acc ++ [quote])).1 h
        exact ⟨quote :: s, rest, by simp [hl], by simp [double_cons, ht]⟩
      · simp only [scan, if_neg hc, Option.map_eq_some_iff] at h
        obtain ⟨_, _, he⟩ := h
        simp only [List.cons.injEq, Token.literal.injEq] at he
        exact ⟨[], c :: cs, by simp [he.1], rfl⟩

/-- Reading past the closing quote needs a quote to stand behind it. -/
theorem quote_run {s rest rest' : List Char} (k : Nat) (hk : 0 < k)
    (h : s ++ quote :: rest = List.replicate k quote ++ (double s ++ quote :: rest')) :
    rest.head? = some quote := by
  induction s generalizing k with
  | nil =>
    obtain ⟨k, rfl⟩ := Nat.exists_eq_succ_of_ne_zero (Nat.ne_of_gt hk)
    cases k with
    | zero => simpa [List.replicate] using congrArg (·.tail.head?) h
    | succ k => simpa [List.replicate] using congrArg (·.tail.head?) h
  | cons c s ih =>
    obtain ⟨k, rfl⟩ := Nat.exists_eq_succ_of_ne_zero (Nat.ne_of_gt hk)
    simp only [List.replicate_succ, List.cons_append, List.cons.injEq] at h
    obtain ⟨rfl, h⟩ := h
    refine ih (k + 2) (by omega) ?_
    simpa [double_cons, List.replicate_succ', List.append_assoc] using h

theorem quote_free_of_double {s rest rest' : List Char} (hr : StartsOutside rest)
    (h : s ++ quote :: rest = double s ++ quote :: rest') : quote ∉ s := by
  induction s with
  | nil => simp
  | cons c s ih =>
    by_cases hc : c = quote
    · subst hc
      have next : s ++ quote :: rest =
          List.replicate 1 quote ++ (double s ++ quote :: rest') := by
        simpa [double_cons] using h
      exact False.elim (hr (quote_run 1 (by omega) next))
    · have hs : s ++ quote :: rest = double s ++ quote :: rest' := by
        simpa [double_cons, hc] using h
      simpa [Ne.symm hc] using ih hs

/-- A string between quotes is read as itself exactly if it holds no quote. -/
theorem scan_inside_iff {s rest : List Char} (hr : StartsOutside rest) (ts : List Token) :
    scan (.inside []) (s ++ quote :: rest) = some (.literal s :: ts) ↔
      quote ∉ s ∧ scan .outside rest = some ts := by
  constructor
  · intro h
    obtain ⟨l, rest', hl, ht⟩ := scan_inside_some h
    have hs : quote ∉ s := by
      rw [List.nil_append] at hl
      subst hl
      exact quote_free_of_double hr ht
    have hd := scan_double hr s []
    rw [double_of_quote_free hs] at hd
    rw [hd] at h
    simp only [List.nil_append, Option.map_eq_some_iff, List.cons.injEq, true_and,
      exists_eq_right] at h
    exact ⟨hs, h⟩
  · rintro ⟨hs, hts⟩
    have hd := scan_double hr s []
    rw [double_of_quote_free hs] at hd
    simpa [hts] using hd

/-- A reading invents no character: what a literal holds was in the text. -/
theorem mem_of_mem_literal {c : Char} {l : List Char} (hc : c ∈ l) (hq : c ≠ quote)
    {text : List Char} {ts : List Token} (h : read text = some ts)
    (hl : Token.literal l ∈ ts) : c ∈ text := by
  suffices all : ∀ (text : List Char) (ts : List Token), Token.literal l ∈ ts →
      (scan .outside text = some ts → c ∈ text) ∧
      (∀ acc, c ∉ acc → scan (.inside acc) text = some ts → c ∈ text) ∧
      (∀ acc, c ∉ acc → scan (.quoted acc) text = some ts → c ∈ text) from
    (all text ts hl).1 h
  intro text
  induction text with
  | nil =>
    intro ts hl
    refine ⟨fun h => ?_, fun acc _ h => ?_, fun acc hacc h => ?_⟩
    · simp only [scan, Option.some.injEq] at h
      simp [← h] at hl
    · simp [scan] at h
    · simp only [scan, Option.some.injEq] at h
      simp only [← h, List.mem_singleton, Token.literal.injEq] at hl
      exact False.elim (hacc (hl ▸ hc))
  | cons d text ih =>
    intro ts hl
    refine ⟨fun h => ?_, fun acc hacc h => ?_, fun acc hacc h => ?_⟩
    · by_cases hd : d = quote
      · simp only [scan, if_pos hd] at h
        exact List.mem_cons_of_mem d ((ih ts hl).2.1 [] (by simp) h)
      · simp only [scan, if_neg hd, Option.map_eq_some_iff] at h
        obtain ⟨us, hus, rfl⟩ := h
        exact List.mem_cons_of_mem d ((ih us (by simpa using hl)).1 hus)
    · by_cases hd : d = quote
      · simp only [scan, if_pos hd] at h
        exact List.mem_cons_of_mem d ((ih ts hl).2.2 acc hacc h)
      · simp only [scan, if_neg hd] at h
        by_cases hcd : c = d
        · exact hcd ▸ List.mem_cons_self
        · exact List.mem_cons_of_mem d ((ih ts hl).2.1 (acc ++ [d]) (by simp [hacc, hcd]) h)
    · by_cases hd : d = quote
      · simp only [scan, if_pos hd] at h
        exact List.mem_cons_of_mem d ((ih ts hl).2.1 (acc ++ [quote]) (by simp [hacc, hq]) h)
      · simp only [scan, if_neg hd, Option.map_eq_some_iff] at h
        obtain ⟨us, hus, rfl⟩ := h
        simp only [List.mem_cons, Token.literal.injEq, reduceCtorEq, false_or] at hl
        rcases hl with rfl | hl
        · exact False.elim (hacc hc)
        · exact List.mem_cons_of_mem d ((ih us hl).1 hus)

/-- A text is put together from code, written as it is, and from strings,
written between quotes without any doubling. -/
inductive Piece where
  | code (s : List Char)
  | literal (s : List Char)
  deriving DecidableEq, Repr

def Piece.render : Piece → List Char
  | .code s => s
  | .literal s => quote :: (s ++ [quote])

def Piece.tokens : Piece → List Token
  | .code s => s.map Token.code
  | .literal s => [Token.literal s]

def render (ps : List Piece) : List Char := ps.flatMap Piece.render

def tokens (ps : List Piece) : List Token := ps.flatMap Piece.tokens

/-- Code holds no quote and every literal is followed by code or by the end. -/
def Separated : List Piece → Prop
  | [] => True
  | .code s :: ps => quote ∉ s ∧ Separated ps
  | .literal _ :: ps => StartsOutside (render ps) ∧ Separated ps

theorem read_render_iff {ps : List Piece} (hps : Separated ps) :
    read (render ps) = some (tokens ps) ↔ ∀ s, Piece.literal s ∈ ps → quote ∉ s := by
  induction ps with
  | nil => simp [read, render, tokens, scan]
  | cons p ps ih =>
    cases p with
    | code s =>
      have hr : read (render (.code s :: ps)) =
          (read (render ps)).map (s.map Token.code ++ ·) := by
        simpa [read, render, Piece.render] using scan_outside_code hps.1 (render ps)
      have ht : tokens (.code s :: ps) = s.map Token.code ++ tokens ps := by
        simp [tokens, Piece.tokens]
      rw [hr, ht, Option.map_eq_some_iff]
      simpa using ih hps.2
    | literal s =>
      have hr : read (render (.literal s :: ps)) =
          scan (.inside []) (s ++ quote :: render ps) := by
        simp [read, render, Piece.render, scan]
      have ht : tokens (.literal s :: ps) = .literal s :: tokens ps := by
        simp [tokens, Piece.tokens]
      rw [hr, ht, scan_inside_iff hps.1]
      have hrest := ih hps.2
      rw [read] at hrest
      rw [hrest]
      simp

/-- The part of a text that a C string shows. -/
def cString (text : List Char) : List Char := text.takeWhile (· ≠ nul)

theorem cString_of_nul_free {text : List Char} (h : nul ∉ text) : cString text = text := by
  rw [cString, List.takeWhile_eq_self_iff]
  intro c hc
  simpa using fun e : c = nul => h (e ▸ hc)

theorem nul_notMem_cString (text : List Char) : nul ∉ cString text := by
  intro h
  simpa using List.mem_takeWhile_imp h

/-- A string that a literal can carry unescaped. -/
def Plain (s : List Char) : Prop := quote ∉ s ∧ nul ∉ s

instance (s : List Char) : Decidable (Plain s) :=
  inferInstanceAs (Decidable (quote ∉ s ∧ nul ∉ s))

/-- What is read from the C string of a rendered text is its pieces exactly if
every string put between quotes is plain. -/
theorem read_cString_render_iff {ps : List Piece} (hps : Separated ps)
    (hcode : ∀ s, Piece.code s ∈ ps → nul ∉ s) :
    read (cString (render ps)) = some (tokens ps) ↔
      ∀ s, Piece.literal s ∈ ps → Plain s := by
  have uncut (h : ∀ s, Piece.literal s ∈ ps → nul ∉ s) : cString (render ps) = render ps := by
    apply cString_of_nul_free
    intro hn
    obtain ⟨p, hp, hn⟩ := List.mem_flatMap.mp hn
    cases p with
    | code s => exact hcode s hp hn
    | literal s => exact h s hp (by simpa [Piece.render, nul, quote] using hn)
  constructor
  · intro h
    have noNul (s) (hs : Piece.literal s ∈ ps) : nul ∉ s := by
      intro hn
      have hmem : Token.literal s ∈ tokens ps :=
        List.mem_flatMap.mpr ⟨_, hs, List.mem_singleton.mpr rfl⟩
      exact nul_notMem_cString _ (mem_of_mem_literal hn (by decide) h hmem)
    rw [uncut noNul, read_render_iff hps] at h
    exact fun s hs => ⟨h s hs, noNul s hs⟩
  · intro h
    rw [uncut (fun s hs => (h s hs).2), read_render_iff hps]
    exact fun s hs => (h s hs).1

theorem scan_inside_of_quote_free {s : List Char} (h : quote ∉ s) (acc : List Char) :
    scan (.inside acc) s = none := by
  induction s generalizing acc with
  | nil => rfl
  | cons c s ih =>
    have hc : c ≠ quote := fun e => h (e ▸ List.mem_cons_self)
    rw [scan, if_neg hc]
    exact ih (fun hs => h (List.mem_cons_of_mem c hs)) _

theorem cString_append {s : List Char} (h : nul ∉ s) (rest : List Char) :
    cString (s ++ rest) = s ++ cString rest :=
  List.takeWhile_append_of_pos fun c hc => by simpa using fun e : c = nul => h (e ▸ hc)

/-- A NUL hides what follows it. -/
theorem cString_append_of_nul {s : List Char} (h : nul ∈ s) (rest : List Char) :
    cString (s ++ rest) = cString s := by
  induction s with
  | nil => cases h
  | cons c s ih =>
    by_cases hc : c = nul
    · simp [cString, hc]
    · have tail : nul ∈ s := by simpa [Ne.symm hc] using h
      have kept (cs : List Char) : cString (c :: cs) = c :: cString cs := by simp [cString, hc]
      rw [List.cons_append, kept, kept, ih tail]

theorem StartsOutside.cString {rest : List Char} (h : StartsOutside rest) :
    StartsOutside (cString rest) := by
  cases rest with
  | nil => exact h
  | cons c cs =>
    by_cases hc : c = nul
    · simp [StartsOutside, SqlLiteral.cString, hc]
    · simpa [StartsOutside, SqlLiteral.cString, hc] using h

/-- Without quotes in its strings, the C string of a rendered text reads as its
pieces, or ends inside a literal that a NUL has cut. -/
theorem read_cString_render_of_quote_free {ps : List Piece} (hps : Separated ps)
    (hcode : ∀ s, Piece.code s ∈ ps → nul ∉ s) (hlit : ∀ s, Piece.literal s ∈ ps → quote ∉ s) :
    read (cString (render ps)) = some (tokens ps) ∨ read (cString (render ps)) = none := by
  induction ps with
  | nil => exact Or.inl rfl
  | cons p ps ih =>
    have later := fun sep => ih sep (fun s hs => hcode s (List.mem_cons_of_mem p hs))
      (fun s hs => hlit s (List.mem_cons_of_mem p hs))
    cases p with
    | code s =>
      have text : cString (render (.code s :: ps)) = s ++ cString (render ps) :=
        cString_append (hcode s List.mem_cons_self) (render ps)
      rw [text, read, scan_outside_code hps.1]
      rcases later hps.2 with h | h
      · rw [read] at h
        exact Or.inl (by rw [h]; rfl)
      · rw [read] at h
        exact Or.inr (by rw [h]; rfl)
    | literal s =>
      have free := hlit s List.mem_cons_self
      have text : cString (render (.literal s :: ps)) =
          quote :: cString (s ++ quote :: render ps) := by
        simp [render, Piece.render, cString, nul, quote]
      by_cases hn : nul ∈ s
      · have cut : quote ∉ cString s := fun h => free (List.takeWhile_subset _ h)
        rw [text, cString_append_of_nul hn]
        exact Or.inr (scan_inside_of_quote_free cut [])
      · have closed : cString (quote :: render ps) = quote :: cString (render ps) := by
          simp [cString, nul, quote]
        have scanned := scan_double hps.1.cString s []
        rw [double_of_quote_free free] at scanned
        rw [text, cString_append hn, closed, read]
        change scan (.inside []) _ = _ ∨ scan (.inside []) _ = _
        rw [scanned]
        rcases later hps.2 with h | h
        · rw [read] at h
          exact Or.inl (by rw [h]; rfl)
        · rw [read] at h
          exact Or.inr (by rw [h]; rfl)

end SqlLiteral
