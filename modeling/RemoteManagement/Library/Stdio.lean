import RemoteManagement.Library.DecimalText

/-!
# Formatted and unformatted input

A stream is the text that is left to read. `fscanf` takes the directives of its
format in order and stops at the first that fails: white space skips white
space, any other character must come next, `%s` reads a word and `%d` a number,
with any length modifier, and a star suppresses the assignment. A number that
does not fit in a long is cut to the nearest one. `fgetc` gives EOF at the end of
the file, every time it is called there.
-/

namespace Stdio

open DecimalText

section Formats

inductive Directive where
  | space
  | literal (c : Char)
  | word (assigned : Bool)
  | number (assigned : Bool)
  deriving DecidableEq, Repr

/-- The directives of a format; inside a conversion, whether it is assigned. -/
def directives : Option Bool → List Char → List Directive
  | _, [] => []
  | none, '%' :: cs => directives (some true) cs
  | none, c :: cs => (if isSpace c then .space else .literal c) :: directives none cs
  | some _, '*' :: cs => directives (some false) cs
  | some assigned, 's' :: cs => .word assigned :: directives none cs
  | some assigned, 'd' :: cs => .number assigned :: directives none cs
  -- a length modifier
  | some assigned, _ :: cs => directives (some assigned) cs

def format (text : String) : List Directive := directives none text.toList

example : format "a %*ld%s\n" =
    [.literal 'a', .space, .number false, .word true, .space] := by decide

end Formats

/-- What is assigned to an argument. -/
inductive Value where
  | text (word : List Char)
  | long (n : Int)
  deriving DecidableEq, Repr

inductive Ending where
  | complete
  | mismatch
  | endOfInput
  deriving DecidableEq, Repr

structure Scanned where
  values : List Value
  rest : List Char
  ending : Ending
  deriving DecidableEq, Repr

/-- EOF is returned if the input ends before anything is assigned. -/
def Scanned.isEof (s : Scanned) : Prop := s.ending = .endOfInput ∧ s.values = []

instance (s : Scanned) : Decidable s.isEof := inferInstanceAs (Decidable (_ ∧ _))

def Scanned.prepend (values : List Value) (s : Scanned) : Scanned :=
  { s with values := values ++ s.values }

/-- What a conversion assigns. -/
def assigns (assigned : Bool) (value : Value) : List Value := if assigned then [value] else []

/-- A variable that nothing is assigned to keeps what it holds. -/
def storeLong (old : Int) : Option Value → Int
  | some (.long n) => n
  | _ => old

/-- The long that is nearest to a number. -/
def clampLong (n : Int) : Int := max (-2 ^ 63) (min n (2 ^ 63 - 1))

def word (text : List Char) : List Char := text.takeWhile (fun c => !isSpace c)

def afterWord (text : List Char) : List Char := text.dropWhile (fun c => !isSpace c)

def scan : List Directive → List Char → Scanned
  | [], cs => ⟨[], cs, .complete⟩
  | .space :: ds, cs => scan ds (skipSpace cs)
  | .literal _ :: _, [] => ⟨[], [], .endOfInput⟩
  | .literal c :: ds, d :: cs => if d = c then scan ds cs else ⟨[], d :: cs, .mismatch⟩
  | .word assigned :: ds, cs =>
    if skipSpace cs = [] then ⟨[], [], .endOfInput⟩
    else (scan ds (afterWord (skipSpace cs))).prepend
      (assigns assigned (.text (word (skipSpace cs))))
  | .number assigned :: ds, cs =>
    if skipSpace cs = [] then ⟨[], [], .endOfInput⟩
    else
      let (number, rest) := takeNumber (skipSpace cs)
      if number.2 = [] then ⟨[], rest, .mismatch⟩
      else (scan ds rest).prepend (assigns assigned (.long (clampLong (value number))))

section Scanning

@[simp] theorem prepend_nil (s : Scanned) : s.prepend [] = s := rfl

theorem prepend_append (vs ws : List Value) (s : Scanned) :
    s.prepend (vs ++ ws) = (s.prepend ws).prepend vs := by
  simp [Scanned.prepend]

@[simp] theorem prepend_values (vs : List Value) (s : Scanned) :
    (s.prepend vs).values = vs ++ s.values := rfl

@[simp] theorem prepend_rest (vs : List Value) (s : Scanned) : (s.prepend vs).rest = s.rest := rfl

@[simp] theorem prepend_ending (vs : List Value) (s : Scanned) :
    (s.prepend vs).ending = s.ending := rfl

@[simp] theorem scan_nil (cs : List Char) : scan [] cs = ⟨[], cs, .complete⟩ := rfl

@[simp] theorem scan_space (ds : List Directive) (cs : List Char) :
    scan (.space :: ds) cs = scan ds (skipSpace cs) := rfl

@[simp] theorem scan_literal (c : Char) (ds : List Directive) (cs : List Char) :
    scan (.literal c :: ds) (c :: cs) = scan ds cs := by
  rw [scan, if_pos rfl]

theorem scan_literals (text : List Char) (ds : List Directive) (cs : List Char) :
    scan (text.map .literal ++ ds) (text ++ cs) = scan ds cs := by
  induction text with
  | nil => rfl
  | cons c text ih => exact (scan_literal c _ _).trans ih

@[simp] theorem skipSpace_nil : skipSpace [] = [] := rfl

theorem skipSpace_append {gap : List Char} (blank : ∀ c ∈ gap, isSpace c = true)
    (cs : List Char) : skipSpace (gap ++ cs) = skipSpace cs :=
  List.dropWhile_append_of_pos blank

theorem skipSpace_cons {c : Char} (blank : isSpace c = true) (cs : List Char) :
    skipSpace (c :: cs) = skipSpace cs := by
  simp [skipSpace, blank]

@[simp] theorem skipSpace_blank (cs : List Char) : skipSpace (' ' :: cs) = skipSpace cs :=
  skipSpace_cons (by decide) cs

@[simp] theorem skipSpace_tab (cs : List Char) : skipSpace ('\t' :: cs) = skipSpace cs :=
  skipSpace_cons (by decide) cs

@[simp] theorem skipSpace_newline (cs : List Char) : skipSpace ('\n' :: cs) = skipSpace cs :=
  skipSpace_cons (by decide) cs

/-- A nonempty text without white space. -/
structure IsWord (w : List Char) : Prop where
  nonempty : w ≠ []
  solid : ∀ c ∈ w, isSpace c = false

theorem IsWord.skipSpace {w : List Char} (h : IsWord w) (cs : List Char) :
    skipSpace (w ++ cs) = w ++ cs := by
  obtain ⟨c, w', rfl⟩ := List.exists_cons_of_ne_nil h.nonempty
  exact skipSpace_of_head (h.solid c List.mem_cons_self) _

/-- What is left behind white space starts with something else. -/
theorem isSpace_of_skipSpace {text cs : List Char} {c : Char} (h : skipSpace text = c :: cs) :
    isSpace c = false := by
  have head := List.head?_dropWhile_not isSpace text
  rw [show text.dropWhile isSpace = c :: cs from h] at head
  simpa using head

/-- A text that ends the word in front of it. -/
def EndsWord (rest : List Char) : Prop := ∀ c ∈ rest.head?, isSpace c = true

theorem endsWord_nil : EndsWord [] := by simp [EndsWord]

theorem endsWord_cons {c : Char} (blank : isSpace c = true) (cs : List Char) :
    EndsWord (c :: cs) := by
  simpa [EndsWord] using blank

theorem endsWord_afterWord (text : List Char) : EndsWord (afterWord text) := by
  intro c hc
  have head := List.head?_dropWhile_not (fun c => !isSpace c) text
  rw [show (text.dropWhile (fun c => !isSpace c)).head? = some c from hc] at head
  simpa using head

theorem word_append_afterWord (text : List Char) : word text ++ afterWord text = text :=
  List.takeWhile_append_dropWhile

theorem endsNumber_of_endsWord {rest : List Char} (h : EndsWord rest) : EndsNumber rest := by
  intro c hc
  by_contra digit
  have solid := isSpace_of_isDigit (Bool.not_eq_false _ ▸ digit)
  rw [h c hc] at solid
  cases solid

/-- A word is read up to the white space that ends it. -/
theorem word_append {w rest : List Char} (h : IsWord w) (ends : EndsWord rest) :
    word (w ++ rest) = w ∧ afterWord (w ++ rest) = rest := by
  have solid : ∀ c ∈ w, (!isSpace c) = true := fun c hc => by simp [h.solid c hc]
  have stop : word rest = [] ∧ afterWord rest = rest := by
    cases rest with
    | nil => exact ⟨rfl, rfl⟩
    | cons c cs => simp [word, afterWord, ends c rfl]
  constructor
  · rw [word, List.takeWhile_append_of_pos solid]
    exact (congrArg (w ++ ·) stop.1).trans (List.append_nil w)
  · rw [afterWord, List.dropWhile_append_of_pos solid]
    exact stop.2

theorem scan_word {w rest : List Char} (h : IsWord w) (ends : EndsWord rest) (assigned : Bool)
    (ds : List Directive) :
    scan (.word assigned :: ds) (w ++ rest) =
      (scan ds rest).prepend (assigns assigned (.text w)) := by
  have nonempty : w ++ rest ≠ [] := by simp [h.nonempty]
  rw [scan, h.skipSpace, if_neg nonempty, (word_append h ends).1, (word_append h ends).2]

theorem scan_number {rest : List Char} (ends : EndsNumber rest) (n : Int) (assigned : Bool)
    (ds : List Directive) :
    scan (.number assigned :: ds) (n.repr.toList ++ rest) =
      (scan ds rest).prepend (assigns assigned (.long (clampLong n))) := by
  obtain ⟨skip, number⟩ := takeNumber_repr ends n
  have nonempty : n.repr.toList ++ rest ≠ [] := by
    rw [toList_repr_eq_if]
    split <;> simp
  simp only [scan, skip, number, if_neg nonempty, if_neg (toList_repr_ne_nil n.natAbs),
    value_natAbs]

theorem scan_natNumber {rest : List Char} (ends : EndsNumber rest) (n : Nat) (assigned : Bool)
    (ds : List Directive) :
    scan (.number assigned :: ds) (n.repr.toList ++ rest) =
      (scan ds rest).prepend (assigns assigned (.long (clampLong n))) :=
  scan_number ends (n : Int) assigned ds

theorem isWord_repr (n : Nat) : IsWord n.repr.toList :=
  ⟨toList_repr_ne_nil n, fun _ hc => isSpace_of_isDigit (isDigit_of_mem_repr hc)⟩

/-- Numbers, each behind a blank, some of them assigned. -/
theorem scan_fields (fields : List (Bool × Nat)) {rest : List Char} (ends : EndsNumber rest)
    (ds : List Directive) :
    scan (fields.flatMap (fun f => [.space, .number f.1]) ++ ds)
        (fields.flatMap (fun f => ' ' :: f.2.repr.toList) ++ rest) =
      (scan ds rest).prepend (fields.flatMap (fun f => assigns f.1 (.long (clampLong f.2)))) := by
  induction fields with
  | nil => rfl
  | cons f fields ih =>
    have tail : EndsNumber (fields.flatMap (fun f => ' ' :: f.2.repr.toList) ++ rest) := by
      cases fields with
      | nil => exact ends
      | cons g fields => exact endsNumber_cons (by decide) _
    simp only [List.flatMap_cons, List.cons_append, List.nil_append, List.append_assoc, scan_space,
      skipSpace_blank, (isWord_repr f.2).skipSpace, scan_natNumber tail, ih, prepend_append]

theorem clampLong_nonneg (n : Nat) : 0 ≤ clampLong n := by
  rw [clampLong]
  omega

theorem clampLong_le_clampLong {m n : Nat} (h : m ≤ n) : clampLong m ≤ clampLong n := by
  rw [clampLong, clampLong]
  omega

theorem clampLong_of_inLong {n : Int} (low : -2 ^ 63 ≤ n) (high : n < 2 ^ 63) :
    clampLong n = n := by
  rw [clampLong]
  omega

theorem takeSign_suffix (text : List Char) : (takeSign text).2 <:+ text := by
  rw [takeSign.eq_def]
  split
  · exact List.suffix_cons _ _
  · exact List.suffix_cons _ _
  · exact List.suffix_refl _

/-- What is left is an end of the text. -/
theorem rest_suffix (ds : List Directive) (cs : List Char) : (scan ds cs).rest <:+ cs := by
  induction ds generalizing cs with
  | nil => exact List.suffix_refl cs
  | cons d ds ih =>
    have spaces : skipSpace cs <:+ cs := List.dropWhile_suffix _
    cases d with
    | space => exact (ih _).trans spaces
    | literal c =>
      cases cs with
      | nil => exact List.suffix_refl []
      | cons d cs =>
        rw [scan]
        split
        · exact (ih cs).trans (List.suffix_cons d cs)
        · exact List.suffix_refl _
    | word assigned =>
      rw [scan]
      split
      · exact List.nil_suffix
      · exact (ih _).trans ((List.dropWhile_suffix _).trans spaces)
    | number assigned =>
      have taken : (takeNumber (skipSpace cs)).2 <:+ cs :=
        (List.dropWhile_suffix _).trans ((takeSign_suffix _).trans spaces)
      rw [scan]
      split
      · exact List.nil_suffix
      · dsimp only
        split
        · exact taken
        · exact (ih _).trans taken

end Scanning

section Characters

/-- The next character, none for EOF, and what is left then. -/
def fgetc : List Char → Option Char × List Char
  | [] => (none, [])
  | c :: cs => (some c, cs)

/-- The conversion of EOF, which is -1, to a char. -/
def toChar : Option Char → Char
  | none => '\xff'
  | some c => c

/-- `while ((char)fgetc(fp) != '\n');` -/
def skipLine : Nat → List Char → Option (List Char)
  | 0, _ => none
  | fuel + 1, s =>
    let (c, s) := fgetc s
    if toChar c = '\n' then some s else skipLine fuel s

def skipLines (fuel : Nat) : Nat → List Char → Option (List Char)
  | 0, s => some s
  | n + 1, s => (skipLine fuel s).bind (skipLines fuel n)

/-- `while ((ch = fgetc(fp)) != '\n') line += ch;` -/
def readLine : Nat → List Char → List Char → Option (List Char × List Char)
  | 0, _, _ => none
  | fuel + 1, line, s =>
    let (c, s) := fgetc s
    if toChar c = '\n' then some (line, s) else readLine fuel (line ++ [toChar c]) s

def line (s : List Char) : List Char := s.takeWhile (· ≠ '\n')

/-- What comes after the first line. -/
def dropLine (s : List Char) : List Char := (s.dropWhile (· ≠ '\n')).tail

def dropLines : Nat → List Char → List Char
  | 0, s => s
  | n + 1, s => dropLines n (dropLine s)

/-- The loop ends at a newline, and at the end of the file it does not end. -/
theorem skipLine_eq (fuel : Nat) (s : List Char) :
    skipLine fuel s = if '\n' ∈ s.take fuel then some (dropLine s) else none := by
  induction fuel generalizing s with
  | zero => simp [skipLine]
  | succ fuel ih =>
    cases s with
    | nil =>
      have stuck := ih []
      simp only [List.take_nil, List.not_mem_nil, if_false] at stuck ⊢
      exact stuck
    | cons c s =>
      by_cases ends : c = '\n'
      · simp [skipLine, fgetc, toChar, dropLine, ends]
      · have other : '\n' ≠ c := Ne.symm ends
        simp [skipLine, fgetc, toChar, dropLine, ends, other, ih]

theorem readLine_eq (fuel : Nat) (read s : List Char) :
    readLine fuel read s =
      if '\n' ∈ s.take fuel then some (read ++ line s, dropLine s) else none := by
  induction fuel generalizing read s with
  | zero => simp [readLine]
  | succ fuel ih =>
    cases s with
    | nil =>
      have stuck := ih (read ++ ['\xff']) []
      simp only [List.take_nil, List.not_mem_nil, if_false] at stuck ⊢
      exact stuck
    | cons c s =>
      by_cases ends : c = '\n'
      · simp [readLine, fgetc, toChar, line, dropLine, ends]
      · have other : '\n' ≠ c := Ne.symm ends
        simp [readLine, fgetc, toChar, line, dropLine, ends, other, ih]

theorem ne_newline {l : List Char} (one : '\n' ∉ l) : ∀ c ∈ l, decide (c ≠ '\n') = true :=
  fun _ hc => decide_eq_true fun same => one (same ▸ hc)

theorem line_of_notMem {l : List Char} (one : '\n' ∉ l) : line l = l :=
  List.takeWhile_eq_self_iff.mpr (ne_newline one)

theorem dropLine_append {l : List Char} (one : '\n' ∉ l) (rest : List Char) :
    dropLine (l ++ '\n' :: rest) = rest := by
  rw [dropLine, List.dropWhile_append_of_pos (ne_newline one)]
  simp

theorem line_append {l : List Char} (one : '\n' ∉ l) (rest : List Char) :
    line (l ++ '\n' :: rest) = l := by
  rw [line, List.takeWhile_append_of_pos (ne_newline one)]
  simp

/-- A text that starts with lines. -/
def withLines (ls : List (List Char)) (rest : List Char) : List Char :=
  ls.foldr (fun l text => l ++ '\n' :: text) rest

theorem length_withLines_le (ls : List (List Char)) (rest : List Char) :
    rest.length ≤ (withLines ls rest).length := by
  induction ls with
  | nil => exact le_rfl
  | cons l ls ih =>
    simp only [withLines, List.foldr_cons, List.length_append, List.length_cons] at ih ⊢
    omega

theorem skipLines_withLines {fuel : Nat} {ls : List (List Char)} (one : ∀ l ∈ ls, '\n' ∉ l)
    {rest : List Char} (turns : (withLines ls rest).length ≤ fuel) :
    skipLines fuel ls.length (withLines ls rest) = some rest := by
  induction ls with
  | nil => rfl
  | cons l ls ih =>
    have cut : withLines (l :: ls) rest = l ++ '\n' :: withLines ls rest := rfl
    have newline : '\n' ∈ withLines (l :: ls) rest := by simp [cut]
    rw [List.length_cons, skipLines, skipLine_eq, List.take_of_length_le turns, if_pos newline, cut,
      dropLine_append (one l List.mem_cons_self), Option.bind_some]
    refine ih (fun l hl => one l (List.mem_cons_of_mem _ hl)) ?_
    rw [cut, List.length_append, List.length_cons] at turns
    omega

theorem count_dropLine {s : List Char} (more : '\n' ∈ s) :
    s.count '\n' = (dropLine s).count '\n' + 1 := by
  induction s with
  | nil => cases more
  | cons c s ih =>
    by_cases ends : c = '\n'
    · simp [dropLine, ends]
    · have rest : '\n' ∈ s := by simpa [Ne.symm ends] using more
      simpa [dropLine, ends] using ih rest

theorem length_dropLine_le (s : List Char) : (dropLine s).length ≤ s.length :=
  (List.tail_suffix _).length_le.trans (List.dropWhile_suffix _).length_le

theorem skipLines_eq_some {fuel n : Nat} {s t : List Char} (h : skipLines fuel n s = some t) :
    n ≤ s.count '\n' ∧ t = dropLines n s := by
  induction n generalizing s with
  | zero => exact ⟨Nat.zero_le _, (Option.some.inj h).symm⟩
  | succ n ih =>
    obtain ⟨u, first, rest⟩ := Option.bind_eq_some_iff.mp h
    rw [skipLine_eq, Option.ite_none_right_eq_some] at first
    obtain ⟨newline, rfl⟩ : '\n' ∈ s.take fuel ∧ dropLine s = u :=
      ⟨first.1, Option.some.inj first.2⟩
    obtain ⟨enough, rfl⟩ := ih rest
    have one := count_dropLine (List.mem_of_mem_take newline)
    exact ⟨by omega, rfl⟩

/-- With as many turns as there are characters, lines are skipped if there are
as many newlines. -/
theorem skipLines_of_le {fuel n : Nat} {s : List Char} (turns : s.length ≤ fuel)
    (enough : n ≤ s.count '\n') : skipLines fuel n s = some (dropLines n s) := by
  induction n generalizing s with
  | zero => rfl
  | succ n ih =>
    have newline : '\n' ∈ s := List.count_pos_iff.mp (by omega)
    have one := count_dropLine newline
    have shorter := length_dropLine_le s
    rw [skipLines, skipLine_eq, List.take_of_length_le turns, if_pos newline, Option.bind_some,
      ih (by omega) (by omega)]
    rfl

theorem skipLines_isSome_iff {n : Nat} {s : List Char} :
    (∃ fuel, (skipLines fuel n s).isSome) ↔ n ≤ s.count '\n' := by
  constructor
  · rintro ⟨fuel, ends⟩
    obtain ⟨t, arrives⟩ := Option.isSome_iff_exists.mp ends
    exact (skipLines_eq_some arrives).1
  · intro enough
    exact ⟨s.length, by rw [skipLines_of_le le_rfl enough]; rfl⟩

end Characters

end Stdio
