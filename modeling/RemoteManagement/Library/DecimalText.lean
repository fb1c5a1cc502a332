import Mathlib.Data.List.TakeWhile
import Mathlib.Algebra.Order.Ring.Int

/-!
# Decimal text

The conversions of the C++ library from text to integers: `std::stol` and
`std::stoi`, which skip white space, take a sign and the digits that follow,
and throw when there is no digit or the number does not fit; and the extraction
operators of a stream, which stop where the number or character ends.
-/

namespace DecimalText

inductive StdException where
  | invalidArgument
  | outOfRange
  deriving DecidableEq, Repr

def isSpace (c : Char) : Bool :=
  c = ' ' || c = '\t' || c = '\n' || c = '\x0b' || c = '\x0c' || c = '\r'

def skipSpace (text : List Char) : List Char := text.dropWhile isSpace

/-- Whether a minus sign heads the text, and what follows the sign. -/
def takeSign : List Char → Bool × List Char
  | '-' :: cs => (true, cs)
  | '+' :: cs => (false, cs)
  | cs => (false, cs)

/-- The sign and the digits at the head of a text, and what is left of it. -/
def takeNumber (text : List Char) : (Bool × List Char) × List Char :=
  let (negative, rest) := takeSign text
  ((negative, rest.takeWhile Char.isDigit), rest.dropWhile Char.isDigit)

def value (number : Bool × List Char) : Int :=
  if number.1 then -(Nat.ofDigitChars 10 number.2 0 : Int) else Nat.ofDigitChars 10 number.2 0

def strtol (text : List Char) : Option Int :=
  let number := (takeNumber (skipSpace text)).1
  if number.2 = [] then none else some (value number)

/-- Conversion to an integer of the given width. -/
def convert (width : Nat) (text : List Char) : Except StdException Int :=
  match strtol text with
  | none => .error .invalidArgument
  | some n =>
    if -2 ^ (width - 1) ≤ n ∧ n < 2 ^ (width - 1) then .ok n else .error .outOfRange

def stol (text : List Char) : Except StdException Int := convert 64 text

def stoi (text : List Char) : Except StdException Int := convert 32 text

/-- A stream that has failed extracts nothing more. -/
structure Stream where
  rest : List Char
  failed : Bool := false
  deriving DecidableEq, Repr

/-- `stream >> n` for an int that holds `old`. -/
def Stream.extractInt (s : Stream) (old : Int) : Int × Stream :=
  if s.failed ∨ skipSpace s.rest = [] then (old, { s with failed := true })
  else
    let (number, rest) := takeNumber (skipSpace s.rest)
    if number.2 = [] then (0, ⟨rest, true⟩)
    else if value number < -2 ^ 31 then (-2 ^ 31, ⟨rest, true⟩)
    else if 2 ^ 31 ≤ value number then (2 ^ 31 - 1, ⟨rest, true⟩)
    else (value number, ⟨rest, false⟩)

/-- `stream >> ch`, whose character nobody reads. -/
def Stream.extractChar (s : Stream) : Stream :=
  match s.failed, skipSpace s.rest with
  | false, _ :: cs => ⟨cs, false⟩
  | _, _ => { s with failed := true }

theorem takeSign_digit {c : Char} (h : c.isDigit = true) (cs : List Char) :
    takeSign (c :: cs) = (false, c :: cs) := by
  have minus : c ≠ '-' := by rintro rfl; exact absurd h (by decide)
  have plus : c ≠ '+' := by rintro rfl; exact absurd h (by decide)
  simp [takeSign, minus, plus]

/-- A text that ends the number in front of it. -/
def EndsNumber (rest : List Char) : Prop := ∀ c ∈ rest.head?, c.isDigit = false

theorem endsNumber_nil : EndsNumber [] := by simp [EndsNumber]

theorem endsNumber_cons {c : Char} (h : c.isDigit = false) (cs : List Char) :
    EndsNumber (c :: cs) := by
  simpa [EndsNumber] using h

/-- A sign and digits are taken whole, and nothing of what follows. -/
theorem takeNumber_of_takeSign {text ds rest : List Char} {negative : Bool}
    (sign : takeSign text = (negative, ds ++ rest)) (digits : ∀ c ∈ ds, c.isDigit = true)
    (ends : EndsNumber rest) : takeNumber text = ((negative, ds), rest) := by
  have stop : rest.takeWhile Char.isDigit = [] ∧ rest.dropWhile Char.isDigit = rest := by
    cases rest with
    | nil => exact ⟨rfl, rfl⟩
    | cons c cs => simp [ends c rfl]
  simp only [takeNumber, sign, List.takeWhile_append_of_pos digits,
    List.dropWhile_append_of_pos digits, stop.1, stop.2, List.append_nil]

/-- A number is taken off a text that goes on with something else. -/
theorem takeNumber_append {w ds rest : List Char} {negative : Bool}
    (taken : takeNumber w = ((negative, ds), [])) (nonempty : ds ≠ []) (ends : EndsNumber rest) :
    takeNumber (w ++ rest) = ((negative, ds), rest) := by
  simp only [takeNumber, Prod.mk.injEq, List.dropWhile_eq_nil_iff] at taken
  obtain ⟨⟨sign, digits⟩, whole⟩ := taken
  have all : (takeSign w).2 = ds := by rw [← digits, List.takeWhile_eq_self_iff.mpr whole]
  have signed : takeSign (w ++ rest) = (negative, ds ++ rest) := by
    rw [← sign, ← all]
    rw [← all] at nonempty
    match w with
    | [] => exact absurd rfl nonempty
    | c :: cs =>
      by_cases minus : c = '-'
      · simp [takeSign, minus]
      · by_cases plus : c = '+'
        · simp [takeSign, plus]
        · simp [takeSign, minus, plus]
  exact takeNumber_of_takeSign signed (all ▸ whole) ends

theorem skipSpace_of_head {c : Char} (h : isSpace c = false) (cs : List Char) :
    skipSpace (c :: cs) = c :: cs := by
  simp [skipSpace, h]

theorem isSpace_of_isDigit {c : Char} (h : c.isDigit = true) : isSpace c = false := by
  simp only [isSpace, Bool.or_eq_false_iff, decide_eq_false_iff_not]
  refine ⟨⟨⟨⟨⟨?_, ?_⟩, ?_⟩, ?_⟩, ?_⟩, ?_⟩ <;> rintro rfl <;> revert h <;> decide

theorem isDigit_of_mem_repr {m : Nat} {c : Char} (h : c ∈ m.repr.toList) : c.isDigit = true := by
  rw [Nat.toList_repr] at h
  exact Nat.isDigit_of_mem_toDigits (by omega) (by omega) h

theorem toList_repr_ne_nil (m : Nat) : m.repr.toList ≠ [] := by
  rw [Nat.toList_repr]
  exact Nat.toDigits_ne_nil

theorem ofDigitChars_repr (m : Nat) : Nat.ofDigitChars 10 m.repr.toList 0 = m := by
  rw [Nat.toList_repr]
  exact Nat.ofDigitChars_ten_toDigits

/-- The digits follow the sign if the number is negative, and are all of it if
it is not. -/
theorem toList_repr_eq_if (n : Int) :
    n.repr.toList =
      if n < 0 then '-' :: n.natAbs.repr.toList else n.natAbs.repr.toList := by
  rw [Int.repr_eq_if]
  rcases Int.lt_or_le n 0 with negative | nonneg
  · have abs : (-n).toNat = n.natAbs := by omega
    rw [if_neg (by omega), if_pos negative, String.toList_append, abs]
    rfl
  · have abs : n.toNat = n.natAbs := by omega
    rw [if_pos nonneg, if_neg (by omega), abs]

theorem value_natAbs (n : Int) : value (decide (n < 0), n.natAbs.repr.toList) = n := by
  simp only [value, ofDigitChars_repr, decide_eq_true_eq]
  split <;> omega

/-- What `{:d}` prints starts with its sign or a digit, and the number is the
text up to where another text ends it. -/
theorem takeNumber_repr {rest : List Char} (ends : EndsNumber rest) (n : Int) :
    skipSpace (n.repr.toList ++ rest) = n.repr.toList ++ rest ∧
      takeNumber (n.repr.toList ++ rest) =
        ((decide (n < 0), n.natAbs.repr.toList), rest) := by
  have digits : ∀ c ∈ n.natAbs.repr.toList, c.isDigit = true := fun c hc => isDigit_of_mem_repr hc
  rw [toList_repr_eq_if]
  by_cases negative : n < 0
  · rw [if_pos negative, decide_eq_true negative]
    constructor
    · exact skipSpace_of_head (by decide) _
    · exact takeNumber_of_takeSign rfl digits ends
  · rw [if_neg negative, decide_eq_false negative]
    obtain ⟨c, cs, hc⟩ := List.exists_cons_of_ne_nil (toList_repr_ne_nil n.natAbs)
    have digit : c.isDigit = true := digits c (hc ▸ List.mem_cons_self)
    constructor
    · rw [hc]
      exact skipSpace_of_head (isSpace_of_isDigit digit) _
    · refine takeNumber_of_takeSign ?_ digits ends
      rw [hc]
      exact takeSign_digit digit _

/-- What `{:d}` prints is read back. -/
theorem strtol_repr (n : Int) : strtol n.repr.toList = some n := by
  obtain ⟨skip, number⟩ := takeNumber_repr endsNumber_nil n
  rw [List.append_nil] at skip number
  simp only [strtol, skip, number, if_neg (toList_repr_ne_nil n.natAbs), value_natAbs]

/-- Where the numbers end, equal texts have the same number in front. -/
theorem repr_append_inj {m n : Int} {rest rest' : List Char} (ends : EndsNumber rest)
    (ends' : EndsNumber rest') (same : m.repr.toList ++ rest = n.repr.toList ++ rest') :
    m = n ∧ rest = rest' := by
  have taken := (takeNumber_repr ends m).2
  rw [same, (takeNumber_repr ends' n).2, Prod.mk.injEq] at taken
  exact ⟨by rw [← value_natAbs m, ← taken.1, value_natAbs], taken.2.symm⟩

/-- A stream reads what `{:d}` prints of an int, and leaves what ends it. -/
theorem extractInt_repr {n : Int} (low : -2 ^ 31 ≤ n) (high : n < 2 ^ 31) {rest : List Char}
    (ends : EndsNumber rest) (old : Int) :
    Stream.extractInt ⟨n.repr.toList ++ rest, false⟩ old = (n, ⟨rest, false⟩) := by
  obtain ⟨skip, number⟩ := takeNumber_repr ends n
  have nonempty : n.repr.toList ++ rest ≠ [] := by
    rw [toList_repr_eq_if]
    split <;> simp
  simp only [Stream.extractInt, skip, number, nonempty, Bool.false_eq_true, or_self, if_false,
    toList_repr_ne_nil, value_natAbs, if_neg (show ¬ n < -2 ^ 31 by omega),
    if_neg (show ¬ 2 ^ 31 ≤ n by omega)]

theorem stoi_repr (n : Int) :
    stoi n.repr.toList = if -2 ^ 31 ≤ n ∧ n < 2 ^ 31 then .ok n else .error .outOfRange := by
  simp [stoi, convert, strtol_repr]

theorem stol_repr (n : Int) :
    stol n.repr.toList = if -2 ^ 63 ≤ n ∧ n < 2 ^ 63 then .ok n else .error .outOfRange := by
  simp [stol, convert, strtol_repr]

end DecimalText
