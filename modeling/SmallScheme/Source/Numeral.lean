import SmallScheme.Number.Basic
import SmallScheme.Number.Nearest
import SmallScheme.Source.Fault

namespace SmallScheme.Numeral

/-! Numeric literals: `12`, `1.5`, `1/2`, `1+2i`, `3-i`, each with an optional
sign in front, which applies to the whole literal. Each function takes the text
from its part of the literal on and returns the text behind that part. -/

/-- The number that decimal digits stand for. -/
def digitsValue (digits : List Char) : Nat :=
  digits.foldl (fun value digit => 10 * value + (digit.toNat - '0'.toNat)) 0

/-- A whole number that is too large for an integer is read as a float. -/
def wholeNumber (value : Nat) : Number :=
  match Number.fitInteger? value with
  | some fitted => .integer fitted
  | none => .real (Number.nearest value 1)

/-- Digits with at most one point among them and at least one digit. A point
makes the number a float; a lone point is passed over but is no number. -/
def unsigned (text : List Char) : Option Number × List Char :=
  let whole := text.takeWhile Char.isDigit
  match text.dropWhile Char.isDigit with
  | '.' :: behind =>
      let fraction := behind.takeWhile Char.isDigit
      let behind := behind.dropWhile Char.isDigit
      if whole = [] ∧ fraction = [] then (none, behind)
      else
        let value := Number.nearest (digitsValue (whole ++ fraction)) (Nat.pow 10 fraction.length)
        (some (.real value), behind)
  | behind =>
      if whole = [] then (none, behind)
      else (some (wholeNumber (digitsValue whole)), behind)

/-- A denominator turns the number into the float quotient. -/
def overDenominator (numerator : Number) : List Char → Except ReadFault Number × List Char
  | '/' :: text =>
      match unsigned text with
      | (some denominator, behind) =>
          (.ok (.real (numerator.toFloat / denominator.toFloat)), behind)
      | (none, behind) => (.error .missingDenominator, behind)
  | text => (.ok numerator, text)

/-- An imaginary part of the given sign, 1 if no magnitude is written. -/
def withImaginaryPart (realPart : Number) (negative : Bool) (text : List Char) :
    Except ReadFault Number × List Char :=
  let (magnitude, behind) := unsigned text
  let magnitude := (magnitude.map Number.toFloat).getD 1.0
  match behind with
  | 'i' :: behind =>
      (.ok (.complex realPart.toFloat (if negative then -magnitude else magnitude)), behind)
  | behind => (.error .missingImaginaryUnit, behind)

/-- A sign behind the number starts an imaginary part. -/
def beforeImaginary (realPart : Number) : List Char → Except ReadFault Number × List Char
  | '+' :: text => withImaginaryPart realPart false text
  | '-' :: text => withImaginaryPart realPart true text
  | text => (.ok realPart, text)

/-- A literal without its sign. -/
def magnitude (text : List Char) : Except ReadFault Number × List Char :=
  match unsigned text with
  | (none, behind) => (.error (.unexpectedCharacter (behind.headD ' ')), behind)
  | (some number, behind) =>
      match overDenominator number behind with
      | (.error fault, behind) => (.error fault, behind)
      | (.ok number, behind) => beforeImaginary number behind

/-- A literal. -/
def read : List Char → Except ReadFault Number × List Char
  | '-' :: text =>
      match magnitude text with
      | (.ok number, behind) => (.ok number.negate, behind)
      | (.error fault, behind) => (.error fault, behind)
  | '+' :: text => magnitude text
  | text => magnitude text

/-- A literal starts with a digit, or with a sign before a digit. -/
def startsAt : List Char → Bool
  | first :: second :: _ =>
      first.isDigit || ((first = '+' || first = '-') && second.isDigit)
  | [only] => only.isDigit
  | [] => false

/-! ## Reading moves on -/

theorem length_dropWhile_le (test : Char → Bool) (text : List Char) :
    (text.dropWhile test).length ≤ text.length :=
  (List.dropWhile_sublist test).length_le

theorem length_dropWhile_lt {test : Char → Bool} {text : List Char}
    (some : text.takeWhile test ≠ []) :
    (text.dropWhile test).length < text.length := by
  have whole := congrArg List.length (List.takeWhile_append_dropWhile (p := test) (l := text))
  have positive := List.length_pos_iff.mpr some
  simp only [List.length_append] at whole
  omega

theorem unsigned_length_le (text : List Char) :
    (unsigned text).2.length ≤ text.length := by
  have first := length_dropWhile_le Char.isDigit text
  unfold unsigned
  split
  · rename_i behind found
    have second := length_dropWhile_le Char.isDigit behind
    rw [found, List.length_cons] at first
    dsimp only
    split <;> dsimp only <;> omega
  · dsimp only
    split <;> exact first

theorem unsigned_length_lt {text behind : List Char} {number : Number}
    (found : unsigned text = (some number, behind)) :
    behind.length < text.length := by
  have first := length_dropWhile_le Char.isDigit text
  unfold unsigned at found
  split at found
  · rename_i point after
    have second := length_dropWhile_le Char.isDigit point
    rw [after, List.length_cons] at first
    dsimp only at found
    split at found
    · simp at found
    · simp only [Prod.mk.injEq] at found
      rw [← found.2]
      omega
  · dsimp only at found
    split at found
    · simp at found
    · rename_i digits
      simp only [Prod.mk.injEq] at found
      rw [← found.2]
      exact length_dropWhile_lt digits

theorem overDenominator_length_le (numerator : Number) (text : List Char) :
    (overDenominator numerator text).2.length ≤ text.length := by
  unfold overDenominator
  split
  · rename_i text
    have bound := unsigned_length_le text
    split <;> simp_all <;> omega
  · exact Nat.le_refl _

theorem withImaginaryPart_length_le (realPart : Number) (negative : Bool) (text : List Char) :
    (withImaginaryPart realPart negative text).2.length ≤ text.length := by
  have bound := unsigned_length_le text
  unfold withImaginaryPart
  dsimp only
  split
  · rename_i found
    rw [found, List.length_cons] at bound
    dsimp only
    omega
  · exact bound

theorem beforeImaginary_length_le (realPart : Number) (text : List Char) :
    (beforeImaginary realPart text).2.length ≤ text.length := by
  unfold beforeImaginary
  split
  · exact Nat.le_succ_of_le (withImaginaryPart_length_le _ _ _)
  · exact Nat.le_succ_of_le (withImaginaryPart_length_le _ _ _)
  · exact Nat.le_refl _

theorem magnitude_length_lt {text behind : List Char} {number : Number}
    (found : magnitude text = (.ok number, behind)) :
    behind.length < text.length := by
  unfold magnitude at found
  split at found
  · simp at found
  · rename_i first rest read
    have shorter := unsigned_length_lt read
    split at found
    · simp at found
    · rename_i second rest' read'
      have divided := overDenominator_length_le first rest
      have before := beforeImaginary_length_le second rest'
      rw [read'] at divided
      rw [found] at before
      dsimp only at divided before
      omega

/-- A literal that was read has at least one character. -/
theorem read_length_lt {text behind : List Char} {number : Number}
    (found : read text = (.ok number, behind)) :
    behind.length < text.length := by
  unfold read at found
  split at found
  · split at found
    · rename_i read
      simp only [Prod.mk.injEq] at found
      rw [← found.2]
      exact Nat.lt_succ_of_lt (magnitude_length_lt read)
    · simp at found
  · exact Nat.lt_succ_of_lt (magnitude_length_lt found)
  · exact magnitude_length_lt found

end SmallScheme.Numeral
