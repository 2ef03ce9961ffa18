import SmallScheme.Proofs.Literals.Scanned
import SmallScheme.Proofs.RoundTrip

namespace SmallScheme

/-! # Integer literals

A literal that is made of digits only, with or without a sign, is read as the integer that
it stands for, if its digits alone fit into an integer, and as a float if they do not. The
sign comes after that: so the least integer, whose digits do not fit, is read as a float. -/

/-! ## Literals at the start of a text -/

/-- No literal starts with a character that has a meaning of its own. -/
theorem Numeral.first_of_startsAt {text : List Char} (starts : startsAt text = true) :
    ∃ first rest, text = first :: rest ∧ Text.isBlank first = false ∧ first ≠ ';' ∧
      Cursor.StartsWord first rest := by
  rcases exists_sign_of_startsAt starts with ⟨marks, isSign, first, rest, rfl, digit⟩
  rcases Literal.mem_optional.mp isSign with rfl | rfl | rfl
  · have marks : ['(', ')', '\'', '"', '.', ';', '#'].all (!·.isDigit) = true := by decide
    have notMark : first ∉ ['(', ')', '\'', '"', '.', ';', '#'] := by
      intro member
      have notDigit := List.all_eq_true.mp marks first member
      rw [digit] at notDigit
      cases notDigit
    simp only [List.mem_cons, List.not_mem_nil, or_false, not_or] at notMark
    exact ⟨first, rest, rfl, Datum.isBlank_of_isDigit digit, by simp [notMark],
      by simp [notMark], fun hash => absurd hash (by simp [notMark])⟩
  · exact ⟨'+', first :: rest, rfl, by decide, by decide, by decide,
      fun hash => absurd hash (by decide)⟩
  · exact ⟨'-', first :: rest, rfl, by decide, by decide, by decide,
      fun hash => absurd hash (by decide)⟩

/-- A text that starts with a literal is read as that literal. -/
theorem Cursor.first_of_literal {text rest : List Char} {number : Number}
    (starts : Numeral.startsAt text = true) (read : Numeral.read text = (.ok number, rest))
    (source : String) :
    (Cursor.start source (String.ofList text)).first = .ok (.number number) := by
  rcases Numeral.first_of_startsAt starts with
    ⟨first, others, rfl, notBlank, notSemicolon, word⟩
  have opens : opening ⟨source, 1, first :: others⟩ first others =
      (.ok (.datum (.number number)), ⟨source, 1, rest⟩) := by
    rw [opening_of_startsWord word, if_pos starts]
    simp only [numberAt, read]
  have notSpecial : first ∉ [';', ')', '.'] := by
    have notMark := word.1
    simp_all
  have settles : (Cursor.start source (String.ofList (first :: others))).readWithin [] =
      (.ok (.number number), ⟨source, 1, rest⟩) := by
    rw [Cursor.start, String.toList_ofList, readWithin_enter notBlank notSpecial, Reading.enter,
      opens]
    rfl
  exact first_of_readWithin settles

/-! ## Digits -/

namespace Numeral

open Literal

/-- The integer that digits stand for with a sign before them. -/
def signedValue (marks digits : List Char) : Int :=
  if marks = ['-'] then -(Nat.ofDigitChars 10 digits 0) else Nat.ofDigitChars 10 digits 0

variable {marks digits : List Char}

theorem magnitude_of_digits (nonempty : digits ≠ [])
    (isDigits : ∀ character ∈ digits, character.isDigit = true) :
    magnitude digits = (.ok (wholeNumber (Nat.ofDigitChars 10 digits 0)), []) := by
  rcases @takeWhile_append digits [] Char.isDigit isDigits nofun with ⟨taken, left⟩
  rw [List.append_nil] at taken left
  have whole : unsigned digits = (some (wholeNumber (digitsValue digits)), []) := by
    rw [unsigned_of_not_point (by rw [left]; exact nofun), taken, left, if_neg nonempty]
  rw [magnitude, whole]
  rfl

/-- Digits are read as a whole number, and the sign applies to it. -/
theorem first_of_digits (isSign : marks ∈ optional sign) (nonempty : digits ≠ [])
    (isDigits : ∀ character ∈ digits, character.isDigit = true) (source : String) :
    (Cursor.start source (String.ofList (marks ++ digits))).first =
      .ok (.number (signed marks (wholeNumber (Nat.ofDigitChars 10 digits 0)))) := by
  have whole := magnitude_of_digits nonempty isDigits
  rcases List.exists_cons_of_ne_nil nonempty with ⟨first, rest, rfl⟩
  have digit := isDigits first List.mem_cons_self
  have read := read_sign isSign digit rest
  rw [whole] at read
  exact Cursor.first_of_literal (startsAt_of_sign isSign digit rest) read source

/-- The digits fit into an integer exactly if they do so with their sign, or the sign makes
them the least integer. -/
theorem digits_fit_iff (marks digits : List Char) :
    (Nat.ofDigitChars 10 digits 0 : Int) ≤ Int64.maxValue.toInt ↔
      Int64.minValue.toInt < signedValue marks digits ∧
        signedValue marks digits ≤ Int64.maxValue.toInt := by
  have least : Int64.minValue.toInt = -9223372036854775808 := by decide
  have greatest : Int64.maxValue.toInt = 9223372036854775807 := by decide
  unfold signedValue
  split <;> omega

theorem signed_of_fits (marks : List Char) {fitted : Int64}
    (fits : Number.fitInteger? (Nat.ofDigitChars 10 digits 0) = some fitted) :
    ∃ value : Int64, value.toInt = signedValue marks digits ∧
      signed marks (.integer fitted) = .integer value := by
  have same : fitted.toInt = Nat.ofDigitChars 10 digits 0 := Number.toInt_of_fitInteger? fits
  unfold signed signedValue
  split
  · have signed : fitted ≠ Int64.minValue := by
      rintro rfl
      have least : Int64.minValue.toInt = -9223372036854775808 := by decide
      omega
    have opposite := Number.toInt_of_fitInteger? (Number.fitInteger?_neg_toInt signed)
    exact ⟨-fitted, by rw [opposite, same], rfl⟩
  · exact ⟨fitted, same, rfl⟩

end Numeral

/-- Digits with or without a sign are read as the integer that they stand for if that is
greater than the least integer and not above the greatest, and as the float nearest to the
digits, with their sign, if not. So all integers but the least are read from their written
forms. -/
theorem read_integer_literal {marks digits : List Char} (source : String)
    (isSign : marks ∈ Literal.optional Literal.sign) (nonempty : digits ≠ [])
    (isDigits : ∀ character ∈ digits, character.isDigit = true) :
    let read := (Cursor.start source (String.ofList (marks ++ digits))).first
    let value := Numeral.signedValue marks digits
    (Int64.minValue.toInt < value ∧ value ≤ Int64.maxValue.toInt →
      ∃ integer : Int64, integer.toInt = value ∧ read = .ok (.number (.integer integer))) ∧
    (¬(Int64.minValue.toInt < value ∧ value ≤ Int64.maxValue.toInt) →
      let nearest := Number.nearest (Nat.ofDigitChars 10 digits 0) 1
      read = .ok (.number (.real (if marks = ['-'] then -nearest else nearest)))) ∧
    ∀ integer : Int64, integer ≠ Int64.minValue →
      (Cursor.start source (Datum.text (.number (.integer integer) : Source))).first =
        .ok (.number (.integer integer)) := by
  intro read value
  have whole : read = _ := Numeral.first_of_digits isSign nonempty isDigits source
  have natural : Int64.minValue.toInt ≤ (Nat.ofDigitChars 10 digits 0 : Int) := by
    have least : Int64.minValue.toInt = -9223372036854775808 := by decide
    omega
  refine ⟨fun inRange => ?_, fun outOfRange => ?_, fun integer signed => ?_⟩
  · have small := (Numeral.digits_fit_iff marks digits).mpr inRange
    have fits : Number.fitInteger? (Nat.ofDigitChars 10 digits 0) = some _ :=
      if_pos ⟨natural, small⟩
    rcases Numeral.signed_of_fits marks fits with ⟨integer, same, equal⟩
    refine ⟨integer, same, ?_⟩
    rw [whole, Numeral.wholeNumber, fits]
    exact congrArg (fun number => Except.ok (Datum.number number)) equal
  · have large := mt (Numeral.digits_fit_iff marks digits).mp outOfRange
    have unfit : Number.fitInteger? (Nat.ofDigitChars 10 digits 0) = none :=
      if_neg fun fits => large fits.2
    rw [whole, Numeral.wholeNumber, unfit]
    simp only [Numeral.signed]
    split <;> rfl
  · have readable : Datum.Readable (.number (.integer integer)) := signed
    have again := Datum.next_text readable rfl source
    simp only [Cursor.first, again]

/-- Leading zeros do not count, and the digits may be those of the greatest integer. -/
theorem read_integer_literal_zeros :
    let digits := "0009223372036854775807".toList
    ['-'] ∈ Literal.optional Literal.sign ∧
      ∃ integer : Int64, integer.toInt = -9223372036854775807 ∧
        (Cursor.start "a" (String.ofList (['-'] ++ digits))).first =
          .ok (.number (.integer integer)) := by
  have isSign : ['-'] ∈ Literal.optional Literal.sign := .inr (.inr rfl)
  have isDigits : "0009223372036854775807".toList.all Char.isDigit = true := by decide
  have read := read_integer_literal "a" isSign (by decide) (List.all_eq_true.mp isDigits)
  exact ⟨isSign, read.1 (by decide)⟩

/-- The written form of the least integer is read as a float. -/
theorem least_integer_reads_as_real :
    let text := Datum.text (.number (.integer Int64.minValue) : Source)
    text = "-9223372036854775808" ∧
      (Cursor.start "a" text).first =
        .ok (.number (.real (-Number.nearest 9223372036854775808 1))) ∧
      (Cursor.start "a" text).first ≠ .ok (.number (.integer Int64.minValue)) := by
  intro text
  have written : text = "-9223372036854775808" := by decide
  have isSign : ['-'] ∈ Literal.optional Literal.sign := .inr (.inr rfl)
  have isDigits : "9223372036854775808".toList.all Char.isDigit = true := by decide
  have read : (Cursor.start "a" text).first =
      .ok (.number (.real (-Number.nearest 9223372036854775808 1))) :=
    Numeral.first_of_digits isSign (by decide) (List.all_eq_true.mp isDigits) "a"
  refine ⟨written, read, ?_⟩
  rw [read]
  exact nofun

end SmallScheme
