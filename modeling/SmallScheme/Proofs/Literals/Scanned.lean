import Mathlib.Data.List.TakeWhile
import SmallScheme.Proofs.Literals
import SmallScheme.Proofs.Numerals

namespace SmallScheme

/-! # Reading numeric literals

What is read of a text that starts like a literal: the longest start of it that has the form
of a literal, unless a denominator or an imaginary unit is missing.

A point without digits is passed over wherever a number is looked for, also where the number
may be left out. So such a point is taken for the magnitude of an imaginary part. -/

namespace Numeral

open Literal

variable {text word rest behind : List Char} {number : Number}

theorem takeWhile_append {test : Char → Bool} (inside : ∀ character ∈ word, test character = true)
    (outside : ∀ character ∈ rest.head?, test character = false) :
    (word ++ rest).takeWhile test = word ∧ (word ++ rest).dropWhile test = rest := by
  rw [List.takeWhile_append_of_pos inside, List.dropWhile_append_of_pos inside]
  cases rest with
  | nil => simp
  | cons character rest => simp [outside character rfl]

theorem head?_dropWhile {test : Char → Bool} (text : List Char) :
    ∀ character ∈ (text.dropWhile test).head?, test character = false := by
  intro character found
  have outside := List.head?_dropWhile_not test text
  rwa [found] at outside

/-- A number ends where neither a digit follows nor a first point. -/
theorem unsigned_longest (member : word ∈ Literal.unsigned)
    (notDigit : ∀ character ∈ rest.head?, character.isDigit = false)
    (notPoint : '.' ∉ word → rest.head? ≠ some '.') :
    Splits Literal.unsigned (word ++ rest) word rest where
  whole := rfl
  member := member
  longest := by
    rintro other ⟨inside, once, _⟩ starts
    by_contra longer
    rcases List.prefix_of_prefix_length_le (List.prefix_append word rest) starts (by omega) with
      ⟨more, rfl⟩
    rw [List.prefix_append_right_inj] at starts
    cases more with
    | nil => simp at longer
    | cons next more =>
        have head : rest.head? = some next := by
          rcases starts with ⟨after, rfl⟩
          rfl
        have point : next = '.' := by
          apply (inside next (by simp)).resolve_left
          rw [notDigit next head]
          exact Bool.false_ne_true
        rw [point] at head once
        by_cases first : '.' ∈ word
        · have counted := List.count_pos_iff.mpr first
          rw [List.count_append, List.count_cons_self] at once
          omega
        · exact notPoint first head

/-- The longest start of a text that is a number is read as one. -/
theorem unsigned_splits (read : unsigned text = (some number, behind)) :
    ∃ word, Splits Literal.unsigned text word behind := by
  have whole : ∀ character ∈ text.takeWhile Char.isDigit, character.isDigit = true :=
    fun _ => List.mem_takeWhile_imp
  have parts := @List.takeWhile_append_dropWhile _ Char.isDigit text
  by_cases point : (text.dropWhile Char.isDigit).head? = some '.'
  · rcases List.head?_eq_some_iff.mp point with ⟨after, pointed⟩
    have fraction : ∀ character ∈ after.takeWhile Char.isDigit, character.isDigit = true :=
      fun _ => List.mem_takeWhile_imp
    rw [unsigned_of_point pointed] at read
    split at read
    · cases read
    · rename_i some
      cases read
      have longest := unsigned_longest (mem_unsigned_of_point whole fraction some)
        (head?_dropWhile after) (fun absent => absurd (by simp) absent)
      rw [List.append_assoc, List.cons_append, List.takeWhile_append_dropWhile, ← pointed,
        parts] at longest
      exact ⟨_, longest⟩
  · rw [unsigned_of_not_point point] at read
    split at read
    · cases read
    · rename_i some
      cases read
      have longest := unsigned_longest (mem_unsigned_of_digits some whole)
        (head?_dropWhile text) (fun _ => point)
      rw [parts] at longest
      exact ⟨_, longest⟩

theorem takeWhile_ne_nil {first : Char} (digit : first.isDigit = true) (rest : List Char) :
    (first :: rest).takeWhile Char.isDigit ≠ [] := by
  rw [List.takeWhile_cons_of_pos digit]
  exact List.cons_ne_nil _ _

theorem isSome_unsigned_of_digits (digits : text.takeWhile Char.isDigit ≠ []) :
    (unsigned text).1.isSome = true := by
  by_cases point : (text.dropWhile Char.isDigit).head? = some '.'
  · rcases List.head?_eq_some_iff.mp point with ⟨after, pointed⟩
    rw [unsigned_of_point pointed, if_neg fun none => digits none.1]
    rfl
  · rw [unsigned_of_not_point point, if_neg digits]
    rfl

theorem isSome_unsigned_of_begins (begins : Begins Literal.unsigned text) :
    (unsigned text).1.isSome = true := by
  rcases begins with ⟨word, member, after, rfl⟩
  rcases unsigned_cases member with ⟨some, digits⟩ | ⟨whole, fraction, rfl, early, late, some⟩
  · rcases List.exists_cons_of_ne_nil some with ⟨first, others, rfl⟩
    exact isSome_unsigned_of_digits (takeWhile_ne_nil (digits first List.mem_cons_self) _)
  · rcases whole with _ | ⟨first, others⟩
    · rcases List.exists_cons_of_ne_nil (fun none => some ⟨rfl, none⟩) with ⟨first, others, rfl⟩
      have digit := takeWhile_ne_nil (late first List.mem_cons_self) (others ++ after)
      have pointed : ('.' :: first :: (others ++ after)).dropWhile Char.isDigit =
          '.' :: first :: (others ++ after) := rfl
      change (unsigned ('.' :: first :: (others ++ after))).1.isSome = true
      rw [unsigned_of_point pointed, if_neg fun none => digit none.2]
      rfl
    · exact isSome_unsigned_of_digits (takeWhile_ne_nil (early first List.mem_cons_self) _)

/-- Where no number is read the text does not start with one, and at most a point is passed
over. -/
theorem not_begins_of_unsigned (read : unsigned text = (none, behind)) :
    ¬Begins Literal.unsigned text ∧ (text = behind ∨ text = '.' :: behind) := by
  refine ⟨fun begins => ?_, ?_⟩
  · have isSome := isSome_unsigned_of_begins begins
    rw [read] at isSome
    cases isSome
  have parts := @List.takeWhile_append_dropWhile _ Char.isDigit text
  by_cases point : (text.dropWhile Char.isDigit).head? = some '.'
  · rcases List.head?_eq_some_iff.mp point with ⟨after, pointed⟩
    have later := @List.takeWhile_append_dropWhile _ Char.isDigit after
    rw [unsigned_of_point pointed] at read
    split at read
    · rename_i none
      cases read
      rw [none.1, List.nil_append, pointed] at parts
      rw [none.2, List.nil_append] at later
      rw [later]
      exact .inr parts.symm
    · cases read
  · rw [unsigned_of_not_point point] at read
    split at read
    · rename_i none
      cases read
      rw [none, List.nil_append] at parts
      exact .inl parts.symm
    · cases read

/-- A number is read whole, if what follows cannot be taken for a part of it. -/
theorem unsigned_append (member : word ∈ Literal.unsigned)
    (ends : ∀ character ∈ rest.head?, ¬Continues character) :
    ∃ number, unsigned (word ++ rest) = (some number, rest) := by
  have notDigit : ∀ character ∈ rest.head?, character.isDigit = false := by
    intro character found
    exact Bool.eq_false_iff.mpr fun digit => ends character found (.inl digit)
  have notPoint : rest.head? ≠ some '.' := fun found => ends '.' found (.inr rfl)
  rcases unsigned_cases member with ⟨some, digits⟩ | ⟨whole, fraction, rfl, early, late, some⟩
  · rcases takeWhile_append digits notDigit with ⟨taken, left⟩
    rw [unsigned_of_not_point (by rwa [left]), taken, left, if_neg some]
    exact ⟨_, rfl⟩
  · have pointNext : ∀ character ∈ ('.' :: (fraction ++ rest)).head?,
        character.isDigit = false := by
      rintro character ⟨⟩
      rfl
    rcases takeWhile_append early pointNext with ⟨taken, left⟩
    rcases takeWhile_append late notDigit with ⟨takenAfter, leftAfter⟩
    rw [List.append_assoc, List.cons_append, unsigned_of_point left, taken, takenAfter, leftAfter,
      if_neg some]
    exact ⟨_, rfl⟩

/-! ### Denominators -/

theorem overDenominator_of_not_slash (numerator : Number) (other : text.head? ≠ some '/') :
    overDenominator numerator text = (.ok numerator, text) := by
  unfold overDenominator
  split
  · exact absurd rfl other
  · rfl

theorem not_begins_denominator (other : text.head? ≠ some '/') : ¬Begins denominator text := by
  rintro ⟨word, member, after, rfl⟩
  rcases mem_denominator.mp member with ⟨digits, _, rfl⟩
  exact other rfl

theorem overDenominator_splits {numerator : Number}
    (read : overDenominator numerator text = (.ok number, behind)) :
    ∃ word, Splits (optional denominator) text word behind := by
  by_cases slash : text.head? = some '/'
  · rcases List.head?_eq_some_iff.mp slash with ⟨rest, rfl⟩
    cases found : unsigned rest with
    | mk value after =>
        cases value with
        | none =>
            simp only [overDenominator, found] at read
            cases read
        | some value =>
            simp only [overDenominator, found] at read
            cases read
            rcases unsigned_splits found with ⟨word, splits⟩
            refine ⟨'/' :: word, ?_⟩
            refine .optional ⟨?_, mem_denominator.mpr ⟨word, splits.member, rfl⟩, ?_⟩
            · rw [List.cons_append, splits.whole]
            · intro other member starts
              rcases mem_denominator.mp member with ⟨digits, isNumber, rfl⟩
              rw [List.cons_prefix_cons] at starts
              exact Nat.succ_le_succ (splits.longest digits isNumber starts.2)
  · rw [overDenominator_of_not_slash numerator slash] at read
    cases read
    exact ⟨[], .nil (not_begins_denominator slash)⟩

theorem overDenominator_error {numerator : Number} {fault : ReadFault}
    (failed : (overDenominator numerator text).1 = .error fault) :
    fault = .missingDenominator ∧ ∃ rest, text = '/' :: rest ∧ ¬Begins Literal.unsigned rest := by
  by_cases slash : text.head? = some '/'
  · rcases List.head?_eq_some_iff.mp slash with ⟨rest, rfl⟩
    cases found : unsigned rest with
    | mk value after =>
        cases value with
        | none =>
            simp only [overDenominator, found] at failed
            cases failed
            exact ⟨rfl, rest, rfl, (not_begins_of_unsigned found).1⟩
        | some value =>
            simp only [overDenominator, found] at failed
            cases failed
  · rw [overDenominator_of_not_slash numerator slash] at failed
    cases failed

theorem overDenominator_missing (numerator : Number) (missing : ¬Begins Literal.unsigned rest) :
    (overDenominator numerator ('/' :: rest)).1 = .error .missingDenominator := by
  cases found : unsigned rest with
  | mk value after =>
      cases value with
      | none => simp only [overDenominator, found]
      | some value =>
          rcases unsigned_splits found with ⟨word, splits⟩
          exact absurd ⟨word, splits.member, after, splits.whole⟩ missing

theorem overDenominator_append (numerator : Number) (member : word ∈ optional denominator)
    (notSlash : rest.head? ≠ some '/') (ends : ∀ character ∈ rest.head?, ¬Continues character) :
    ∃ number, overDenominator numerator (word ++ rest) = (.ok number, rest) := by
  rcases mem_optional.mp member with rfl | member
  · exact ⟨numerator, overDenominator_of_not_slash numerator notSlash⟩
  · rcases mem_denominator.mp member with ⟨digits, isNumber, rfl⟩
    rcases unsigned_append isNumber ends with ⟨value, found⟩
    rw [List.cons_append]
    simp only [overDenominator, found]
    exact ⟨_, rfl⟩

/-! ### Imaginary parts -/

/-- What is taken for a magnitude: a point without digits as well. -/
def magnitudes : Language Char := Literal.unsigned + point

theorem withImaginaryPart_append (realPart : Number) (negative : Bool)
    (member : word ∈ unit magnitudes) (rest : List Char) :
    ∃ number, withImaginaryPart realPart negative (word ++ rest) = (.ok number, rest) := by
  rcases mem_unit.mp member with ⟨digits, isMagnitude, rfl⟩
  rw [List.append_assoc, List.singleton_append]
  have found : ∃ value, unsigned (digits ++ 'i' :: rest) = (value, 'i' :: rest) := by
    rcases mem_optional.mp isMagnitude with rfl | isNumber | rfl
    · exact ⟨none, rfl⟩
    · have ends : ∀ character ∈ ('i' :: rest).head?, ¬Continues character := by
        rintro character ⟨⟩
        decide
      rcases unsigned_append isNumber ends with ⟨value, found⟩
      exact ⟨some value, found⟩
    · exact ⟨none, rfl⟩
  rcases found with ⟨value, found⟩
  simp only [withImaginaryPart, found]
  exact ⟨_, rfl⟩

theorem withImaginaryPart_sound {realPart : Number} {negative : Bool}
    (read : withImaginaryPart realPart negative text = (.ok number, behind)) :
    ∃ word ∈ unit magnitudes, word ++ behind = text := by
  cases found : unsigned text with
  | mk value after =>
      have isMagnitude : ∃ digits ∈ optional magnitudes, digits ++ after = text := by
        cases value with
        | none =>
            rcases (not_begins_of_unsigned found).2 with same | same
            · exact ⟨[], .inl rfl, same.symm⟩
            · exact ⟨['.'], .inr (.inr rfl), same.symm⟩
        | some value =>
            rcases unsigned_splits found with ⟨word, splits⟩
            exact ⟨word, .inr (.inl splits.member), splits.whole⟩
      rcases isMagnitude with ⟨digits, member, same⟩
      simp only [withImaginaryPart, found] at read
      split at read
      · rename_i rest
        cases read
        refine ⟨digits ++ ['i'], mem_unit.mpr ⟨digits, member, rfl⟩, ?_⟩
        rw [List.append_assoc]
        exact same
      · cases read

theorem withImaginaryPart_error {realPart : Number} {negative : Bool} {fault : ReadFault}
    (failed : (withImaginaryPart realPart negative text).1 = .error fault) :
    fault = .missingImaginaryUnit ∧ ¬Begins (unit magnitudes) text := by
  constructor
  · simp only [withImaginaryPart] at failed
    split at failed <;> cases failed
    rfl
  · rintro ⟨word, member, after, rfl⟩
    rcases withImaginaryPart_append realPart negative member after with ⟨number, read⟩
    rw [read] at failed
    cases failed

theorem withImaginaryPart_missing (realPart : Number) (negative : Bool)
    (missing : ¬Begins (unit magnitudes) text) :
    (withImaginaryPart realPart negative text).1 = .error .missingImaginaryUnit := by
  cases read : withImaginaryPart realPart negative text with
  | mk result behind =>
      cases result with
      | error fault =>
          rw [(withImaginaryPart_error (congrArg Prod.fst read)).1]
      | ok number =>
          rcases withImaginaryPart_sound read with ⟨word, member, same⟩
          exact absurd ⟨word, member, behind, same⟩ missing

theorem beforeImaginary_of_sign (realPart : Number) {mark : Char} (isSign : [mark] ∈ sign)
    (text : List Char) :
    beforeImaginary realPart (mark :: text) =
      withImaginaryPart realPart (mark = '-') text := by
  rcases mem_sign.mp isSign with same | same <;> cases same <;> rfl

theorem beforeImaginary_of_not_sign (realPart : Number) (unsigned : ¬Begins sign text) :
    beforeImaginary realPart text = (.ok realPart, text) := by
  unfold beforeImaginary
  split
  · exact absurd ⟨['+'], .inl rfl, _, rfl⟩ unsigned
  · exact absurd ⟨['-'], .inr rfl, _, rfl⟩ unsigned
  · rfl

theorem beforeImaginary_splits {realPart : Number}
    (read : beforeImaginary realPart text = (.ok number, behind)) :
    ∃ word, Splits (optional (sign * unit magnitudes)) text word behind := by
  by_cases signed : Begins sign text
  · rcases exists_cons_of_begins_sign signed with ⟨mark, rest, rfl, isSign⟩
    rw [beforeImaginary_of_sign realPart isSign] at read
    rcases withImaginaryPart_sound read with ⟨word, isUnit, rfl⟩
    refine ⟨mark :: word, .optional ⟨rfl, mem_imaginary.mpr ⟨mark, word, rfl, isSign, isUnit⟩, ?_⟩⟩
    intro other member starts
    rcases mem_imaginary.mp member with ⟨_, others, rfl, _, isOther⟩
    -- Both words end at the same place, where reading goes on.
    rcases (List.cons_prefix_cons.mp starts).2 with ⟨after, same⟩
    rcases withImaginaryPart_append realPart (mark = '-') isOther after with ⟨_, again⟩
    rw [same, read] at again
    cases again
    exact Nat.succ_le_succ (Nat.le_of_eq (congrArg List.length (List.append_cancel_right same)))
  · rw [beforeImaginary_of_not_sign realPart signed] at read
    cases read
    refine ⟨[], .nil ?_⟩
    rintro ⟨word, member, after, rfl⟩
    rcases mem_imaginary.mp member with ⟨mark, others, rfl, isSign, _⟩
    exact signed ⟨[mark], isSign, others ++ after, rfl⟩

theorem beforeImaginary_error {realPart : Number} {fault : ReadFault}
    (failed : (beforeImaginary realPart text).1 = .error fault) :
    fault = .missingImaginaryUnit ∧
      ∃ mark rest, text = mark :: rest ∧ [mark] ∈ sign ∧ ¬Begins (unit magnitudes) rest := by
  by_cases signed : Begins sign text
  · rcases exists_cons_of_begins_sign signed with ⟨mark, rest, rfl, isSign⟩
    rw [beforeImaginary_of_sign realPart isSign] at failed
    rcases withImaginaryPart_error failed with ⟨same, missing⟩
    exact ⟨same, mark, rest, rfl, isSign, missing⟩
  · rw [beforeImaginary_of_not_sign realPart signed] at failed
    cases failed

/-! ### Whole literals -/

/-- A literal without its sign is the longest start of the text that has its form. -/
theorem magnitude_splits (read : magnitude text = (.ok number, behind)) :
    ∃ word, Splits (Literal.unsigned * (optional denominator * optional (sign * unit magnitudes)))
      text word behind := by
  unfold magnitude at read
  split at read
  · cases read
  · rename_i first rest found
    split at read
    · cases read
    · rename_i second after divided
      rcases unsigned_splits found with ⟨word, isNumber⟩
      rcases overDenominator_splits divided with ⟨ratio, isRatio⟩
      rcases beforeImaginary_splits read with ⟨imaginary, isImaginary⟩
      have tail := isRatio.mul (fun character => Continues character ∨ character = '/') isImaginary
        (fun _ => continues_of_mem_denominator)
        (fun _ _ member => not_or.mpr (not_continues_of_imaginary member))
      have whole := isNumber.mul Continues tail (fun _ => continues_of_mem_unsigned)
        (fun _ _ => not_continues_of_tail)
      exact ⟨_, whole⟩

theorem begins_of_digit {first : Char} (digit : first.isDigit = true) (rest : List Char) :
    Begins Literal.unsigned (first :: rest) :=
  ⟨[first], mem_unsigned_of_digits (List.cons_ne_nil _ _) (List.forall_mem_singleton.mpr digit),
    rest, rfl⟩

/-- What can be wrong with a text that starts with a number. -/
theorem magnitude_error {fault : ReadFault} (begins : Begins Literal.unsigned text)
    (failed : (magnitude text).1 = .error fault) :
    (fault = .missingDenominator ∧ ∃ word ∈ Literal.unsigned, ∃ rest,
        text = word ++ '/' :: rest ∧ ¬Begins Literal.unsigned rest) ∨
      fault = .missingImaginaryUnit ∧ ∃ word ∈ Literal.unsigned * optional denominator,
        ∃ mark rest, text = word ++ mark :: rest ∧ [mark] ∈ sign ∧
          ¬Begins (unit magnitudes) rest := by
  unfold magnitude at failed
  split at failed
  · rename_i none
    exact absurd begins (not_begins_of_unsigned none).1
  · rename_i first rest found
    rcases unsigned_splits found with ⟨word, isNumber⟩
    split at failed
    · rename_i divided
      cases failed
      rcases overDenominator_error (congrArg Prod.fst divided) with ⟨same, after, rfl, missing⟩
      exact .inl ⟨same, word, isNumber.member, after, isNumber.whole.symm, missing⟩
    · rename_i second after divided
      rcases overDenominator_splits divided with ⟨ratio, isRatio⟩
      rcases beforeImaginary_error failed with ⟨same, mark, left, rfl, isSign, missing⟩
      refine .inr ⟨same, word ++ ratio, ?_, mark, left, ?_, isSign, missing⟩
      · exact Language.append_mem_mul isNumber.member isRatio.member
      · rw [List.append_assoc, isRatio.whole, isNumber.whole]

theorem magnitude_missingDenominator (member : word ∈ Literal.unsigned)
    (missing : ¬Begins Literal.unsigned rest) :
    (magnitude (word ++ '/' :: rest)).1 = .error .missingDenominator := by
  have ends : ∀ character ∈ ('/' :: rest).head?, ¬Continues character := by
    rintro character ⟨⟩
    decide
  rcases unsigned_append member ends with ⟨number, found⟩
  have failed := overDenominator_missing number missing
  simp only [magnitude, found]
  split
  · rename_i divided
    rwa [divided] at failed
  · rename_i divided
    rw [divided] at failed
    cases failed

theorem magnitude_missingImaginaryUnit (member : word ∈ Literal.unsigned * optional denominator)
    {mark : Char} (isSign : [mark] ∈ sign) (missing : ¬Begins (unit magnitudes) rest) :
    (magnitude (word ++ mark :: rest)).1 = .error .missingImaginaryUnit := by
  rcases not_continues_of_sign isSign with ⟨notContinues, notSlash⟩
  have ends : ∀ character ∈ (mark :: rest).head?, ¬Continues character := by
    rintro character ⟨⟩
    exact notContinues
  have other : (mark :: rest).head? ≠ some '/' := mt Option.some.inj notSlash
  rcases Language.mem_mul.mp member with ⟨digits, isNumber, ratio, isRatio, rfl⟩
  have numberEnds : ∀ character ∈ (ratio ++ mark :: rest).head?, ¬Continues character := by
    rcases mem_optional.mp isRatio with rfl | isDenominator
    · exact ends
    · rcases mem_denominator.mp isDenominator with ⟨_, _, rfl⟩
      rintro character ⟨⟩
      decide
  rcases unsigned_append isNumber numberEnds with ⟨first, found⟩
  rcases overDenominator_append first isRatio other ends with ⟨second, divided⟩
  rw [List.append_assoc]
  simp only [magnitude, found, divided, beforeImaginary_of_sign second isSign]
  exact withImaginaryPart_missing second _ missing

/-! ### Signs -/

/-- A number with a sign before it. -/
def signed (marks : List Char) (number : Number) : Number :=
  if marks = ['-'] then number.negate else number

/-- There is one way only to take the sign off a literal. -/
theorem sign_unique {marks other left right : List Char} {first second : Char}
    (isSign : marks ∈ optional sign) (continues : Continues first)
    (otherSign : other ∈ optional sign) (otherContinues : Continues second)
    (same : marks ++ first :: left = other ++ second :: right) :
    first :: left = second :: right := by
  rcases mem_optional.mp isSign with rfl | rfl | rfl <;>
    rcases mem_optional.mp otherSign with rfl | rfl | rfl <;>
    cases same
  · rfl
  · exact absurd continues (by decide)
  · exact absurd continues (by decide)
  · exact absurd otherContinues (by decide)
  · rfl
  · exact absurd otherContinues (by decide)
  · rfl

theorem exists_sign_of_startsAt (starts : startsAt text = true) :
    ∃ marks ∈ optional sign, ∃ first rest, text = marks ++ first :: rest ∧
      first.isDigit = true := by
  unfold startsAt at starts
  split at starts
  · rename_i first second rest
    simp only [Bool.or_eq_true, Bool.and_eq_true, decide_eq_true_eq] at starts
    rcases starts with digit | ⟨plus | minus, digit⟩
    · exact ⟨[], .inl rfl, first, second :: rest, rfl, digit⟩
    · exact ⟨['+'], .inr (.inl rfl), second, rest, by rw [plus]; rfl, digit⟩
    · exact ⟨['-'], .inr (.inr rfl), second, rest, by rw [minus]; rfl, digit⟩
  · rename_i only
    exact ⟨[], .inl rfl, only, [], rfl, starts⟩
  · cases starts

section

variable {marks : List Char} (isSign : marks ∈ optional sign) {first : Char}
  (digit : first.isDigit = true)

include isSign digit

theorem startsAt_of_sign (rest : List Char) : startsAt (marks ++ first :: rest) = true := by
  rcases mem_optional.mp isSign with rfl | rfl | rfl
  · cases rest <;> simp [startsAt, digit]
  · simp [startsAt, digit]
  · simp [startsAt, digit]

/-- The sign applies to the number that is read behind it. -/
theorem read_sign (rest : List Char) :
    read (marks ++ first :: rest) =
      ((magnitude (first :: rest)).1.map (signed marks), (magnitude (first :: rest)).2) := by
  rcases mem_optional.mp isSign with rfl | rfl | rfl
  · have notMinus : first ≠ '-' := by rintro rfl; exact absurd digit (by decide)
    have notPlus : first ≠ '+' := by rintro rfl; exact absurd digit (by decide)
    rw [List.nil_append, read_of_not_sign (by simpa using notMinus) (by simpa using notPlus)]
    rcases magnitude (first :: rest) with ⟨_ | _, _⟩ <;> rfl
  · change magnitude (first :: rest) = _
    rcases magnitude (first :: rest) with ⟨_ | _, _⟩ <;> rfl
  · change read ('-' :: first :: rest) = _
    rw [read]
    rcases magnitude (first :: rest) with ⟨_ | _, _⟩ <;> rfl

theorem read_error_iff (rest : List Char) (fault : ReadFault) :
    (read (marks ++ first :: rest)).1 = .error fault ↔
      (magnitude (first :: rest)).1 = .error fault := by
  rw [read_sign isSign digit]
  cases (magnitude (first :: rest)).1 <;> simp [Except.map]

theorem exists_magnitude_of_read
    (found : read (marks ++ first :: rest) = (.ok number, behind)) :
    ∃ value, magnitude (first :: rest) = (.ok value, behind) := by
  rw [read_sign isSign digit] at found
  cases read : magnitude (first :: rest) with
  | mk result after =>
      rw [read] at found
      cases result with
      | error fault => cases found
      | ok value =>
          cases found
          exact ⟨value, rfl⟩

theorem sign_splits (rest : List Char) :
    Splits (optional sign) (marks ++ first :: rest) marks (first :: rest) where
  whole := rfl
  member := isSign
  longest other member starts := by
    rcases mem_optional.mp isSign with rfl | rfl | rfl
    · rcases mem_optional.mp member with rfl | rfl | rfl
      · exact Nat.le_refl _
      · cases (List.cons_prefix_cons.mp starts).1
        exact absurd digit (by decide)
      · cases (List.cons_prefix_cons.mp starts).1
        exact absurd digit (by decide)
    all_goals rcases mem_optional.mp member with rfl | rfl | rfl <;> decide

theorem read_splits (found : read (marks ++ first :: rest) = (.ok number, behind)) :
    ∃ word, Splits (complete magnitudes) (marks ++ first :: rest) word behind := by
  rcases exists_magnitude_of_read isSign digit found with ⟨value, read⟩
  rcases magnitude_splits read with ⟨word, splits⟩
  have signs (marks : List Char) (isSign : marks ∈ optional sign) :
      ∀ mark ∈ marks, [mark] ∈ sign := by
    rcases mem_optional.mp isSign with rfl | rfl | rfl
    · exact nofun
    · exact List.forall_mem_singleton.mpr (.inl rfl)
    · exact List.forall_mem_singleton.mpr (.inr rfl)
  have signed := (sign_splits isSign digit rest).mul (fun mark => [mark] ∈ sign) splits signs ?_
  · rw [complete, real, leading, mul_assoc, mul_assoc]
    exact ⟨_, signed⟩
  · intro character others member isMark
    rcases exists_cons_of_mem_mul member with ⟨_, _, same, continues⟩
    cases same
    exact (not_continues_of_sign isMark).1 continues

/-- Behind the sign of a text the words of a language come as they come behind any sign. -/
theorem exists_of_signed {language : Language Char}
    (continued : ∀ word ∈ language, ∃ first others, word = first :: others ∧ Continues first)
    (member : word ∈ optional sign * language)
    (same : marks ++ first :: rest = word ++ behind) :
    ∃ inner ∈ language, first :: rest = inner ++ behind := by
  rcases Language.mem_mul.mp member with ⟨other, otherSign, inner, isInner, rfl⟩
  rcases continued inner isInner with ⟨second, others, rfl, otherContinues⟩
  rw [List.append_assoc] at same
  exact ⟨_, isInner, sign_unique isSign (.inl digit) otherSign otherContinues same⟩

theorem read_missingDenominator_iff (rest : List Char) :
    (read (marks ++ first :: rest)).1 = .error .missingDenominator ↔
      ∃ word ∈ leading, ∃ after, marks ++ first :: rest = word ++ '/' :: after ∧
        ¬Begins Literal.unsigned after := by
  rw [read_error_iff isSign digit]
  constructor
  · intro failed
    rcases magnitude_error (begins_of_digit digit rest) failed with
      ⟨_, word, member, after, whole, missing⟩ | ⟨other, _⟩
    · refine ⟨marks ++ word, Language.append_mem_mul isSign member, after, ?_, missing⟩
      rw [whole, List.append_assoc]
    · cases other
  · rintro ⟨word, member, after, whole, missing⟩
    rcases exists_of_signed isSign digit (fun _ => exists_cons_of_mem_unsigned) member whole with
      ⟨inner, isNumber, same⟩
    rw [same]
    exact magnitude_missingDenominator isNumber missing

theorem read_missingImaginaryUnit_iff (rest : List Char) :
    (read (marks ++ first :: rest)).1 = .error .missingImaginaryUnit ↔
      ∃ word ∈ real, ∃ mark after, marks ++ first :: rest = word ++ mark :: after ∧
        [mark] ∈ sign ∧ ¬Begins (unit magnitudes) after := by
  rw [read_error_iff isSign digit, real, leading, mul_assoc]
  constructor
  · intro failed
    rcases magnitude_error (begins_of_digit digit rest) failed with
      ⟨other, _⟩ | ⟨_, word, member, mark, after, whole, isMark, missing⟩
    · cases other
    · refine ⟨marks ++ word, Language.append_mem_mul isSign member, mark, after, ?_, isMark,
        missing⟩
      rw [whole, List.append_assoc]
  · rintro ⟨word, member, mark, after, whole, isMark, missing⟩
    rcases exists_of_signed isSign digit (fun _ => exists_cons_of_mem_mul) member whole with
      ⟨inner, isReal, same⟩
    rw [same]
    exact magnitude_missingImaginaryUnit isReal isMark missing

end

/-- What is read of a text that starts like a literal is the longest start of it that is a
literal, where a point alone counts as a magnitude. Reading fails for two reasons only: the
number at the start is followed by a `/` and no number behind that, or the real part is
followed by a sign and no imaginary unit behind that, be it with a magnitude or without. -/
theorem read_literal (starts : startsAt text = true) :
    (∀ number behind, read text = (.ok number, behind) →
      ∃ word, Splits (complete magnitudes) text word behind) ∧
    ((read text).1 = .error .missingDenominator ↔
      ∃ word ∈ leading, ∃ rest, text = word ++ '/' :: rest ∧ ¬Begins Literal.unsigned rest) ∧
    ((read text).1 = .error .missingImaginaryUnit ↔
      ∃ word ∈ real, ∃ mark rest, text = word ++ mark :: rest ∧ [mark] ∈ sign ∧
        ¬Begins (unit magnitudes) rest) ∧
    ∀ fault, (read text).1 = .error fault →
      fault = .missingDenominator ∨ fault = .missingImaginaryUnit := by
  rcases exists_sign_of_startsAt starts with ⟨marks, isSign, first, rest, rfl, digit⟩
  refine ⟨fun _ _ => read_splits isSign digit, read_missingDenominator_iff isSign digit rest,
    read_missingImaginaryUnit_iff isSign digit rest, ?_⟩
  intro fault failed
  rw [read_error_iff isSign digit] at failed
  rcases magnitude_error (begins_of_digit digit rest) failed with ⟨missing, _⟩ | ⟨missing, _⟩
  · exact .inl missing
  · exact .inr missing

/-- A literal with a ratio, a sign behind it and a point where the imaginary part should be. -/
theorem read_literal_point :
    let text := "-1.5/.25+.".toList
    startsAt text = true ∧ (read text).1 = .error .missingImaginaryUnit ∧
      ∃ word ∈ real, ∃ mark rest, text = word ++ mark :: rest ∧ [mark] ∈ sign ∧
        ¬Begins (unit magnitudes) rest := by
  have starts : startsAt "-1.5/.25+.".toList = true := by decide
  have failed : (read "-1.5/.25+.".toList).1 = .error .missingImaginaryUnit := rfl
  exact ⟨starts, failed, (read_literal starts).2.2.1.mp failed⟩

/-- A point without digits is no number, and yet it is read as a magnitude: the literal is
taken whole, although its form is not the one with numbers for magnitudes, and no such
magnitude and unit follow the sign. -/
theorem read_lone_point :
    let text := "1+.i".toList
    startsAt text = true ∧ (∃ number, read text = (.ok number, [])) ∧
      text ∉ complete Literal.unsigned ∧
      ∃ word ∈ real, ∃ mark rest, text = word ++ mark :: rest ∧ [mark] ∈ sign ∧
        ¬Begins (unit Literal.unsigned) rest := by
  have one : ['1'] ∈ leading :=
    Language.append_mem_mul (nil_mem_optional sign)
      (mem_unsigned_of_digits (List.cons_ne_nil _ _) (List.forall_mem_singleton.mpr rfl))
  have absent : ¬Begins (unit Literal.unsigned) ['.', 'i'] := by
    rintro ⟨word, member, starts⟩
    rcases mem_unit.mp member with ⟨digits, isOptional, rfl⟩
    rcases mem_optional.mp isOptional with rfl | isNumber
    · exact absurd starts (by decide)
    · have begins : Begins Literal.unsigned ['.', 'i'] :=
        ⟨digits, isNumber, (List.prefix_append _ _).trans starts⟩
      exact (not_begins_of_unsigned (show unsigned ['.', 'i'] = (none, ['i']) from rfl)).1 begins
  refine ⟨by decide, ⟨_, rfl⟩, ?_, ?_⟩
  · intro member
    rw [complete, real, leading, mul_assoc, mul_assoc] at member
    rcases exists_of_signed (nil_mem_optional sign) (show '1'.isDigit = true by decide)
      (fun _ => exists_cons_of_mem_mul) member (List.append_nil _).symm with ⟨inner, isInner, same⟩
    rcases Language.mem_mul.mp isInner with ⟨digits, isNumber, tail, isTail, rfl⟩
    have ends : ∀ character ∈ tail.head?, ¬Continues character := by
      intro character found
      rcases List.head?_eq_some_iff.mp found with ⟨others, rfl⟩
      exact not_continues_of_tail isTail
    rcases unsigned_append isNumber ends with ⟨number, found⟩
    rw [List.append_nil] at same
    rw [← same] at found
    cases found
    rcases Language.mem_mul.mp isTail with ⟨ratio, isRatio, imaginary, isImaginary, same⟩
    rcases mem_optional.mp isRatio with rfl | isDenominator
    · cases same
      rcases mem_optional.mp isImaginary with none | isImaginary
      · cases none
      · rcases mem_imaginary.mp isImaginary with ⟨_, others, same, _, isUnit⟩
        cases same
        exact absent ⟨_, isUnit, List.prefix_refl _⟩
    · rcases mem_denominator.mp isDenominator with ⟨_, _, rfl⟩
      cases same
  · exact ⟨['1'], Language.append_mem_mul one (nil_mem_optional denominator), '+', ['.', 'i'], rfl,
      .inl rfl, absent⟩

end Numeral

end SmallScheme
