import Mathlib.Computability.Language

namespace SmallScheme

/-! # The form of numeric literals

Numeric literals as languages, put together from those of their parts, and the longest
start of a text that is a word of such a language. -/

namespace Literal

/-- Digits with at most one point among them, and at least one digit. -/
def unsigned : Language Char :=
  {word | (∀ character ∈ word, character.isDigit = true ∨ character = '.') ∧
    word.count '.' ≤ 1 ∧ ∃ character ∈ word, character.isDigit = true}

def sign : Language Char := {['+'], ['-']}

/-- A point without digits. -/
def point : Language Char := {['.']}

/-- A part that may be left out. -/
def optional (part : Language Char) : Language Char := 1 + part

def denominator : Language Char := {['/']} * unsigned

/-- The imaginary unit behind its magnitude. -/
def unit (magnitude : Language Char) : Language Char := optional magnitude * {['i']}

/-- The start of every literal. -/
def leading : Language Char := optional sign * unsigned

/-- A literal without an imaginary part. -/
def real : Language Char := leading * optional denominator

/-- A literal, where magnitudes of imaginary parts have the given form. -/
def complete (magnitude : Language Char) : Language Char :=
  real * optional (sign * unit magnitude)

variable {word text rest : List Char} {part magnitude : Language Char}

theorem mem_sign : word ∈ sign ↔ word = ['+'] ∨ word = ['-'] := Iff.rfl

theorem mem_optional : word ∈ optional part ↔ word = [] ∨ word ∈ part := Iff.rfl

theorem nil_mem_optional (part : Language Char) : [] ∈ optional part := .inl rfl

theorem mem_denominator : word ∈ denominator ↔ ∃ digits ∈ unsigned, word = '/' :: digits := by
  constructor
  · rintro ⟨_, rfl, digits, member, rfl⟩
    exact ⟨digits, member, rfl⟩
  · rintro ⟨digits, member, rfl⟩
    exact ⟨_, rfl, digits, member, rfl⟩

theorem mem_unit :
    word ∈ unit magnitude ↔ ∃ digits ∈ optional magnitude, word = digits ++ ['i'] := by
  constructor
  · rintro ⟨digits, member, _, rfl, rfl⟩
    exact ⟨digits, member, rfl⟩
  · rintro ⟨digits, member, rfl⟩
    exact ⟨digits, member, _, rfl, rfl⟩

/-! ## Numbers without a sign -/

theorem mem_unsigned_of_digits (some : word ≠ [])
    (digits : ∀ character ∈ word, character.isDigit = true) : word ∈ unsigned := by
  have noPoint : '.' ∉ word := fun member => absurd (digits '.' member) (by decide)
  rcases List.exists_mem_of_ne_nil word some with ⟨first, member⟩
  refine ⟨fun character inside => .inl (digits character inside), ?_, first, member, ?_⟩
  · rw [List.count_eq_zero_of_not_mem noPoint]
    exact Nat.zero_le 1
  · exact digits first member

theorem mem_unsigned_of_point {whole fraction : List Char}
    (wholeDigits : ∀ character ∈ whole, character.isDigit = true)
    (fractionDigits : ∀ character ∈ fraction, character.isDigit = true)
    (some : ¬(whole = [] ∧ fraction = [])) : whole ++ '.' :: fraction ∈ unsigned := by
  have inside (character : Char) (member : character ∈ whole ∨ character ∈ fraction) :
      character.isDigit = true :=
    member.elim (wholeDigits character) (fractionDigits character)
  have noPoint : '.' ∉ whole ++ fraction := fun member =>
    absurd (inside '.' (List.mem_append.mp member)) (by decide)
  have digits : whole ++ fraction ≠ [] := fun none => some (List.append_eq_nil_iff.mp none)
  rcases List.exists_mem_of_ne_nil _ digits with ⟨first, member⟩
  have once : (whole ++ '.' :: fraction).count '.' = (whole ++ fraction).count '.' + 1 := by
    rw [List.count_append, List.count_cons_self, List.count_append]
    omega
  refine ⟨?_, ?_, first, ?_, inside first (List.mem_append.mp member)⟩
  · intro character member
    rcases List.mem_append.mp member with early | late
    · exact .inl (wholeDigits character early)
    · rcases List.mem_cons.mp late with point | late
      · exact .inr point
      · exact .inl (fractionDigits character late)
  · rw [once, List.count_eq_zero_of_not_mem noPoint]
  · rcases List.mem_append.mp member with early | late
    · exact List.mem_append_left _ early
    · exact List.mem_append_right _ (List.mem_cons_of_mem _ late)

/-- A number is made of digits, or of digits around a point. -/
theorem unsigned_cases (member : word ∈ unsigned) :
    (word ≠ [] ∧ ∀ character ∈ word, character.isDigit = true) ∨
      ∃ whole fraction, word = whole ++ '.' :: fraction ∧
        (∀ character ∈ whole, character.isDigit = true) ∧
        (∀ character ∈ fraction, character.isDigit = true) ∧ ¬(whole = [] ∧ fraction = []) := by
  rcases member with ⟨inside, once, first, digit, isDigit⟩
  by_cases point : '.' ∈ word
  · rcases List.append_of_mem point with ⟨whole, fraction, rfl⟩
    rw [List.count_append, List.count_cons_self] at once
    have notWhole : '.' ∉ whole := List.count_eq_zero.mp (by omega)
    have notFraction : '.' ∉ fraction := List.count_eq_zero.mp (by omega)
    have early (character : Char) (member : character ∈ whole) : character.isDigit = true := by
      apply (inside character (List.mem_append_left _ member)).resolve_right
      rintro rfl
      exact notWhole member
    have late (character : Char) (member : character ∈ fraction) : character.isDigit = true := by
      have behind := List.mem_append_right whole (List.mem_cons_of_mem '.' member)
      apply (inside character behind).resolve_right
      rintro rfl
      exact notFraction member
    refine .inr ⟨whole, fraction, rfl, early, late, ?_⟩
    rintro ⟨rfl, rfl⟩
    rw [List.nil_append, List.mem_singleton] at digit
    rw [digit] at isDigit
    exact absurd isDigit (by decide)
  · refine .inl ⟨List.ne_nil_of_mem digit, fun character member => ?_⟩
    apply (inside character member).resolve_right
    rintro rfl
    exact point member

/-- The character would be taken for a part of the number before it. -/
def Continues (character : Char) : Prop :=
  character.isDigit = true ∨ character = '.'

instance : DecidablePred Continues :=
  fun character => inferInstanceAs (Decidable (character.isDigit = true ∨ character = '.'))

theorem continues_of_mem_unsigned (member : word ∈ unsigned) :
    ∀ character ∈ word, Continues character :=
  member.1

theorem exists_cons_of_mem_unsigned (member : word ∈ unsigned) :
    ∃ first others, word = first :: others ∧ Continues first := by
  rcases member with ⟨inside, _, character, isMember, _⟩
  rcases List.exists_cons_of_ne_nil (List.ne_nil_of_mem isMember) with ⟨first, others, rfl⟩
  exact ⟨first, others, rfl, inside first List.mem_cons_self⟩

theorem exists_cons_of_mem_mul (member : word ∈ unsigned * part) :
    ∃ first others, word = first :: others ∧ Continues first := by
  rcases Language.mem_mul.mp member with ⟨digits, isNumber, tail, _, rfl⟩
  rcases exists_cons_of_mem_unsigned isNumber with ⟨first, others, rfl, continues⟩
  exact ⟨first, others ++ tail, rfl, continues⟩

/-! ## Parts of literals -/

theorem mem_imaginary :
    word ∈ sign * unit magnitude ↔
      ∃ mark others, word = mark :: others ∧ [mark] ∈ sign ∧ others ∈ unit magnitude := by
  constructor
  · intro member
    rcases Language.mem_mul.mp member with ⟨mark, isSign, others, isUnit, rfl⟩
    rcases mem_sign.mp isSign with rfl | rfl
    · exact ⟨'+', others, rfl, isSign, isUnit⟩
    · exact ⟨'-', others, rfl, isSign, isUnit⟩
  · rintro ⟨mark, others, rfl, isSign, isUnit⟩
    exact Language.append_mem_mul isSign isUnit

theorem not_continues_of_sign {mark : Char} (isSign : [mark] ∈ sign) :
    ¬Continues mark ∧ mark ≠ '/' := by
  rcases mem_sign.mp isSign with same | same <;> cases same <;> decide

/-- An imaginary part ends the number before it. -/
theorem not_continues_of_imaginary {first : Char}
    (member : first :: rest ∈ optional (sign * unit magnitude)) :
    ¬Continues first ∧ first ≠ '/' := by
  rcases mem_optional.mp member with absent | member
  · cases absent
  · rcases mem_imaginary.mp member with ⟨mark, _, same, isSign, _⟩
    cases same
    exact not_continues_of_sign isSign

/-- So does a denominator. -/
theorem not_continues_of_tail {first : Char}
    (member : first :: rest ∈ optional denominator * optional (sign * unit magnitude)) :
    ¬Continues first := by
  rcases Language.mem_mul.mp member with ⟨start, isOptional, tail, isTail, same⟩
  rcases mem_optional.mp isOptional with rfl | isDenominator
  · cases same
    exact (not_continues_of_imaginary isTail).1
  · rcases mem_denominator.mp isDenominator with ⟨_, _, rfl⟩
    cases same
    decide

theorem continues_of_mem_denominator (member : word ∈ optional denominator) :
    ∀ character ∈ word, Continues character ∨ character = '/' := by
  intro character inside
  rcases mem_optional.mp member with rfl | isDenominator
  · cases inside
  · rcases mem_denominator.mp isDenominator with ⟨digits, isNumber, rfl⟩
    rcases List.mem_cons.mp inside with rfl | inside
    · exact .inr rfl
    · exact .inl (continues_of_mem_unsigned isNumber character inside)

/-! ## Longest starts -/

/-- The text starts with a word of the language. -/
def Begins (language : Language Char) (text : List Char) : Prop :=
  ∃ word ∈ language, word <+: text

/-- The text is a word of the language and a rest, and no longer start of it is such a
word. -/
structure Splits (language : Language Char) (text word rest : List Char) : Prop where
  whole : word ++ rest = text
  member : word ∈ language
  longest : ∀ other ∈ language, other <+: text → other.length ≤ word.length

theorem exists_cons_of_begins_sign (signed : Begins sign text) :
    ∃ mark rest, text = mark :: rest ∧ [mark] ∈ sign := by
  rcases signed with ⟨word, isSign, rest, rfl⟩
  rcases mem_sign.mp isSign with rfl | rfl
  · exact ⟨'+', rest, rfl, isSign⟩
  · exact ⟨'-', rest, rfl, isSign⟩

namespace Splits

variable {first second : Language Char} {more behind : List Char}

/-- A text splits one part after the other, if no part can be taken for more of the part
before it. -/
theorem mul (inside : Char → Prop) (one : Splits first text word rest)
    (two : Splits second rest more behind)
    (within : ∀ word ∈ first, ∀ character ∈ word, inside character)
    (outside : ∀ character others, character :: others ∈ second → ¬inside character) :
    Splits (first * second) text (word ++ more) behind where
  whole := by rw [List.append_assoc, two.whole, one.whole]
  member := Language.append_mem_mul one.member two.member
  longest := by
    intro other member starts
    rcases Language.mem_mul.mp member with ⟨before, isFirst, after, isSecond, rfl⟩
    rw [List.length_append, List.length_append]
    have shorter := one.longest before isFirst ((List.prefix_append _ _).trans starts)
    have atWord : word <+: text := ⟨rest, one.whole⟩
    cases after with
    | nil => exact Nat.add_le_add shorter (Nat.zero_le _)
    | cons character others =>
        -- The first part ends before this character, so both are the same part.
        have next : before ++ [character] <+: text := by
          rw [List.append_cons] at starts
          exact (List.prefix_append _ _).trans starts
        have sameLength : before.length = word.length := by
          by_contra different
          have strictly : (before ++ [character]).length ≤ word.length := by
            rw [List.length_append, List.length_singleton]
            omega
          have inWord := List.prefix_of_prefix_length_le next atWord strictly
          have found : character ∈ word := inWord.subset (by simp)
          exact outside character others isSecond (within word one.member character found)
        have same : before = word :=
          (List.prefix_of_prefix_length_le ((List.prefix_append _ _).trans starts) atWord
            shorter).eq_of_length sameLength
        rw [same, ← one.whole, List.prefix_append_right_inj] at starts
        exact Nat.add_le_add shorter (two.longest _ isSecond starts)

/-- A part that is left out, where the text does not start with it. -/
theorem nil (absent : ¬Begins part text) : Splits (optional part) text [] text where
  whole := rfl
  member := nil_mem_optional part
  longest other member starts := by
    rcases mem_optional.mp member with rfl | member
    · exact Nat.le_refl _
    · exact absurd ⟨other, member, starts⟩ absent

theorem optional (splits : Splits part text word rest) :
    Splits (optional part) text word rest where
  whole := splits.whole
  member := .inr splits.member
  longest other member starts := by
    rcases mem_optional.mp member with rfl | member
    · exact Nat.zero_le _
    · exact splits.longest other member starts

end Splits

end Literal

end SmallScheme
