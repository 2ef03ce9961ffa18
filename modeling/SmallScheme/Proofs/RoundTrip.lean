import Mathlib
import SmallScheme.Datum.Equality
import SmallScheme.Proofs.Readable
import SmallScheme.Proofs.Written

namespace SmallScheme

/-! # Reading what was written

The written form of a readable datum is read as that datum, whatever lists and quotes
are open around it. What follows a datum in a written form is the end of the text, a
blank or a closing parenthesis, which ends every word. -/

/-- A datum has no floats and no complex numbers in it. -/
def Datum.isExact {ι : Type} : Datum ι → Bool
  | .number (.integer _) => true
  | .number _ => false
  | .pair _ car cdr => car.isExact && cdr.isExact
  | _ => true

/-- What can follow a datum in a written form. -/
inductive EndsWord : List Char → Prop
  | nil : EndsWord []
  | blank (rest : List Char) : EndsWord (' ' :: rest)
  | closing (rest : List Char) : EndsWord (')' :: rest)

namespace EndsWord

variable {after : List Char}

theorem of_writtenRest {ι : Type} (datum : Datum ι) (after : List Char) :
    EndsWord (datum.writtenRest ++ after) := by
  obtain ⟨first, rest, same, rfl | rfl⟩ := datum.writtenRest_head <;> rw [same]
  · exact .blank _
  · exact .closing _

/-- Characters that pass a test are taken, and nothing of what follows them. -/
theorem takeWhile (ends : EndsWord after) {test : Char → Bool} (blank : test ' ' = false)
    (closing : test ')' = false) {word : List Char}
    (inside : ∀ character ∈ word, test character = true) :
    (word ++ after).takeWhile test = word := by
  rw [List.takeWhile_append_of_pos inside]
  cases ends <;> simp [blank, closing]

theorem dropWhile (ends : EndsWord after) {test : Char → Bool} (blank : test ' ' = false)
    (closing : test ')' = false) {word : List Char}
    (inside : ∀ character ∈ word, test character = true) :
    (word ++ after).dropWhile test = after := by
  rw [List.dropWhile_append_of_pos inside]
  cases ends <;> simp [blank, closing]

end EndsWord

/-! ## Integers -/

namespace Numeral

variable {after : List Char}

theorem digitsValue_toDigits (value : Nat) : digitsValue (Nat.toDigits 10 value) = value := by
  rw [digitsValue, ← Nat.ofDigitChars_eq_foldl, Nat.ofDigitChars_ten_toDigits]

theorem isDigit_of_mem_toDigits (value : Nat) :
    ∀ character ∈ Nat.toDigits 10 value, character.isDigit = true :=
  fun _ => Nat.isDigit_of_mem_toDigits (by decide) (by decide)

theorem unsigned_digits (ends : EndsWord after) (value : Nat) :
    unsigned (Nat.toDigits 10 value ++ after) = (some (wholeNumber value), after) := by
  have digits := isDigit_of_mem_toDigits value
  have whole := ends.takeWhile (by decide) (by decide) digits
  have behind := ends.dropWhile (by decide) (by decide) digits
  have notPoint : after.head? ≠ some '.' := by cases ends <;> simp
  rw [unsigned_of_not_point (by rwa [behind]), whole, behind, if_neg Nat.toDigits_ne_nil,
    digitsValue_toDigits]

theorem magnitude_digits (ends : EndsWord after) {value : Nat} {fitted : Int64}
    (fits : Number.fitInteger? value = some fitted) :
    magnitude (Nat.toDigits 10 value ++ after) = (.ok (.integer fitted), after) := by
  have undivided : overDenominator (.integer fitted) after = (.ok (.integer fitted), after) := by
    cases ends <;> rfl
  have isReal : beforeImaginary (.integer fitted) after = (.ok (.integer fitted), after) := by
    cases ends <;> rfl
  have whole : wholeNumber value = .integer fitted := by rw [wholeNumber, fits]
  simp only [magnitude, unsigned_digits ends, whole, undivided, isReal]

theorem toDigits_eq_cons (value : Nat) :
    ∃ first rest, Nat.toDigits 10 value = first :: rest ∧ first.isDigit = true := by
  obtain ⟨first, rest, same⟩ := List.exists_cons_of_ne_nil (@Nat.toDigits_ne_nil value 10)
  exact ⟨first, rest, same, isDigit_of_mem_toDigits value first (by simp [same])⟩

theorem read_toDigits (ends : EndsWord after) {value : Nat} {fitted : Int64}
    (fits : Number.fitInteger? value = some fitted) :
    read (Nat.toDigits 10 value ++ after) = (.ok (.integer fitted), after) := by
  obtain ⟨first, rest, same, digit⟩ := toDigits_eq_cons value
  have notMinus : first ≠ '-' := by rintro rfl; exact absurd digit (by decide)
  have notPlus : first ≠ '+' := by rintro rfl; exact absurd digit (by decide)
  rw [read_of_not_sign, magnitude_digits ends fits]
  · simpa [same] using notMinus
  · simpa [same] using notPlus

/-- The text of an integer is read as that integer. -/
theorem read_integerText (ends : EndsWord after) {value : Int64}
    (signed : value ≠ Int64.minValue) :
    read ((Number.integerText value.toInt).toList ++ after) = (.ok (.integer value), after) := by
  cases same : value.toInt with
  | ofNat whole =>
      have fits := Number.fitInteger?_toInt value
      rw [same] at fits
      rw [Number.integerText, Number.digitsText, String.toList_ofList]
      exact read_toDigits ends fits
  | negSucc below =>
      have fits := Number.fitInteger?_neg_toInt signed
      rw [same, Int.neg_negSucc] at fits
      have digits := magnitude_digits ends fits
      simp only [Number.integerText, Number.digitsText, String.toList_append,
        String.toList_ofList]
      change read ('-' :: (_ ++ after)) = _
      simp [read, digits, Number.negate]

/-- The text of an integer starts with a digit or with a sign before one. -/
theorem integerText_startsAt (value : Int) :
    ∃ first rest, (Number.integerText value).toList = first :: rest ∧
      (first.isDigit = true ∨ first = '-') ∧
      ∀ after, startsAt (first :: (rest ++ after)) = true := by
  cases value with
  | ofNat whole =>
      obtain ⟨first, rest, same, digit⟩ := toDigits_eq_cons whole
      refine ⟨first, rest, by simp [Number.integerText, Number.digitsText, same], .inl digit, ?_⟩
      intro after
      cases rest ++ after <;> simp [startsAt, digit]
  | negSucc below =>
      obtain ⟨first, rest, same, digit⟩ := toDigits_eq_cons (below + 1)
      refine ⟨'-', first :: rest, ?_, .inr rfl, ?_⟩
      · simp [Number.integerText, Number.digitsText, same]
      · intro after
        simp [startsAt, digit]

end Numeral

/-! ## Atoms -/

/-- The written form starts with a character that starts a datum in any context, and all
of it is read at once. -/
def Datum.IsAtom (datum : Source) : Prop :=
  ∃ first rest, datum.written = first :: rest ∧
    Text.isBlank first = false ∧ first ∉ [';', ')', '.'] ∧
    ∀ source line after, EndsWord after →
      Cursor.opening ⟨source, line, first :: (rest ++ after)⟩ first (rest ++ after) =
        (.ok (.datum datum), ⟨source, line, after⟩)

namespace Datum

open Cursor

theorem boolean_isAtom (value : Bool) : IsAtom (.boolean value) := by
  cases value
  · exact ⟨'#', ['f'], rfl, by decide, by decide, fun _ _ _ _ => rfl⟩
  · exact ⟨'#', ['t'], rfl, by decide, by decide, fun _ _ _ _ => rfl⟩

theorem isBlank_of_isDigit {character : Char} (digit : character.isDigit = true) :
    Text.isBlank character = false := by
  have bounds : 48 ≤ character.toNat ∧ character.toNat ≤ 57 := by
    simpa [Char.isDigit, UInt32.le_iff_toNat_le] using digit
  have apart : ∀ run ∈ Text.blanks, run.2 < 48 ∨ 57 < run.1 := by decide
  simp only [Text.isBlank, Text.CharacterClass.contains, List.any_eq_false, Bool.and_eq_true,
    decide_eq_true_eq]
  intro run member
  have := apart run member
  omega

theorem integer_isAtom {value : Int64} (signed : value ≠ Int64.minValue) :
    IsAtom (.number (.integer value)) := by
  obtain ⟨first, rest, same, digitOrSign, starts⟩ := Numeral.integerText_startsAt value.toInt
  have notBlank : Text.isBlank first = false := by
    obtain digit | rfl := digitOrSign
    · exact isBlank_of_isDigit digit
    · decide
  have notSpecial : first ∉ ['(', ')', '\'', '"', '.', ';', '#'] := by
    intro member
    simp only [List.mem_cons, List.not_mem_nil, or_false] at member
    rcases member with rfl | rfl | rfl | rfl | rfl | rfl | rfl <;>
      exact absurd digitOrSign (by decide)
  have word (behind : List Char) : StartsWord first behind := by simp_all [StartsWord]
  refine ⟨first, rest, same, notBlank, by simp_all, ?_⟩
  intro source line after ends
  have read := Numeral.read_integerText ends signed
  rw [same, List.cons_append] at read
  simp only [opening_of_startsWord (word _), starts, if_true, numberAt, read]

theorem stringContents_character {character : Char} (notQuote : character ≠ '"')
    (notBackslash : character ≠ '\\') (notLineFeed : character ≠ '\n')
    (reversed : List Char) (line : Nat) (rest : List Char) :
    stringContents reversed line (character :: rest) =
      stringContents (character :: reversed) line rest := by
  rw [stringContents] <;> simp_all

/-- An escaped character is read back. -/
theorem stringContents_escape (character : Char) (reversed : List Char) (line : Nat)
    (rest : List Char) :
    stringContents reversed line ((Text.inString character).toList ++ rest) =
      stringContents (character :: reversed) line rest := by
  unfold Text.inString
  split
  · rfl
  · rfl
  · rfl
  · rfl
  · rename_i notQuote notBackslash notLineFeed _
    simp only [Char.toString_eq_singleton, String.toList_singleton, List.singleton_append]
    exact stringContents_character notQuote notBackslash notLineFeed _ _ _

/-- Escaped contents are read back, up to the closing quote. -/
theorem stringContents_inString (contents reversed : List Char) (line : Nat)
    (after : List Char) :
    stringContents reversed line
        (contents.flatMap (Text.inString · |>.toList) ++ '"' :: after) =
      (some (String.ofList (reversed.reverse ++ contents)), line, after) := by
  induction contents generalizing reversed with
  | nil => simp [stringContents]
  | cons character contents induction =>
      rw [List.flatMap_cons, List.append_assoc, stringContents_escape, induction]
      simp

theorem string_isAtom (contents : String) : IsAtom (.string () contents) := by
  refine ⟨'"', _, Text.toList_quoted _ _, by decide, by decide, ?_⟩
  intro source line after _
  change stringAt _ _ = _
  simp [stringAt, stringContents_inString]

theorem symbol_isAtom {name : Symbol} (isName : IsSymbolName name.name.toList) :
    IsAtom (.symbol name) := by
  obtain ⟨name⟩ := name
  cases same : name.toList with
  | nil => simp [same, IsSymbolName] at isName
  | cons first rest =>
      have written : name = String.ofList (first :: rest) := by rw [← same, String.ofList_toList]
      simp only [same, IsSymbolName] at isName
      obtain ⟨notBlank, notSemicolon, starts, notNumeral, inside⟩ := isName
      refine ⟨first, rest, same, notBlank, ?_, ?_⟩
      · have := starts.1
        simp_all
      intro source line after ends
      -- What is behind a name of one character is nothing that changes its meaning.
      have word : StartsWord first (rest ++ after) := by
        refine ⟨starts.1, fun hash => ?_⟩
        cases rest with
        | nil => cases ends <;> simp
        | cons second rest => exact starts.2 hash
      have symbol : Numeral.startsAt (first :: (rest ++ after)) = false := by
        cases rest with
        | nil =>
            rw [Numeral.startsAt] at notNumeral
            cases ends <;> simp [Numeral.startsAt, notNumeral]
        | cons second rest => exact notNumeral
      have undelimited : ∀ character ∈ rest, (!isDelimiter character) = true := by
        simpa using inside
      simp only [opening_of_startsWord word, symbol, symbolAt, Bool.false_eq_true, if_false]
      rw [ends.takeWhile (by decide) (by decide) undelimited,
        ends.dropWhile (by decide) (by decide) undelimited, written]

end Datum

/-! ## Data in contexts -/

namespace Cursor

variable {source : String} {line : Nat} {rest after : List Char} {contexts outer : List Context}

theorem skipBlanks_blank :
    skipBlanks ⟨source, line, ' ' :: rest⟩ = skipBlanks ⟨source, line, rest⟩ := rfl

theorem skipBlanks_of_not_blank {first : Char} (notBlank : Text.isBlank first = false)
    (notSemicolon : first ≠ ';') :
    skipBlanks ⟨source, line, first :: rest⟩ = ⟨source, line, first :: rest⟩ := by
  have notLineFeed : first ≠ '\n' := by
    rintro rfl
    exact absurd notBlank (by decide)
  simp [skipBlanks, skip, notBlank, notSemicolon, notLineFeed]

/-- A blank before a datum changes nothing. -/
theorem readWithin_blank :
    readWithin contexts ⟨source, line, ' ' :: rest⟩ = readWithin contexts ⟨source, line, rest⟩ := by
  simp only [readWithin_eq, Reading.advance, skipBlanks_blank]

theorem skipBlanks_skipBlanks (cursor : Cursor) :
    cursor.skipBlanks.skipBlanks = cursor.skipBlanks := by
  cases same : cursor.skipBlanks with
  | mk source line rest =>
      cases rest with
      | nil => rfl
      | cons first rest =>
          have ⟨notBlank, notSemicolon⟩ := @skipBlanks_head cursor first rest (by rw [same])
          exact skipBlanks_of_not_blank notBlank notSemicolon

theorem readWithin_skipBlanks (contexts : List Context) (cursor : Cursor) :
    cursor.skipBlanks.readWithin contexts = cursor.readWithin contexts := by
  simp only [readWithin_eq, Reading.advance, skipBlanks_skipBlanks]

/-- A datum that can be read at all is the next one. -/
theorem next_of_readWithin {cursor behind : Cursor} {datum : Source}
    (read : cursor.readWithin [] = (.ok datum, behind)) :
    cursor.next = (.ok (some datum), behind) := by
  have skipped := (readWithin_skipBlanks [] cursor).trans read
  cases here : cursor.skipBlanks.rest with
  | nil =>
      simp only [readWithin_eq, Reading.advance, here, Reading.settle] at read
      cases read
  | cons first rest => simp only [next_of_cons here, skipped]

theorem first_of_readWithin {cursor behind : Cursor} {datum : Source}
    (read : cursor.readWithin [] = (.ok datum, behind)) : cursor.first = .ok datum := by
  simp only [Cursor.first, next_of_readWithin read]

theorem readWithin_list :
    readWithin contexts ⟨source, line, '(' :: rest⟩ =
      readWithin (.list [] :: contexts) ⟨source, line, rest⟩ := by
  rw [readWithin_eq]
  rfl

theorem readWithin_close (reversed : List Source) :
    readWithin (.list reversed :: outer) ⟨source, line, ')' :: rest⟩ =
      (Reading.complete (Source.ofReversed reversed) ⟨source, line, rest⟩ outer).settle := by
  rw [readWithin_eq, Reading.advance_close rfl]
  rfl

theorem readWithin_dot (last : Source) (reversed : List Source) :
    readWithin (.list (last :: reversed) :: outer) ⟨source, line, '.' :: rest⟩ =
      readWithin (.dotted (last :: reversed) :: outer) ⟨source, line, rest⟩ := by
  rw [readWithin_eq, Reading.advance_dot rfl]
  rfl

/-- A round starts on a datum at any character that is not skipped, and that neither closes
a list nor is its dot. -/
theorem readWithin_enter {first : Char} (notBlank : Text.isBlank first = false)
    (notSpecial : first ∉ [';', ')', '.']) :
    readWithin contexts ⟨source, line, first :: rest⟩ =
      (Reading.enter contexts ⟨source, line, first :: rest⟩ first rest).settle := by
  simp only [List.mem_cons, List.not_mem_nil, or_false, not_or] at notSpecial
  obtain ⟨notSemicolon, notClosing, notDot⟩ := notSpecial
  have skipped := @skipBlanks_of_not_blank source line rest first notBlank notSemicolon
  rw [readWithin_eq]
  obtain ⟨_, _, closing, _⟩ | ⟨_, _, _, dot, _⟩ | enters := Reading.advance_cases contexts first
  · exact absurd closing notClosing
  · exact absurd dot notDot
  · rw [enters _ rest (by rw [skipped]), skipped]

end Cursor

namespace Datum

open Cursor

/-- In any contexts the written form is read as the datum. -/
def ReadsBack (datum : Source) : Prop :=
  ∀ source line contexts after, EndsWord after →
    readWithin contexts ⟨source, line, datum.written ++ after⟩ =
      (Reading.complete datum ⟨source, line, after⟩ contexts).settle

/-- In a list with elements the rest of the written form is read as the datum behind
them. -/
def RestReadsBack (datum : Source) : Prop :=
  ∀ source line last reversed outer after,
    readWithin (.list (last :: reversed) :: outer) ⟨source, line, datum.writtenRest ++ after⟩ =
      (Reading.complete (Source.dotted (last :: reversed) datum) ⟨source, line, after⟩ outer).settle

theorem IsAtom.readsBack {datum : Source} (atom : datum.IsAtom) : datum.ReadsBack := by
  obtain ⟨first, rest, same, notBlank, notSpecial, opens⟩ := atom
  intro source line contexts after ends
  rw [same, List.cons_append, readWithin_enter notBlank notSpecial, Reading.enter,
    opens _ _ _ ends]

theorem ReadsBack.rest {datum : Source} (readsBack : datum.ReadsBack)
    (dotted : datum.writtenRest = ' ' :: '.' :: ' ' :: (datum.written ++ [')'])) :
    datum.RestReadsBack := by
  intro source line last reversed outer after
  have last' := readsBack source line (.dotted (last :: reversed) :: outer) (')' :: after)
    (.closing after)
  rw [dotted]
  simp only [List.cons_append, List.append_assoc, List.nil_append]
  rw [readWithin_blank, readWithin_dot, readWithin_blank, last', Reading.complete_dotted rfl]
  rfl

theorem nil_readsBack : ReadsBack .nil := by
  intro source line contexts after ends
  change readWithin contexts ⟨source, line, '(' :: ')' :: after⟩ = _
  rw [readWithin_list, readWithin_close]
  rfl

theorem nil_restReadsBack : RestReadsBack .nil := by
  intro source line last reversed outer after
  exact readWithin_close _

theorem pair_readsBack {car cdr : Source} (first : car.ReadsBack) (rest : cdr.RestReadsBack) :
    ReadsBack (.pair () car cdr) := by
  intro source line contexts after _
  have ends := EndsWord.of_writtenRest cdr after
  rw [written, List.cons_append, List.append_assoc, readWithin_list, first _ _ _ _ ends]
  exact rest source line car [] contexts after

theorem pair_restReadsBack {car cdr : Source} (first : car.ReadsBack)
    (rest : cdr.RestReadsBack) : RestReadsBack (.pair () car cdr) := by
  intro source line last reversed outer after
  have ends := EndsWord.of_writtenRest cdr after
  rw [writtenRest, List.cons_append, List.append_assoc, readWithin_blank, first _ _ _ _ ends]
  exact rest source line car (last :: reversed) outer after

theorem readsBack {datum : Source} (readable : datum.Readable) (isExact : datum.isExact = true) :
    datum.ReadsBack ∧ datum.RestReadsBack := by
  induction datum with
  | nil => exact ⟨nil_readsBack, nil_restReadsBack⟩
  | boolean value =>
      have atom := (boolean_isAtom value).readsBack
      exact ⟨atom, atom.rest rfl⟩
  | number value =>
      cases value with
      | integer value =>
          have atom := (integer_isAtom readable).readsBack
          exact ⟨atom, atom.rest rfl⟩
      | _ => cases isExact
  | string place contents =>
      have atom := (string_isAtom contents).readsBack
      exact ⟨atom, atom.rest rfl⟩
  | symbol name =>
      have atom := (symbol_isAtom readable).readsBack
      exact ⟨atom, atom.rest rfl⟩
  | pair place car cdr carInduction cdrInduction =>
      simp only [Datum.isExact, Bool.and_eq_true] at isExact
      have first := (carInduction readable.1 isExact.1).1
      have rest := (cdrInduction readable.2 isExact.2).2
      exact ⟨pair_readsBack first rest, pair_restReadsBack first rest⟩
  | procedure callee => exact readable.elim

/-- The written form of a datum is a text with that datum in it. -/
theorem next_text {datum : Source} (readable : datum.Readable) (isExact : datum.isExact = true)
    (source : String) :
    (Cursor.start source datum.text).next = (.ok (some datum), ⟨source, 1, []⟩) := by
  have again := (readsBack readable isExact).1 source 1 [] [] .nil
  rw [List.append_nil] at again
  rw [Cursor.start, toList_text]
  exact Cursor.next_of_readWithin again

/-! ## The round trip -/

theorem written_place (datum : Source) (next : Place) :
    (Value.place next datum).1.written = datum.written ∧
      (Value.place next datum).1.writtenRest = datum.writtenRest := by
  induction datum generalizing next with
  | pair place car cdr carInduction cdrInduction =>
      simp [Value.place, written, writtenRest, carInduction, cdrInduction]
  | boolean value => cases value <;> exact ⟨rfl, rfl⟩
  | _ => exact ⟨rfl, rfl⟩

/-- Two copies of a datum are equal, wherever their strings and pairs live. -/
theorem equal_place {datum : Source} (readable : datum.Readable)
    (isExact : datum.isExact = true) (left right : Place) :
    Value.equal (Value.place left datum).1 (Value.place right datum).1 = true := by
  induction datum generalizing left right with
  | pair place car cdr carInduction cdrInduction =>
      simp only [Datum.isExact, Bool.and_eq_true] at isExact
      simp [Value.place, Value.equal, carInduction readable.1 isExact.1,
        cdrInduction readable.2 isExact.2]
  | number value =>
      cases value with
      | integer value => simp [Value.place, Value.equal, Value.eqv, Number.same]
      | _ => cases isExact
  | procedure callee => exact readable.elim
  | _ => simp [Value.place, Value.equal, Value.eqv, Value.sameContents]

end Datum

/-- What was read from any text and has only exact numbers in it is read back from its
written form, and is then `equal?` to what it was. -/
theorem read_written {source text : String} {datum : Source}
    (read : (Cursor.start source text).first = .ok datum) (isExact : datum.isExact = true)
    (other : String) (left right : Place) :
    (Cursor.start other (Value.place left datum).1.text).first = .ok datum ∧
      Value.equal (Value.place left datum).1 (Value.place right datum).1 = true := by
  have readable := Cursor.first_readable read
  constructor
  · have again := (Datum.readsBack readable isExact).1 other 1 [] [] .nil
    rw [List.append_nil] at again
    rw [Cursor.start, Datum.toList_text, (datum.written_place left).1]
    exact Cursor.first_of_readWithin again
  · exact Datum.equal_place readable isExact left right

theorem read_written_nested :
    let text := "; c\n('(+ -7 . #t) \"\\\\\t\\\"\" -a . (b . #f))"
    ∃ datum, (Cursor.start "a" text).first = .ok datum ∧ datum.isExact = true ∧
      (Cursor.start "b" (Value.place 0 datum).1.text).first = .ok datum ∧
      Value.equal (Value.place 0 datum).1 (Value.place 5 datum).1 = true := by
  intro text
  let sum : Source :=
    .pair () (.symbol ⟨"+"⟩) (.pair () (.number (.integer (-7))) (.boolean true))
  let datum : Source :=
    .pair () (Source.quoted sum) (.pair () (.string () "\\\t\"")
      (.pair () (.symbol ⟨"-a"⟩) (.pair () (.symbol ⟨"b"⟩) (.boolean false))))
  have read : (Cursor.start "a" text).first = .ok datum := by cbv
  exact ⟨datum, read, by decide, read_written read (by decide) "b" 0 5⟩

end SmallScheme
