import Mathlib
import SmallScheme.Proofs.Lines
import SmallScheme.Proofs.Numerals

namespace SmallScheme

/-! # Texts joined by a line feed

What is read up to a line feed does not depend on what follows it: the line feed ends
every symbol, numeral and comment, and only inside of a list, a string or a quote does
reading go on behind it, which then would have failed at the end of the text. Nor does
reading depend on the line on which it starts, apart from the lines that it reports.

So the data of two texts that are joined by a line feed are those of the first and
then those of the second, with the faults of the second some lines further down. -/

/-! ## Some lines further down -/

def ReadError.later (lines : Nat) (error : ReadError) : ReadError :=
  { error with line := error.line + lines }

namespace Cursor

def later (lines : Nat) (cursor : Cursor) : Cursor :=
  { cursor with line := cursor.line + lines }

variable (lines : Nat)

theorem skip_later (comment : Bool) (line : Nat) (text : List Char) :
    skip comment (line + lines) text =
      ((skip comment line text).1 + lines, (skip comment line text).2) := by
  induction text generalizing comment line with
  | nil => rfl
  | cons character text induction =>
      have next : line + lines + 1 = line + 1 + lines := by omega
      simp only [skip, next, induction]
      split
      · rfl
      split
      · rfl
      split
      · rfl
      split <;> rfl

theorem skipBlanks_later (cursor : Cursor) :
    (cursor.later lines).skipBlanks = cursor.skipBlanks.later lines := by
  simp only [skipBlanks, later, skip_later]

theorem stringContents_later (reversed : List Char) (line : Nat) (text : List Char) :
    stringContents reversed (line + lines) text =
      ((stringContents reversed line text).1, (stringContents reversed line text).2.1 + lines,
        (stringContents reversed line text).2.2) := by
  fun_induction stringContents reversed line text with
  | case1 | case2 | case3 => simp [stringContents]
  | case4 reversed line escaped rest induction => simpa [stringContents] using induction
  | case5 reversed line rest induction =>
      have next : line + lines + 1 = line + 1 + lines := by omega
      rw [stringContents, next]
      exact induction
  | case6 reversed line character rest notEnd notQuote notEscape notLineFeed induction =>
      rw [stringContents]
      · exact induction
      · exact notEnd
      · exact notQuote
      · exact notEscape
      · exact notLineFeed

theorem stringAt_later (cursor : Cursor) (rest : List Char) :
    (cursor.later lines).stringAt rest =
      ((cursor.stringAt rest).1, (cursor.stringAt rest).2.later lines) := by
  simp only [stringAt, later, stringContents_later]
  rcases stringContents [] cursor.line rest with ⟨_ | contents, line, rest⟩ <;> rfl

theorem numberAt_later (cursor : Cursor) :
    (cursor.later lines).numberAt = (cursor.numberAt.1, cursor.numberAt.2.later lines) := by
  simp only [numberAt, later]
  rcases Numeral.read cursor.rest with ⟨_ | number, rest⟩ <;> rfl

theorem opening_later (cursor : Cursor) (first : Char) (rest : List Char) :
    (cursor.later lines).opening first rest =
      ((cursor.opening first rest).1, (cursor.opening first rest).2.later lines) := by
  unfold opening
  split
  · rfl
  · rfl
  · rfl
  · rfl
  · rfl
  · exact cursor.stringAt_later lines _
  · rfl
  · rfl
  · split
    · exact cursor.numberAt_later lines
    · rfl

end Cursor

namespace Reading

open Cursor

variable (lines : Nat)

theorem complete_later (datum : Source) (cursor : Cursor) (contexts : List Context) :
    complete datum (cursor.later lines) contexts =
      (complete datum cursor contexts).map (later lines) := by
  induction contexts generalizing datum cursor with
  | nil => rfl
  | cons context outer induction =>
      cases context with
      | list reversed => rfl
      | quote => exact induction _ cursor
      | dotted reversed =>
          simp only [complete, skipBlanks_later]
          dsimp only [later]
          split
          · rename_i rest _
            exact induction _ ⟨cursor.skipBlanks.source, cursor.skipBlanks.line, rest⟩
          · rfl
          · rfl

theorem enter_later (contexts : List Context) (cursor : Cursor) (first : Char)
    (rest : List Char) :
    enter contexts (cursor.later lines) first rest =
      (enter contexts cursor first rest).map (later lines) := by
  simp only [enter, opening_later]
  rcases cursor.opening first rest with ⟨fault | datum | _ | _, behind⟩
  · rfl
  · exact complete_later lines datum behind contexts
  · rfl
  · rfl

theorem advance_later (contexts : List Context) (cursor : Cursor) :
    advance contexts (cursor.later lines) = (advance contexts cursor).map (later lines) := by
  simp only [advance, skipBlanks_later]
  dsimp only [later]
  split
  · rfl
  · rename_i rest _ _ _
    exact complete_later lines _ ⟨cursor.skipBlanks.source, cursor.skipBlanks.line, rest⟩ _
  · rfl
  · exact enter_later lines _ _ _ _

end Reading

namespace Cursor

variable (lines : Nat)

theorem readWithin_later (contexts : List Context) (cursor : Cursor) :
    (cursor.later lines).readWithin contexts =
      ((cursor.readWithin contexts).1, (cursor.readWithin contexts).2.later lines) := by
  fun_induction readWithin contexts cursor with
  | case1 contexts cursor datum behind progress =>
      rw [readWithin_eq, Reading.advance_later, progress]
      rfl
  | case2 contexts cursor fault behind progress =>
      rw [readWithin_eq, Reading.advance_later, progress]
      rfl
  | case3 contexts cursor inner between progress induction =>
      rw [readWithin_eq, Reading.advance_later, progress]
      exact induction

theorem next_later (cursor : Cursor) :
    (cursor.later lines).next =
      (cursor.next.1.mapError (ReadError.later lines), cursor.next.2.later lines) := by
  have same : (cursor.skipBlanks.later lines).rest = cursor.skipBlanks.rest := rfl
  simp only [next, skipBlanks_later, readWithin_later, same]
  by_cases atEnd : cursor.skipBlanks.rest.isEmpty
  · rw [if_pos atEnd, if_pos atEnd]
    rfl
  · rw [if_neg atEnd, if_neg atEnd]
    rcases cursor.skipBlanks.readWithin [] with ⟨fault | datum, behind⟩ <;> rfl

end Cursor

namespace Document

def later (lines : Nat) (document : Document) : Document :=
  ⟨document.data, document.failure.map (ReadError.later lines), document.final.later lines⟩

theorem read_later (lines : Nat) (cursor : Cursor) :
    read (cursor.later lines) = (read cursor).later lines := by
  fun_induction read cursor with
  | case1 cursor behind found =>
      rw [read_eq, Cursor.next_later, found]
      rfl
  | case2 cursor error behind found =>
      rw [read_eq, Cursor.next_later, found]
      rfl
  | case3 cursor datum behind found further induction =>
      rw [read_eq, Cursor.next_later, found]
      dsimp only [Except.mapError]
      rw [induction]
      rfl

end Document

/-! ## Up to a line feed -/

section

variable {test : Char → Bool} (stops : test '\n' = false) (text more : List Char)

include stops

theorem takeWhile_lineFeed : (text ++ '\n' :: more).takeWhile test = text.takeWhile test := by
  induction text with
  | nil => simp [stops]
  | cons character text induction => simp [List.takeWhile_cons, induction]

theorem dropWhile_lineFeed :
    (text ++ '\n' :: more).dropWhile test = text.dropWhile test ++ '\n' :: more := by
  induction text with
  | nil => simp [stops]
  | cons character text induction =>
      by_cases passes : test character <;> simp [passes, induction]

end

namespace Numeral

variable (text more : List Char)

theorem unsigned_lineFeed :
    unsigned (text ++ '\n' :: more) = ((unsigned text).1, (unsigned text).2 ++ '\n' :: more) := by
  have notDigit : Char.isDigit '\n' = false := by decide
  have whole := takeWhile_lineFeed notDigit text more
  have behind := dropWhile_lineFeed notDigit text more
  by_cases point : (text.dropWhile Char.isDigit).head? = some '.'
  · obtain ⟨fraction, found⟩ := List.head?_eq_some_iff.mp point
    rw [found, List.cons_append] at behind
    rw [unsigned_of_point behind, unsigned_of_point found, whole, takeWhile_lineFeed notDigit,
      dropWhile_lineFeed notDigit]
    split <;> rfl
  · have notPoint : ((text ++ '\n' :: more).dropWhile Char.isDigit).head? ≠ some '.' := by
      rw [behind]
      cases found : text.dropWhile Char.isDigit with
      | nil => simp
      | cons => simpa [found] using point
    rw [unsigned_of_not_point notPoint, unsigned_of_not_point point, whole, behind]
    split <;> rfl

theorem overDenominator_lineFeed (numerator : Number) :
    overDenominator numerator (text ++ '\n' :: more) =
      ((overDenominator numerator text).1,
        (overDenominator numerator text).2 ++ '\n' :: more) := by
  fun_cases overDenominator numerator text with
  | case1 text denominator behind read =>
      simp [overDenominator, unsigned_lineFeed, read]
  | case2 text behind read => simp [overDenominator, unsigned_lineFeed, read]
  | case3 text notSlash =>
      rw [overDenominator]
      rintro rest
      cases text <;> simp_all

theorem withImaginaryPart_lineFeed (realPart : Number) (negative : Bool) :
    withImaginaryPart realPart negative (text ++ '\n' :: more) =
      ((withImaginaryPart realPart negative text).1,
        (withImaginaryPart realPart negative text).2 ++ '\n' :: more) := by
  simp only [withImaginaryPart, unsigned_lineFeed]
  rcases (unsigned text).2 with _ | ⟨character, behind⟩
  · rfl
  · by_cases unit : character = 'i'
    · subst unit
      rfl
    · simp [unit]

theorem beforeImaginary_lineFeed (realPart : Number) :
    beforeImaginary realPart (text ++ '\n' :: more) =
      ((beforeImaginary realPart text).1, (beforeImaginary realPart text).2 ++ '\n' :: more) := by
  fun_cases beforeImaginary realPart text with
  | case1 text => exact withImaginaryPart_lineFeed text more realPart false
  | case2 text => exact withImaginaryPart_lineFeed text more realPart true
  | case3 text notPlus notMinus =>
      rw [beforeImaginary]
      · cases text <;> simp_all
      · cases text <;> simp_all

variable {text : List Char} {behind : List Char} {number : Number}

theorem magnitude_lineFeed (found : magnitude text = (.ok number, behind)) :
    magnitude (text ++ '\n' :: more) = (.ok number, behind ++ '\n' :: more) := by
  simp only [magnitude, unsigned_lineFeed] at found ⊢
  cases read : unsigned text with
  | mk first afterFirst =>
      rw [read] at found
      cases first with
      | none => cases found
      | some first =>
          simp only [overDenominator_lineFeed] at found ⊢
          cases divided : overDenominator first afterFirst with
          | mk second afterSecond =>
              rw [divided] at found
              cases second with
              | error => cases found
              | ok second =>
                  simp only [beforeImaginary_lineFeed] at found ⊢
                  rw [found]

theorem read_lineFeed (found : read text = (.ok number, behind)) :
    read (text ++ '\n' :: more) = (.ok number, behind ++ '\n' :: more) := by
  rcases text with _ | ⟨first, rest⟩
  · cases found
  by_cases minus : first = '-'
  · subst minus
    simp only [read, List.cons_append] at found ⊢
    cases unsigned : magnitude rest with
    | mk result afterwards =>
        rw [unsigned] at found
        cases result with
        | error => cases found
        | ok positive =>
            rw [magnitude_lineFeed more unsigned]
            cases found
            rfl
  by_cases plus : first = '+'
  · subst plus
    exact magnitude_lineFeed more found
  · have same (rest : List Char) : read (first :: rest) = magnitude (first :: rest) :=
      read_of_not_sign (by simpa using minus) (by simpa using plus)
    rw [same] at found
    rw [List.cons_append, same]
    exact magnitude_lineFeed more found

theorem startsAt_lineFeed (first : Char) (rest : List Char) :
    startsAt (first :: (rest ++ '\n' :: more)) = startsAt (first :: rest) := by
  cases rest with
  | nil => simp [startsAt]
  | cons => rfl

end Numeral

namespace Cursor

/-- The cursor in a text that goes on behind a line feed. -/
def before (more : List Char) (cursor : Cursor) : Cursor :=
  { cursor with rest := cursor.rest ++ '\n' :: more }

variable (more : List Char)

theorem skip_lineFeed (comment : Bool) (line : Nat) (text : List Char) :
    skip comment line (text ++ '\n' :: more) =
      match skip comment line text with
      | (last, []) => skip false (last + 1) more
      | (last, first :: rest) => (last, first :: rest ++ '\n' :: more) := by
  fun_induction skip comment line text with
  | case1 comment line => rfl
  | case2 comment line rest induction => simpa [skip] using induction
  | case3 line character rest sameLine induction => simpa [skip, sameLine] using induction
  | case4 comment line character rest sameLine notComment blank induction =>
      simpa [skip, sameLine, notComment, blank] using induction
  | case5 comment line rest sameLine notComment notBlank induction =>
      simpa [skip, notComment, notBlank] using induction
  | case6 comment line character rest sameLine notComment notBlank notSemicolon =>
      simp [skip, sameLine, notComment, notBlank, notSemicolon]

theorem stringContents_lineFeed {reversed : List Char} {line last : Nat}
    {text rest : List Char} {contents : String}
    (read : stringContents reversed line text = (some contents, last, rest)) :
    stringContents reversed line (text ++ '\n' :: more) =
      (some contents, last, rest ++ '\n' :: more) := by
  fun_induction stringContents reversed line text with
  | case1 | case2 => cases read
  | case3 reversed line rest =>
      cases read
      rfl
  | case4 reversed line escaped rest induction => exact induction read
  | case5 reversed line rest induction => exact induction read
  | case6 reversed line character rest notEnd notQuote notEscape notLineFeed induction =>
      have notBackslash := ne_backslash notEnd notEscape
      rw [List.cons_append, stringContents]
      · exact induction read
      · exact fun backslash => absurd backslash notBackslash
      · exact notQuote
      · exact fun _ _ backslash => absurd backslash notBackslash
      · exact notLineFeed

theorem skipBlanks_lineFeed_of_cons {cursor : Cursor} {first : Char} {rest : List Char}
    (here : cursor.skipBlanks.rest = first :: rest) :
    (cursor.before more).skipBlanks = cursor.skipBlanks.before more := by
  have skipped := skip_lineFeed more false cursor.line cursor.rest
  simp only [skipBlanks] at here
  simp only [skipBlanks, before, skipped]
  rw [show skip false cursor.line cursor.rest = (_, first :: rest) from Prod.ext rfl here]

theorem rest_skipBlanks_lineFeed {cursor : Cursor} {first : Char} {rest : List Char}
    (here : cursor.skipBlanks.rest = first :: rest) :
    (cursor.before more).skipBlanks.rest = first :: (rest ++ '\n' :: more) := by
  rw [skipBlanks_lineFeed_of_cons more here, before, here, List.cons_append]

theorem skipBlanks_lineFeed_of_nil {cursor : Cursor} (atEnd : cursor.skipBlanks.rest = []) :
    (cursor.before more).skipBlanks =
      skipBlanks ⟨cursor.source, cursor.skipBlanks.line + 1, more⟩ := by
  have skipped := skip_lineFeed more false cursor.line cursor.rest
  simp only [skipBlanks] at atEnd
  simp only [skipBlanks, before, skipped]
  rw [show skip false cursor.line cursor.rest = (_, []) from Prod.ext rfl atEnd]

theorem stringAt_lineFeed {cursor behind : Cursor} {rest : List Char} {found : Opening}
    (read : cursor.stringAt rest = (.ok found, behind)) :
    (cursor.before more).stringAt (rest ++ '\n' :: more) = (.ok found, behind.before more) := by
  unfold stringAt at read
  split at read
  · rename_i contents line rest contained
    cases read
    rw [stringAt, before, stringContents_lineFeed more contained]
    rfl
  · cases read

theorem numberAt_lineFeed {cursor behind : Cursor} {found : Opening}
    (read : cursor.numberAt = (.ok found, behind)) :
    (cursor.before more).numberAt = (.ok found, behind.before more) := by
  unfold numberAt at read
  split at read
  · rename_i number rest contained
    cases read
    rw [numberAt, before, Numeral.read_lineFeed more contained]
    rfl
  · cases read

theorem symbolAt_lineFeed (cursor : Cursor) (first : Char) (rest : List Char) :
    (cursor.before more).symbolAt first (rest ++ '\n' :: more) =
      ((cursor.symbolAt first rest).1, (cursor.symbolAt first rest).2.before more) := by
  have name := @takeWhile_lineFeed (!isDelimiter ·) (by decide) rest more
  have behind := @dropWhile_lineFeed (!isDelimiter ·) (by decide) rest more
  rw [symbolAt, name, behind]
  rfl

theorem opening_lineFeed {cursor behind : Cursor} {first : Char} {rest : List Char}
    {found : Opening} (opened : cursor.opening first rest = (.ok found, behind)) :
    (cursor.before more).opening first (rest ++ '\n' :: more) =
      (.ok found, behind.before more) := by
  unfold opening at opened
  split at opened
  · cases opened
    rfl
  · cases opened
    rfl
  · cases opened
  · cases opened
    rfl
  · cases opened
    rfl
  · exact stringAt_lineFeed more opened
  · cases opened
  · cases opened
  · have starts : StartsWord first (rest ++ '\n' :: more) := by
      cases rest <;> simp_all [StartsWord]
    rw [opening_of_startsWord starts, Numeral.startsAt_lineFeed]
    split at opened
    · rw [if_pos ‹_›]
      exact numberAt_lineFeed more opened
    · cases opened
      rw [if_neg ‹_›, symbolAt_lineFeed]
      rfl

end Cursor

namespace Reading

open Cursor

variable (more : List Char)

theorem complete_lineFeed {datum : Source} {cursor : Cursor} {contexts : List Context}
    (success : (complete datum cursor contexts).isFailure = false) :
    complete datum (cursor.before more) contexts =
      (complete datum cursor contexts).map (before more) := by
  induction contexts generalizing datum cursor with
  | nil => rfl
  | cons context outer induction =>
      cases context with
      | list reversed => rfl
      | quote => exact induction success
      | dotted reversed =>
          rcases blanks : cursor.skipBlanks.rest with _ | ⟨first, rest⟩
          · simp [complete, blanks, isFailure] at success
          by_cases closing : first = ')'
          · subst closing
            have blanksBefore := rest_skipBlanks_lineFeed more blanks
            rw [complete_dotted blanks] at success ⊢
            rw [complete_dotted blanksBefore, skipBlanks_lineFeed_of_cons more blanks]
            exact induction success
          · simp [complete, blanks, isFailure] at success

theorem enter_lineFeed {contexts : List Context} {cursor : Cursor} {first : Char}
    {rest : List Char} (success : (enter contexts cursor first rest).isFailure = false) :
    enter contexts (cursor.before more) first (rest ++ '\n' :: more) =
      (enter contexts cursor first rest).map (before more) := by
  unfold enter at success ⊢
  cases opened : cursor.opening first rest with
  | mk result behind =>
      rw [opened] at success
      cases result with
      | error fault => cases success
      | ok found =>
          rw [opening_lineFeed more opened]
          cases found with
          | datum datum => exact complete_lineFeed more success
          | list => rfl
          | quote => rfl

theorem advance_lineFeed {contexts : List Context} {cursor : Cursor}
    (success : (advance contexts cursor).isFailure = false) :
    advance contexts (cursor.before more) = (advance contexts cursor).map (before more) := by
  rcases blanks : cursor.skipBlanks.rest with _ | ⟨first, rest⟩
  · simp [advance, blanks, isFailure] at success
  have same := skipBlanks_lineFeed_of_cons more blanks
  have blanksBefore := rest_skipBlanks_lineFeed more blanks
  rcases advance_cases contexts first with
    ⟨reversed, outer, rfl, rfl⟩ | ⟨last, reversed, outer, rfl, rfl⟩ | enters
  · rw [advance_close blanks] at success ⊢
    rw [advance_close blanksBefore, same]
    exact complete_lineFeed more success
  · rw [advance_dot blanks, advance_dot blanksBefore, same]
    rfl
  · rw [enters cursor rest blanks] at success ⊢
    rw [enters _ _ blanksBefore, same]
    exact enter_lineFeed more success

end Reading

namespace Cursor

variable (more : List Char)

theorem readWithin_lineFeed {contexts : List Context} {cursor behind : Cursor} {datum : Source}
    (read : cursor.readWithin contexts = (.ok datum, behind)) :
    (cursor.before more).readWithin contexts = (.ok datum, behind.before more) := by
  fun_induction readWithin contexts cursor with
  | case1 contexts cursor found between progress =>
      cases read
      rw [readWithin_eq, Reading.advance_lineFeed more (by rw [progress]; rfl), progress]
      rfl
  | case2 => cases read
  | case3 contexts cursor inner between progress induction =>
      rw [readWithin_eq, Reading.advance_lineFeed more (by rw [progress]; rfl), progress]
      exact induction read

theorem next_lineFeed_of_some {cursor behind : Cursor} {datum : Source}
    (found : cursor.next = (.ok (some datum), behind)) :
    (cursor.before more).next = (.ok (some datum), behind.before more) := by
  rcases blanks : cursor.skipBlanks.rest with _ | ⟨first, rest⟩
  · rw [next_of_nil blanks] at found
    cases found
  have same := skipBlanks_lineFeed_of_cons more blanks
  have blanksBefore := rest_skipBlanks_lineFeed more blanks
  rw [next_of_cons blanks] at found
  rw [next_of_cons blanksBefore, same]
  split at found
  · rename_i read
    cases found
    rw [readWithin_lineFeed more read]
  · cases found

theorem next_lineFeed_of_none {cursor behind : Cursor}
    (found : cursor.next = (.ok none, behind)) :
    (cursor.before more).next = next ⟨cursor.source, behind.line + 1, more⟩ := by
  rcases blanks : cursor.skipBlanks.rest with _ | ⟨first, rest⟩
  · rw [next_of_nil blanks] at found
    cases found
    rw [next, skipBlanks_lineFeed_of_nil more blanks, next]
  · rw [next_of_cons blanks] at found
    split at found <;> cases found

end Cursor

/-- All that is read from one text and then from another one. -/
def Document.append (first second : Document) : Document :=
  ⟨first.data ++ second.data, second.failure, second.final⟩

/-- Everything before a line feed is read as if the text ended there, and what follows as
if it stood alone, on the next line. -/
theorem Document.read_lineFeed (more : List Char) {cursor : Cursor}
    (clean : (read cursor).failure = none) :
    read (cursor.before more) =
      (read cursor).append (read ⟨cursor.source, (read cursor).final.line + 1, more⟩) := by
  fun_induction read cursor with
  | case1 cursor behind found =>
      rw [read_eq, Cursor.next_lineFeed_of_none more found, ← read_eq]
      rfl
  | case2 cursor error behind found => cases clean
  | case3 cursor datum behind found further induction =>
      have sameSource : behind.source = cursor.source := by
        have scans := cursor.next_scans
        rw [found] at scans
        exact scans.1
      rw [read_eq, Cursor.next_lineFeed_of_some more found]
      simp only [induction clean, sameSource]
      rfl

/-- If a text can be read to its end, then that text, a line feed and another text are
read as the data of the first and then all that is read from the other; only the lines
that the other text reports are further down, by the line on which the first one ends. -/
theorem read_joined (source text other : String)
    (clean : (Document.ofText source text).failure = none) :
    let first := Document.ofText source text
    let second := Document.ofText source other
    Document.ofText source (text ++ "\n" ++ other) =
      { data := first.data ++ second.data
        failure := second.failure.map (ReadError.later first.final.line)
        final := second.final.later first.final.line } := by
  intro first second
  have start : Cursor.start source (text ++ "\n" ++ other) =
      (Cursor.start source text).before other.toList := by
    simp [Cursor.start, Cursor.before, String.toList_append]
  have further : Document.read ⟨source, first.final.line + 1, other.toList⟩ =
      second.later first.final.line := by
    rw [Nat.add_comm]
    exact Document.read_later first.final.line (Cursor.start source other)
  calc Document.ofText source (text ++ "\n" ++ other)
      = Document.read ((Cursor.start source text).before other.toList) :=
        congrArg Document.read start
    _ = first.append (Document.read ⟨source, first.final.line + 1, other.toList⟩) :=
        Document.read_lineFeed other.toList clean
    _ = first.append (second.later first.final.line) := congrArg first.append further

/-- The first text ends in a comment on its second line, and the second one has a fault on
its second line. -/
theorem read_joined_comment :
    let text := "(a\n. \"b\") ;c"
    let other := "d\n)"
    (Document.ofText "" text).failure = none ∧
      (Document.ofText "" (text ++ "\n" ++ other)).data =
        [.pair () (.symbol ⟨"a"⟩) (.string () "b"), .symbol ⟨"d"⟩] ∧
      (Document.ofText "" (text ++ "\n" ++ other)).failure =
        some ⟨"", 4, .unexpectedCharacter ')'⟩ := by
  intro text other
  have list : (Cursor.start "" text).next =
      (.ok (some (.pair () (.symbol ⟨"a"⟩) (.string () "b"))), ⟨"", 2, [' ', ';', 'c']⟩) := by cbv
  have comment : (⟨"", 2, [' ', ';', 'c']⟩ : Cursor).next = (.ok none, ⟨"", 2, []⟩) := by cbv
  have symbol : (Cursor.start "" other).next =
      (.ok (some (.symbol ⟨"d"⟩)), ⟨"", 1, ['\n', ')']⟩) := by cbv
  have fault : (⟨"", 1, ['\n', ')']⟩ : Cursor).next =
      (.error ⟨"", 2, .unexpectedCharacter ')'⟩, ⟨"", 2, [')']⟩) := by cbv
  have first : Document.ofText "" text =
      ⟨[.pair () (.symbol ⟨"a"⟩) (.string () "b")], none, ⟨"", 2, []⟩⟩ := by
    rw [Document.ofText, Document.read_eq, list]
    dsimp only
    rw [Document.read_eq, comment]
  have second : Document.ofText "" other =
      ⟨[.symbol ⟨"d"⟩], some ⟨"", 2, .unexpectedCharacter ')'⟩, ⟨"", 2, [')']⟩⟩ := by
    rw [Document.ofText, Document.read_eq, symbol]
    dsimp only
    rw [Document.read_eq, fault]
  have clean : (Document.ofText "" text).failure = none := congrArg Document.failure first
  refine ⟨clean, ?_⟩
  rw [read_joined "" text other clean, first, second]
  exact ⟨rfl, rfl⟩

end SmallScheme
