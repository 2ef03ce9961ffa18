import Mathlib
import SmallScheme.Proofs.Rounds

namespace SmallScheme

/-! # Lines

The line of a cursor counts the line feeds before it, all but those that stand behind
a `\` in a string. Which these are is told by a scan that knows nothing of data: in
code, a double quote opens a string and a semicolon a comment.

Everything that reads passes over its text as the scan does, and stands in code again
behind it or has come to the end of the text. So the count holds after any number of
calls, also after calls that failed. -/

/-! ## The scan -/

/-- What the next character of a source text belongs to. -/
inductive Zone where
  | code
  | comment
  | string
  /-- Behind a `\` in a string. -/
  | escape
  deriving DecidableEq, Repr

namespace Zone

/-- The zone behind a character. -/
def after : Zone → Char → Zone
  | .code, '"' => .string
  | .code, ';' => .comment
  | .comment, '\n' => .code
  | .string, '"' => .code
  | .string, '\\' => .escape
  | .escape, _ => .string
  | zone, _ => zone

theorem after_comment {character : Char} (sameLine : character ≠ '\n') :
    comment.after character = .comment := by
  unfold after
  split <;> simp_all

theorem after_string {character : Char} (notQuote : character ≠ '"')
    (notBackslash : character ≠ '\\') : string.after character = .string := by
  unfold after
  split <;> simp_all

/-- How many line feeds of a text stand behind a `\` in a string. -/
def escapedLineFeeds (zone : Zone) : List Char → Nat
  | [] => 0
  | character :: text =>
      (zone.after character).escapedLineFeeds text +
        if zone = .escape ∧ character = '\n' then 1 else 0

example : code.escapedLineFeeds "\"\\\n\n\" ;\"\\\n\n".toList = 1 := by decide

end Zone

/-- From a line and a text on, the line and the text that are left once characters were
passed over. Passing ends in code or at the end of the text. -/
inductive Scans : Zone → Nat → List Char → Nat → List Char → Prop
  | stop (line : Nat) (text : List Char) : Scans .code line text line text
  | finish (zone : Zone) (line : Nat) : Scans zone line [] line []
  | lineFeed {zone : Zone} {line last : Nat} {text rest : List Char} :
      zone ≠ .escape → Scans (zone.after '\n') (line + 1) text last rest →
      Scans zone line ('\n' :: text) last rest
  | other {zone : Zone} {line last : Nat} {character : Char} {text rest : List Char} :
      zone = .escape ∨ character ≠ '\n' → Scans (zone.after character) line text last rest →
      Scans zone line (character :: text) last rest

namespace Scans

variable {zone : Zone} {line middle last : Nat} {text between rest : List Char}

theorem trans (first : Scans zone line text middle between)
    (second : Scans .code middle between last rest) : Scans zone line text last rest := by
  induction first with
  | stop => exact second
  | finish =>
      cases second with
      | stop => exact .finish _ _
      | finish => exact .finish _ _
  | lineFeed counted _ induction => exact .lineFeed counted (induction second)
  | other uncounted _ induction => exact .other uncounted (induction second)

/-- The line feeds that were passed over are counted, but for the escaped ones. -/
theorem exists_passed (scans : Scans zone line text last rest) :
    ∃ passed, passed ++ rest = text ∧
      last + zone.escapedLineFeeds passed = line + passed.count '\n' := by
  induction scans with
  | stop => exact ⟨[], rfl, rfl⟩
  | finish => exact ⟨[], rfl, rfl⟩
  | lineFeed counted _ induction =>
      rcases induction with ⟨passed, rfl, count⟩
      refine ⟨'\n' :: passed, rfl, ?_⟩
      rw [Zone.escapedLineFeeds, if_neg fun escaped => counted escaped.1, List.count_cons_self]
      omega
  | @other zone _ _ character _ _ uncounted _ induction =>
      rcases induction with ⟨passed, rfl, count⟩
      refine ⟨character :: passed, rfl, ?_⟩
      rw [Zone.escapedLineFeeds]
      by_cases lineFeed : character = '\n'
      · subst lineFeed
        have escaped : zone = .escape := uncounted.resolve_right (absurd rfl)
        rw [if_pos ⟨escaped, rfl⟩, List.count_cons_self]
        omega
      · rw [if_neg fun escaped => lineFeed escaped.2, List.count_cons_of_ne lineFeed]
        exact count

/-! Outside of strings and comments, most characters are passed over one by one. -/

/-- A character that does not count as a line and opens neither a string nor a comment. -/
def IsPlain (character : Char) : Prop :=
  character ≠ '\n' ∧ character ≠ '"' ∧ character ≠ ';'

instance (character : Char) : Decidable (IsPlain character) :=
  inferInstanceAs (Decidable (character ≠ '\n' ∧ character ≠ '"' ∧ character ≠ ';'))

theorem plain {character : Char} (isPlain : IsPlain character)
    (scans : Scans .code line text last rest) : Scans .code line (character :: text) last rest := by
  refine .other (.inr isPlain.1) ?_
  have same : Zone.code.after character = .code := by
    unfold Zone.after
    split <;> simp_all [IsPlain]
  rwa [same]

theorem dropWhile {test : Char → Bool} (passes : ∀ character, test character → IsPlain character)
    (line : Nat) (text : List Char) : Scans .code line text line (text.dropWhile test) := by
  induction text with
  | nil => exact .finish _ _
  | cons character text induction =>
      by_cases here : test character
      · rw [List.dropWhile_cons_of_pos here]
        exact .plain (passes character here) induction
      · rw [List.dropWhile_cons_of_neg here]
        exact .stop _ _

end Scans

/-! ## Numerals -/

namespace Numeral

open Scans

theorem isPlain_of_isDigit (character : Char) (digit : character.isDigit) :
    IsPlain character := by
  refine ⟨?_, ?_, ?_⟩ <;> rintro rfl <;> exact absurd digit (by decide)

theorem unsigned_scans (line : Nat) (text : List Char) :
    Scans .code line text line (unsigned text).2 := by
  have whole := Scans.dropWhile isPlain_of_isDigit line text
  unfold unsigned
  split
  · rename_i behind found
    rw [found] at whole
    have fraction := Scans.dropWhile isPlain_of_isDigit line behind
    have point := whole.trans (.plain (by decide) fraction)
    dsimp only
    split <;> exact point
  · dsimp only
    split <;> exact whole

theorem overDenominator_scans (numerator : Number) (line : Nat) (text : List Char) :
    Scans .code line text line (overDenominator numerator text).2 := by
  unfold overDenominator
  split
  · rename_i text
    have denominator := unsigned_scans line text
    split <;> rename_i read <;> rw [read] at denominator <;>
      exact .plain (by decide) denominator
  · exact .stop _ _

theorem withImaginaryPart_scans (realPart : Number) (negative : Bool) (line : Nat)
    (text : List Char) :
    Scans .code line text line (withImaginaryPart realPart negative text).2 := by
  have magnitude := unsigned_scans line text
  unfold withImaginaryPart
  dsimp only
  split
  · rename_i found
    rw [found] at magnitude
    exact magnitude.trans (.plain (by decide) (.stop _ _))
  · exact magnitude

theorem beforeImaginary_scans (realPart : Number) (line : Nat) (text : List Char) :
    Scans .code line text line (beforeImaginary realPart text).2 := by
  unfold beforeImaginary
  split
  · exact .plain (by decide) (withImaginaryPart_scans _ _ _ _)
  · exact .plain (by decide) (withImaginaryPart_scans _ _ _ _)
  · exact .stop _ _

theorem magnitude_scans (line : Nat) (text : List Char) :
    Scans .code line text line (magnitude text).2 := by
  have number := unsigned_scans line text
  unfold magnitude
  split
  · rename_i read
    rwa [read] at number
  · rename_i first behind read
    rw [read] at number
    have quotient := number.trans (overDenominator_scans first line behind)
    split <;> rename_i read <;> rw [read] at quotient
    · exact quotient
    · exact quotient.trans (beforeImaginary_scans _ _ _)

theorem read_scans (line : Nat) (text : List Char) :
    Scans .code line text line (read text).2 := by
  unfold read
  split
  · rename_i text
    have number := magnitude_scans line text
    split <;> rename_i read <;> rw [read] at number <;> exact .plain (by decide) number
  · exact .plain (by decide) (magnitude_scans _ _)
  · exact magnitude_scans _ _

end Numeral

/-! ## Cursors -/

namespace Cursor

open Scans

/-- One cursor stands behind another one in the same source, with its line counted. -/
def ScansTo (before after : Cursor) : Prop :=
  after.source = before.source ∧ Scans .code before.line before.rest after.line after.rest

theorem ScansTo.refl (cursor : Cursor) : cursor.ScansTo cursor :=
  ⟨rfl, .stop _ _⟩

theorem ScansTo.trans {first second third : Cursor} (one : first.ScansTo second)
    (two : second.ScansTo third) : first.ScansTo third :=
  ⟨two.1.trans one.1, one.2.trans two.2⟩

theorem skip_scans (comment : Bool) (line : Nat) (text : List Char) :
    Scans (if comment then .comment else .code) line text
      (skip comment line text).1 (skip comment line text).2 := by
  induction text generalizing comment line with
  | nil => exact .finish _ _
  | cons character text induction =>
      by_cases lineFeed : character = '\n'
      · subst lineFeed
        refine .lineFeed (by cases comment <;> decide) ?_
        cases comment <;> exact induction false (line + 1)
      cases comment with
      | true =>
          rw [skip, if_neg lineFeed, if_pos rfl]
          refine .other (.inr lineFeed) ?_
          rw [if_pos rfl, Zone.after_comment lineFeed]
          exact induction true line
      | false =>
          simp only [skip, lineFeed, Bool.false_eq_true, if_false]
          split
          · rename_i blank
            have isPlain : IsPlain character := by
              refine ⟨lineFeed, ?_, ?_⟩ <;> rintro rfl <;> exact absurd blank (by decide)
            exact .plain isPlain (induction false line)
          split
          · rename_i semicolon
            subst semicolon
            exact .other (.inr lineFeed) (induction true line)
          · exact .stop _ _

theorem skipBlanks_scans (cursor : Cursor) : cursor.ScansTo cursor.skipBlanks :=
  ⟨rfl, skip_scans false cursor.line cursor.rest⟩

/-- A backslash in a string is either the last character or escapes the next one. -/
theorem ne_backslash {character : Char} {rest : List Char}
    (notEnd : character = '\\' → rest = [] → False)
    (notEscape : ∀ escaped behind, character = '\\' → rest = escaped :: behind → False) :
    character ≠ '\\' := by
  rintro rfl
  cases rest with
  | nil => exact notEnd rfl rfl
  | cons escaped behind => exact notEscape escaped behind rfl rfl

theorem stringContents_scans (reversed : List Char) (line : Nat) (text : List Char) :
    Scans .string line text (stringContents reversed line text).2.1
      (stringContents reversed line text).2.2 := by
  fun_induction stringContents reversed line text with
  | case1 reversed line => exact .finish _ _
  | case2 reversed line => exact .other (.inr (by decide)) (.finish _ _)
  | case3 reversed line rest => exact .other (.inr (by decide)) (.stop _ _)
  | case4 reversed line escaped rest induction =>
      exact .other (.inr (by decide)) (.other (.inl rfl) induction)
  | case5 reversed line rest induction => exact .lineFeed (by decide) induction
  | case6 reversed line character rest notEnd notQuote notEscape notLineFeed induction =>
      have notBackslash := ne_backslash notEnd notEscape
      refine .other (.inr notLineFeed) ?_
      rw [Zone.after_string notQuote notBackslash]
      exact induction

/-! The cursor is put on characters that are neither blank nor the start of a comment. -/

theorem skip_head {comment : Bool} {line last : Nat} {text rest : List Char} {first : Char}
    (skipped : skip comment line text = (last, first :: rest)) :
    Text.isBlank first = false ∧ first ≠ ';' := by
  induction text generalizing comment line with
  | nil => cases skipped
  | cons character text induction =>
      unfold skip at skipped
      split at skipped
      · exact induction skipped
      split at skipped
      · exact induction skipped
      split at skipped
      · exact induction skipped
      split at skipped
      · exact induction skipped
      · rename_i notBlank notSemicolon
        cases skipped
        exact ⟨by simpa using notBlank, notSemicolon⟩

theorem skipBlanks_head {cursor : Cursor} {first : Char} {rest : List Char}
    (here : cursor.skipBlanks.rest = first :: rest) :
    Text.isBlank first = false ∧ first ≠ ';' :=
  skip_head (Prod.ext rfl here)

theorem symbolAt_scans (cursor : Cursor) {first : Char} {rest : List Char}
    (here : cursor.rest = first :: rest) (isPlain : IsPlain first) :
    cursor.ScansTo (cursor.symbolAt first rest).2 := by
  refine ⟨rfl, ?_⟩
  rw [here]
  refine .plain isPlain (.dropWhile ?_ _ _)
  intro character inside
  refine ⟨?_, ?_, ?_⟩ <;> rintro rfl <;> exact absurd inside (by decide)

theorem numberAt_scans (cursor : Cursor) : cursor.ScansTo cursor.numberAt.2 := by
  have number := Numeral.read_scans cursor.line cursor.rest
  unfold numberAt
  split <;> rename_i read <;> rw [read] at number <;> exact ⟨rfl, number⟩

theorem stringAt_scans (cursor : Cursor) {rest : List Char} (here : cursor.rest = '"' :: rest) :
    cursor.ScansTo (cursor.stringAt rest).2 := by
  have contents := stringContents_scans [] cursor.line rest
  have whole : Scans .code cursor.line cursor.rest (stringContents [] cursor.line rest).2.1
      (stringContents [] cursor.line rest).2.2 := by
    rw [here]
    exact .other (.inr (by decide)) contents
  unfold stringAt
  split <;> rename_i read <;> rw [read] at whole <;> exact ⟨rfl, whole⟩

theorem opening_scans (cursor : Cursor) {first : Char} {rest : List Char}
    (here : cursor.rest = first :: rest) (notBlank : Text.isBlank first = false)
    (notSemicolon : first ≠ ';') : cursor.ScansTo (cursor.opening first rest).2 := by
  have passing {rest : List Char} (isPlain : IsPlain first) (same : cursor.rest = first :: rest) :
      cursor.ScansTo { cursor with rest := rest } :=
    ⟨rfl, same ▸ .plain isPlain (.stop _ _)⟩
  unfold opening
  split
  · exact ⟨rfl, here ▸ .plain (by decide) (.plain (by decide) (.stop _ _))⟩
  · exact ⟨rfl, here ▸ .plain (by decide) (.plain (by decide) (.stop _ _))⟩
  · exact .refl cursor
  · exact passing (by decide) here
  · exact passing (by decide) here
  · exact cursor.stringAt_scans here
  · exact .refl cursor
  · exact .refl cursor
  · rename_i _ _ notQuote _ _ _ _ _
    split
    · exact cursor.numberAt_scans
    · refine cursor.symbolAt_scans here ⟨?_, notQuote, notSemicolon⟩
      rintro rfl
      exact absurd notBlank (by decide)

end Cursor

/-! ## Readings -/

namespace Reading

theorem complete_scans (datum : Source) (cursor : Cursor) (contexts : List Context) :
    cursor.ScansTo (complete datum cursor contexts).cursor := by
  induction contexts generalizing datum cursor with
  | nil => exact .refl cursor
  | cons context outer induction =>
      cases context with
      | list reversed => exact .refl cursor
      | quote => exact induction _ cursor
      | dotted reversed =>
          have blanks := cursor.skipBlanks_scans
          unfold complete
          dsimp only
          split
          · rename_i rest found
            have closing : cursor.ScansTo { cursor.skipBlanks with rest := rest } :=
              blanks.trans ⟨rfl, found ▸ .plain (by decide) (.stop _ _)⟩
            exact closing.trans (induction _ _)
          · exact blanks
          · exact blanks

theorem enter_scans (contexts : List Context) (cursor : Cursor) {first : Char}
    {rest : List Char} (here : cursor.rest = first :: rest)
    (notBlank : Text.isBlank first = false) (notSemicolon : first ≠ ';') :
    cursor.ScansTo (enter contexts cursor first rest).cursor := by
  have opened := cursor.opening_scans here notBlank notSemicolon
  unfold enter
  split <;> rename_i read <;> rw [read] at opened
  · exact opened
  · exact opened.trans (complete_scans _ _ contexts)
  · exact opened
  · exact opened

theorem advance_scans (contexts : List Context) (cursor : Cursor) :
    cursor.ScansTo (advance contexts cursor).cursor := by
  have blanks := cursor.skipBlanks_scans
  have passing {first : Char} {rest : List Char} (isPlain : Scans.IsPlain first)
      (found : cursor.skipBlanks.rest = first :: rest) :
      cursor.ScansTo { cursor.skipBlanks with rest := rest } :=
    blanks.trans ⟨rfl, found ▸ .plain isPlain (.stop _ _)⟩
  unfold advance
  dsimp only
  split
  · exact blanks
  · rename_i found
    exact (passing (by decide) found).trans (complete_scans _ _ _)
  · rename_i found
    exact passing (by decide) found
  · rename_i found _ _
    rcases Cursor.skipBlanks_head found with ⟨notBlank, notSemicolon⟩
    exact blanks.trans (enter_scans _ _ found notBlank notSemicolon)

end Reading

namespace Cursor

theorem readWithin_scans (contexts : List Context) (cursor : Cursor) :
    cursor.ScansTo (cursor.readWithin contexts).2 := by
  fun_induction readWithin contexts cursor with
  | case1 contexts cursor datum behind progress =>
      have round := Reading.advance_scans contexts cursor
      rwa [progress] at round
  | case2 contexts cursor fault behind progress =>
      have round := Reading.advance_scans contexts cursor
      rwa [progress] at round
  | case3 contexts cursor inner between progress induction =>
      have round := Reading.advance_scans contexts cursor
      rw [progress] at round
      exact round.trans induction

theorem next_scans (cursor : Cursor) : cursor.ScansTo cursor.next.2 := by
  have blanks := cursor.skipBlanks_scans
  have datum := blanks.trans (cursor.skipBlanks.readWithin_scans [])
  unfold next
  dsimp only
  split
  · exact blanks
  · split <;> rename_i read <;> rw [read] at datum <;> exact datum

/-- A fault is reported with the line on which reading stopped. -/
theorem line_of_next_error {cursor : Cursor} {error : ReadError}
    (failed : cursor.next.1 = .error error) : error.line = cursor.next.2.line := by
  revert failed
  unfold next
  dsimp only
  split
  · exact nofun
  split
  · exact nofun
  · rintro ⟨⟩
    rfl

/-- The cursor after reading `count` times, also after faults. -/
def after (cursor : Cursor) : Nat → Cursor
  | 0 => cursor
  | count + 1 => cursor.next.2.after count

theorem after_succ (cursor : Cursor) (count : Nat) :
    cursor.after (count + 1) = (cursor.after count).next.2 := by
  induction count generalizing cursor with
  | zero => rfl
  | succ count induction => exact induction cursor.next.2

theorem after_scans (cursor : Cursor) (count : Nat) : cursor.ScansTo (cursor.after count) := by
  induction count generalizing cursor with
  | zero => exact .refl cursor
  | succ count induction => exact cursor.next_scans.trans (induction _)

/-- The part of a text that stands before the cursor. -/
def passed (text : String) (cursor : Cursor) : List Char :=
  text.toList.take (text.toList.length - cursor.rest.length)

theorem passed_eq {text : String} {cursor : Cursor} {before : List Char}
    (whole : before ++ cursor.rest = text.toList) : cursor.passed text = before := by
  have length := congrArg List.length whole
  rw [List.length_append] at length
  have position : text.toList.length - cursor.rest.length = before.length := by omega
  rw [passed, position, ← whole, List.take_left]

end Cursor

/-- After any number of calls, also of calls that failed, the cursor divides the text in
two, and its line is 1 and the line feeds before it, all but those behind a `\` in a
string; so it counts all of them exactly if there is none of these. A fault has the line
of the cursor that it leaves behind. -/
theorem line_counts_unescaped (source text : String) (count : Nat) :
    let cursor := (Cursor.start source text).after count
    let passed := cursor.passed text
    passed ++ cursor.rest = text.toList ∧
      cursor.line + Zone.code.escapedLineFeeds passed = 1 + passed.count '\n' ∧
      (cursor.line = 1 + passed.count '\n' ↔ Zone.code.escapedLineFeeds passed = 0) ∧
      ∀ error, cursor.next.1 = .error error →
        error.line = ((Cursor.start source text).after (count + 1)).line := by
  intro cursor passed
  have scans : (Cursor.start source text).ScansTo cursor := Cursor.after_scans _ count
  obtain ⟨before, whole, counted⟩ := scans.2.exists_passed
  have same : passed = before := Cursor.passed_eq whole
  have line : cursor.line + Zone.code.escapedLineFeeds before = 1 + before.count '\n' := counted
  rw [same]
  refine ⟨whole, line, by omega, ?_⟩
  intro error failed
  rw [Cursor.after_succ]
  exact Cursor.line_of_next_error failed

/-- A string that holds a `\` and a line feed is passed over, and the cursor is still on
the first line; the fault behind it is reported there. -/
theorem line_misses_escaped :
    let text := "\"\\\n\" )"
    let cursor := (Cursor.start Document.unnamed text).after 1
    cursor.line ≠ 1 + (cursor.passed text).count '\n' ∧
      cursor.next.1 = .error ⟨Document.unnamed, 1, .unexpectedCharacter ')'⟩ := by
  cbv

end SmallScheme
