import SmallScheme.Datum.Basic
import SmallScheme.Source.Numeral
import SmallScheme.Text.Blank

namespace SmallScheme

/-! A cursor in a source text, and what can be read at it without looking into
a list: blanks and comments, and the first characters of a datum. -/

/-- What is left of a source text, and the line on which it starts. -/
structure Cursor where
  source : String
  line : Nat
  rest : List Char
  deriving DecidableEq, Repr

namespace Cursor

/-- A cursor before the first character of a text. -/
def start (source text : String) : Cursor :=
  ⟨source, 1, text.toList⟩

/-- A fault at the cursor. -/
def fail (cursor : Cursor) (fault : ReadFault) : ReadError :=
  ⟨cursor.source, cursor.line, fault⟩

/-! ## Blanks and comments -/

/-- Passes over blanks and comments and counts the lines. A comment goes from a
semicolon to the end of its line; `comment` tells that one is open. -/
def skip (comment : Bool) (line : Nat) : List Char → Nat × List Char
  | [] => (line, [])
  | character :: rest =>
      if character = '\n' then skip false (line + 1) rest
      else if comment then skip true line rest
      else if Text.isBlank character then skip false line rest
      else if character = ';' then skip true line rest
      else (line, character :: rest)

/-- The cursor at the next character that is neither blank nor in a comment. -/
def skipBlanks (cursor : Cursor) : Cursor :=
  let (line, rest) := skip false cursor.line cursor.rest
  ⟨cursor.source, line, rest⟩

/-! ## Strings -/

/-- The character that stands for `\` and a character in a string. -/
def unescape : Char → Char
  | 'n' => '\n'
  | 't' => '\t'
  | other => other

/-- The contents of a string up to its closing quote, behind the `reversed`
characters. Only a bare line feed counts as a line, not one behind a `\`. -/
def stringContents (reversed : List Char) (line : Nat) :
    List Char → Option String × Nat × List Char
  | [] => (none, line, [])
  | ['\\'] => (none, line, [])
  | '"' :: rest => (some (String.ofList reversed.reverse), line, rest)
  | '\\' :: escaped :: rest => stringContents (unescape escaped :: reversed) line rest
  | '\n' :: rest => stringContents ('\n' :: reversed) (line + 1) rest
  | character :: rest => stringContents (character :: reversed) line rest

/-! ## The start of a datum -/

/-- The characters that end a symbol. -/
def isDelimiter (character : Char) : Bool :=
  Text.isBlank character || ['(', ')', '\'', ',', '@', '.', '"', ';'].contains character

/-- What the first characters of a datum turn out to be. -/
inductive Opening where
  | datum (datum : Source)
  | list
  | quote

/-- A symbol: its first character, whatever that is, and all up to the next
delimiter. -/
def symbolAt (cursor : Cursor) (first : Char) (rest : List Char) : Opening × Cursor :=
  let name := first :: rest.takeWhile (!isDelimiter ·)
  (.datum (.symbol ⟨String.ofList name⟩),
    { cursor with rest := rest.dropWhile (!isDelimiter ·) })

/-- A numeric literal. -/
def numberAt (cursor : Cursor) : Except ReadFault Opening × Cursor :=
  match Numeral.read cursor.rest with
  | (.ok number, rest) => (.ok (.datum (.number number)), { cursor with rest := rest })
  | (.error fault, rest) => (.error fault, { cursor with rest := rest })

/-- A string, from behind its opening quote on. -/
def stringAt (cursor : Cursor) (rest : List Char) : Except ReadFault Opening × Cursor :=
  match stringContents [] cursor.line rest with
  | (some contents, line, rest) =>
      (.ok (.datum (.string () contents)), ⟨cursor.source, line, rest⟩)
  | (none, line, rest) => (.error .unterminatedString, ⟨cursor.source, line, rest⟩)

/-- Reads up to the end of an atom, or over the opening of a list or a quote. The
cursor stands on `first`, which is no blank, with `rest` behind it. -/
def opening (cursor : Cursor) (first : Char) (rest : List Char) :
    Except ReadFault Opening × Cursor :=
  match first, rest with
  | '#', 't' :: rest => (.ok (.datum (.boolean true)), { cursor with rest := rest })
  | '#', 'f' :: rest => (.ok (.datum (.boolean false)), { cursor with rest := rest })
  | '#', '(' :: _ => (.error .vectorsUnsupported, cursor)
  | '(', rest => (.ok .list, { cursor with rest := rest })
  | '\'', rest => (.ok .quote, { cursor with rest := rest })
  | '"', rest => cursor.stringAt rest
  | ')', _ => (.error (.unexpectedCharacter ')'), cursor)
  | '.', _ => (.error (.unexpectedCharacter '.'), cursor)
  | first, rest =>
      if Numeral.startsAt (first :: rest) then cursor.numberAt
      else
        let (symbol, cursor) := cursor.symbolAt first rest
        (.ok symbol, cursor)

/-! ## Reading moves on -/

theorem skip_length_le (comment : Bool) (line : Nat) (text : List Char) :
    (skip comment line text).2.length ≤ text.length := by
  induction text generalizing comment line with
  | nil => simp [skip]
  | cons character rest induction =>
      unfold skip
      split
      · exact Nat.le_succ_of_le (induction _ _)
      split
      · exact Nat.le_succ_of_le (induction _ _)
      split
      · exact Nat.le_succ_of_le (induction _ _)
      split
      · exact Nat.le_succ_of_le (induction _ _)
      · exact Nat.le_refl _

theorem skipBlanks_length_le (cursor : Cursor) :
    cursor.skipBlanks.rest.length ≤ cursor.rest.length :=
  skip_length_le false cursor.line cursor.rest

theorem stringContents_length_le (reversed : List Char) (line : Nat) (text : List Char) :
    (stringContents reversed line text).2.2.length ≤ text.length := by
  fun_induction stringContents reversed line text <;> simp_all <;> omega

/-- What is read at a character takes that character at least. -/
theorem opening_length_lt {cursor behind : Cursor} {first : Char} {rest : List Char}
    {found : Opening} (here : cursor.rest = first :: rest)
    (read : cursor.opening first rest = (.ok found, behind)) :
    behind.rest.length < cursor.rest.length := by
  unfold opening at read
  split at read
  · simp only [Prod.mk.injEq] at read
    simp only [← read.2, here, List.length_cons]
    omega
  · simp only [Prod.mk.injEq] at read
    simp only [← read.2, here, List.length_cons]
    omega
  · simp at read
  · simp only [Prod.mk.injEq] at read
    simp [← read.2, here]
  · simp only [Prod.mk.injEq] at read
    simp [← read.2, here]
  · unfold stringAt at read
    split at read
    · rename_i contents line left found
      have bound := stringContents_length_le [] cursor.line rest
      simp only [Prod.mk.injEq] at read
      rw [found] at bound
      simp only [← read.2, here, List.length_cons]
      exact Nat.lt_succ_of_le bound
    · simp at read
  · simp at read
  · simp at read
  · split at read
    · unfold numberAt at read
      split at read
      · rename_i number left found
        simp only [Prod.mk.injEq] at read
        simp only [← read.2]
        exact Numeral.read_length_lt found
      · simp at read
    · simp only [symbolAt, Prod.mk.injEq] at read
      have bound := Numeral.length_dropWhile_le (!isDelimiter ·) rest
      simp only [← read.2, here, List.length_cons]
      omega

end Cursor

end SmallScheme
