import SmallScheme.Text.CharacterClass

namespace SmallScheme.Text

/-! White space, as the standard property of that name lists it: 25 characters,
of which only the line feed ends a line. -/

/-- The runs of white space. -/
def blanks : CharacterClass :=
  [(0x0009, 0x000D), (0x0020, 0x0020), (0x0085, 0x0085), (0x00A0, 0x00A0),
   (0x1680, 0x1680), (0x2000, 0x200A), (0x2028, 0x2029), (0x202F, 0x202F),
   (0x205F, 0x205F), (0x3000, 0x3000)]

/-- White space separates data and is otherwise ignored. -/
def isBlank (character : Char) : Bool :=
  blanks.contains character

example : isBlank '\n' = true := by decide
example : isBlank '　' = true := by decide
example : isBlank 'a' = false := by decide

/-- Runs are disjoint, and together they hold 25 characters. -/
example : (blanks.map fun (first, last) => last + 1 - first).sum = 25 := by decide

end SmallScheme.Text
