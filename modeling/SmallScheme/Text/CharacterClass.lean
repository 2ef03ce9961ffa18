namespace SmallScheme.Text

/-! Character classes as tables of code points. -/

/-- A set of characters, given by the first and the last code point of each of
its runs. -/
abbrev CharacterClass := List (Nat × Nat)

/-- Whether a character lies in one of the runs. -/
def CharacterClass.contains (runs : CharacterClass) (character : Char) : Bool :=
  runs.any fun (first, last) => first ≤ character.toNat && character.toNat ≤ last

end SmallScheme.Text
