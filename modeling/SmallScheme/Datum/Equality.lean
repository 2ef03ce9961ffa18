import SmallScheme.Datum.Basic

namespace SmallScheme

/-! Equality of values. `eqv?` compares strings, pairs and compound procedures by
their places; `equal?` compares strings and pairs by their contents. -/

namespace Procedure

/-- Two procedures are the same if they are the same primitive or were made by
the same evaluation. -/
def same : Procedure → Procedure → Bool
  | .primitive left, .primitive right => left == right
  | .compound left _ _, .compound right _ _ => left == right
  | _, _ => false

end Procedure

namespace Value

/-- Equality of identity, which is `eqv?` and `eq?` alike. -/
def eqv : Value → Value → Bool
  | .nil, .nil => true
  | .boolean left, .boolean right => left == right
  | .number left, .number right => left.same right
  | .symbol left, .symbol right => left == right
  | .string left _, .string right _ => left == right
  | .pair left _ _, .pair right _ _ => left == right
  | .procedure left, .procedure right => left.same right
  | _, _ => false

/-- Whether two values are strings with the same contents. -/
def sameContents : Value → Value → Bool
  | .string _ left, .string _ right => left == right
  | _, _ => false

/-- Equality of contents, which is `equal?`. A pair is equal to itself without a
look at its contents. -/
def equal : Value → Value → Bool
  | .pair left leftCar leftCdr, .pair right rightCar rightCdr =>
      left == right || (equal leftCar rightCar && equal leftCdr rightCdr)
  | left, right => eqv left right || sameContents left right

end Value

end SmallScheme
