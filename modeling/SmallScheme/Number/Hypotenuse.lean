import SmallScheme.Number.Nearest
import SmallScheme.Number.Shortest

namespace SmallScheme.Number

/-! The magnitude of a complex number. The sum of squares is exact, so nothing
overflows or vanishes on the way, and only the final root is rounded. -/

/-- The largest number whose square is at most `value`. -/
def squareRoot (value : Nat) : Nat :=
  if small : value = 0 then 0
  else
    let doubled := 2 * squareRoot (value / 4)
    if (doubled + 1) * (doubled + 1) ≤ value then doubled + 1 else doubled
termination_by value
decreasing_by omega

/-- The root of `value * 2 ^ (2 * exponent)`, rounded to the nearest float. The
root is taken with 64 more binary places; what is cut off after them counts as
half a place, which decides every rounding as the exact root would. -/
def rootOfSquares (value : Nat) (exponent : Int) : Float :=
  let scaled := value * Nat.pow 2 128
  let root := squareRoot scaled
  let doubled := if root * root = scaled then 2 * root else 2 * root + 1
  let power := exponent - 65
  nearest (doubled * Nat.pow 2 power.toNat) (Nat.pow 2 (-power).toNat)

/-- The length of the hypotenuse over two finite sides given by the bits of
their magnitudes. -/
def hypotenuseOfBits (left right : Nat) : Float :=
  let left := Binary.ofBits left
  let right := Binary.ofBits right
  let exponent := min left.exponent right.exponent
  let square (side : Binary) : Nat :=
    let length := side.units * Nat.pow 2 (side.exponent - exponent).toNat
    length * length
  rootOfSquares (square left + square right) exponent

/-- The length of the hypotenuse. An infinite side makes it infinite, even
beside a side that is not a number. -/
def hypotenuse (left right : Float) : Float :=
  if left.isInf || right.isInf then Float.ofBits infinityBits.toUInt64
  else if left.isNaN || right.isNaN then left + right
  else hypotenuseOfBits left.abs.toBits.toNat right.abs.toBits.toNat

end SmallScheme.Number
