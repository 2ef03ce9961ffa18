import SmallScheme.Number.Layout

namespace SmallScheme

/-! Numbers: 64-bit integers, 64-bit floats, and complex numbers with float
parts. A number keeps the representation it was written or computed in. -/

inductive Number where
  | integer (value : Int64)
  | real (value : Float)
  | complex (realPart imaginaryPart : Float)

namespace Number

/-- The 64-bit integer equal to `value`, if there is one. -/
def fitInteger? (value : Int) : Option Int64 :=
  if Int64.minValue.toInt ≤ value ∧ value ≤ Int64.maxValue.toInt then
    some (Int64.ofInt value)
  else none

example : fitInteger? 9223372036854775807 = some 9223372036854775807 := by decide
example : fitInteger? 9223372036854775808 = none := by decide
example : fitInteger? (-9223372036854775808) = some (-9223372036854775808) := by decide

/-- The nearest float, leaving out an imaginary part. -/
def toFloat : Number → Float
  | .integer value => value.toFloat
  | .real value => value
  | .complex realPart _ => realPart

/-- The real and the imaginary part. -/
def parts : Number → Float × Float
  | .complex realPart imaginaryPart => (realPart, imaginaryPart)
  | number => (number.toFloat, 0.0)

def isComplex : Number → Bool
  | .complex .. => true
  | _ => false

/-- A whole number, in any representation of the real line. -/
def isWhole : Number → Bool
  | .integer _ => true
  | .real value => value.isFinite && value.floor == value
  | .complex .. => false

/-- The opposite number. The opposite of the least integer is itself: no
literal and no checked computation gets there. -/
def negate : Number → Number
  | .integer value => .integer (-value)
  | .real value => .real (-value)
  | .complex realPart imaginaryPart => .complex (-realPart) (-imaginaryPart)

/-- The written form. A complex number shows the sign of its imaginary part
between the parts, `-` only below zero. -/
def text : Number → String
  | .integer value => integerText value.toInt
  | .real value => floatText value
  | .complex realPart imaginaryPart =>
      let sign := if imaginaryPart < 0.0 then "-" else "+"
      floatText realPart ++ sign ++ floatText imaginaryPart.abs ++ "i"

/-- Equality within one representation. Floats compare by value, so that zeros
of both signs are equal and nothing is equal to what is not a number. -/
def same : Number → Number → Bool
  | .integer left, .integer right => left == right
  | .real left, .real right => left == right
  | .complex left leftImaginary, .complex right rightImaginary =>
      left == right && leftImaginary == rightImaginary
  | _, _ => false

end Number

end SmallScheme
