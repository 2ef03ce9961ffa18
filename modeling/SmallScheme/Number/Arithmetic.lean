import SmallScheme.Number.Basic
import SmallScheme.Number.Hypotenuse

namespace SmallScheme

/-! Arithmetic. Integers stay exact or fail; a float operand makes the result a
float, a complex operand makes it complex. -/

inductive ArithmeticFault where
  | divisionByZero
  | overflow
  deriving DecidableEq, Repr

def ArithmeticFault.message : ArithmeticFault → String
  | .divisionByZero => "division by zero"
  | .overflow => "integer overflow"

namespace Number

/-- An exact result, which has to fit. -/
def checked (value : Int) : Except ArithmeticFault Int64 :=
  match fitInteger? value with
  | some fitted => .ok fitted
  | none => .error .overflow

/-- Combines two numbers in the wider of their representations. -/
def combine
    (integers : Int64 → Int64 → Except ArithmeticFault Number)
    (reals : Float → Float → Float)
    (complexes : Float × Float → Float × Float → Float × Float) :
    Number → Number → Except ArithmeticFault Number
  | .integer left, .integer right => integers left right
  | left, right =>
      if left.isComplex || right.isComplex then
        let (realPart, imaginaryPart) := complexes left.parts right.parts
        .ok (.complex realPart imaginaryPart)
      else .ok (.real (reals left.toFloat right.toFloat))

def add : Number → Number → Except ArithmeticFault Number :=
  combine
    (fun left right => .integer <$> checked (left.toInt + right.toInt))
    (fun left right => left + right)
    (fun (a, b) (c, d) => (a + c, b + d))

def subtract : Number → Number → Except ArithmeticFault Number :=
  combine
    (fun left right => .integer <$> checked (left.toInt - right.toInt))
    (fun left right => left - right)
    (fun (a, b) (c, d) => (a - c, b - d))

def multiply : Number → Number → Except ArithmeticFault Number :=
  combine
    (fun left right => .integer <$> checked (left.toInt * right.toInt))
    (fun left right => left * right)
    (fun (a, b) (c, d) => (a * c - b * d, a * d + b * c))

/-- The quotient of two integers: an integer if it is exact, a float if not. -/
def divideIntegers (left right : Int64) : Except ArithmeticFault Number :=
  if right = 0 then .error .divisionByZero
  else if Int.tmod left.toInt right.toInt = 0 then
    .integer <$> checked (Int.tdiv left.toInt right.toInt)
  else .ok (.real (left.toFloat / right.toFloat))

def divide : Number → Number → Except ArithmeticFault Number :=
  combine divideIntegers
    (fun left right => left / right)
    (fun (a, b) (c, d) =>
      let denominator := c * c + d * d
      ((a * c + b * d) / denominator, (b * c - a * d) / denominator))

/-! Division with remainder fails as a whole when the quotient does not fit,
also where only the remainder is asked for. -/

/-- The three results of dividing one integer by another. -/
inductive DivisionResult where
  | quotient
  | remainder
  | modulo
  deriving DecidableEq, Repr

/-- The quotient is cut towards zero, the remainder has the sign of the
dividend and the modulus that of the divisor. -/
def DivisionResult.of (left right : Int) : DivisionResult → Int
  | .quotient => Int.tdiv left right
  | .remainder => Int.tmod left right
  | .modulo => Int.fmod left right

def divideWhole (asked : DivisionResult) (left right : Int64) :
    Except ArithmeticFault Int64 := do
  if right = 0 then
    throw .divisionByZero
  let _ ← checked (Int.tdiv left.toInt right.toInt)
  checked (asked.of left.toInt right.toInt)

/-- The distance from zero. -/
def magnitude : Number → Except ArithmeticFault Number
  | .integer value => .integer <$> checked value.toInt.natAbs
  | .real value => .ok (.real value.abs)
  | .complex realPart imaginaryPart => .ok (.real (hypotenuse realPart imaginaryPart))

/-! ## Comparison -/

inductive Comparison where
  | equal
  | less
  | greater
  | atMost
  | atLeast
  deriving DecidableEq, Repr

/-- Integers compare exactly, all other pairs as floats. Only equality looks at
an imaginary part. -/
def Comparison.holds : Comparison → Number → Number → Bool
  | .equal, .integer left, .integer right => left == right
  | .less, .integer left, .integer right => left < right
  | .greater, .integer left, .integer right => right < left
  | .atMost, .integer left, .integer right => left ≤ right
  | .atLeast, .integer left, .integer right => right ≤ left
  | .equal, left, right =>
      left.parts.1 == right.parts.1 && left.parts.2 == right.parts.2
  | .less, left, right => left.toFloat < right.toFloat
  | .greater, left, right => right.toFloat < left.toFloat
  | .atMost, left, right => left.toFloat ≤ right.toFloat
  | .atLeast, left, right => right.toFloat ≤ left.toFloat

/-- Whether the relation holds between all neighbours. -/
def Comparison.chain (relation : Comparison) : List Number → Bool
  | left :: right :: more => relation.holds left right && relation.chain (right :: more)
  | _ => true

end Number

end SmallScheme
