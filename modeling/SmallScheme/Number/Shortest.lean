namespace SmallScheme.Number

/-! The shortest decimal that reads back as a given 64-bit float. -/

/-- A finite non-negative float: `units * 2 ^ exponent`. -/
structure Binary where
  units : Nat
  exponent : Int
  /-- The float below is half as far away as the float above. -/
  narrowBelow : Bool
  deriving DecidableEq, Repr

/-- The magnitude that the bits of a finite float stand for. -/
def Binary.ofBits (bits : Nat) : Binary :=
  let biased : Nat := bits / Nat.pow 2 52 % Nat.pow 2 11
  let fraction : Nat := bits % Nat.pow 2 52
  if biased = 0 then ⟨fraction, -1074, false⟩
  else ⟨Nat.pow 2 52 + fraction, (biased : Int) - 1075, fraction = 0 && 1 < biased⟩

/-- A non-negative decimal: `digits * 10 ^ exponent`. -/
structure Decimal where
  digits : Nat
  exponent : Int
  deriving DecidableEq, Repr

/-- Compares `left * 10 ^ leftExponent` with `right * 2 ^ rightExponent`. -/
def compareScaled (left : Nat) (leftExponent : Int)
    (right : Nat) (rightExponent : Int) : Ordering :=
  compare (left * Nat.pow 10 leftExponent.toNat * Nat.pow 2 (-rightExponent).toNat)
    (right * Nat.pow 2 rightExponent.toNat * Nat.pow 10 (-leftExponent).toNat)

/-- Whether a decimal lies among the reals that round to a float: those up to
halfway to its neighbours, the ends included if its units are even. -/
def Binary.readsBack (value : Binary) (decimal : Decimal) : Bool :=
  let lower := if value.narrowBelow then 4 * value.units - 1 else 4 * value.units - 2
  let upper := 4 * value.units + 2
  let atEnds := value.units % 2 = 0
  let fromLower := compareScaled decimal.digits decimal.exponent lower (value.exponent - 2)
  let fromUpper := compareScaled decimal.digits decimal.exponent upper (value.exponent - 2)
  (fromLower = .gt || (atEnds && fromLower = .eq)) &&
    (fromUpper = .lt || (atEnds && fromUpper = .eq))

/-- Corrects an estimate upwards until `value < 10 ^ magnitude`. -/
def Binary.raiseMagnitude (value : Binary) : Nat → Int → Int
  | 0, estimate => estimate
  | tries + 1, estimate =>
      if compareScaled 1 estimate value.units value.exponent = .gt then estimate
      else value.raiseMagnitude tries (estimate + 1)

/-- The least `magnitude` with `value < 10 ^ magnitude`, for a positive value.
A binary digit is worth a little more than 1233 / 4096 decimal digits, so the
estimate is never too large and falls short by a few steps at most. -/
def Binary.magnitude (value : Binary) : Int :=
  let binary : Int := value.exponent + value.units.log2
  value.raiseMagnitude 8 (Int.fdiv (binary * 1233) 4096 - 1)

/-- The neighbours of a value on the grid of multiples of `10 ^ exponent`: the
largest multiple that is not above it, and the next one. -/
def Binary.floorOnGrid (value : Binary) (exponent : Int) : Nat :=
  (value.units * Nat.pow 2 value.exponent.toNat * Nat.pow 10 (-exponent).toNat) /
    (Nat.pow 10 exponent.toNat * Nat.pow 2 (-value.exponent).toNat)

/-- The neighbour on a grid that reads back. Of two, the closer one; a value
halfway between them takes the larger. -/
def Binary.onGrid? (value : Binary) (exponent : Int) : Option Decimal :=
  let below : Decimal := ⟨value.floorOnGrid exponent, exponent⟩
  let above : Decimal := ⟨value.floorOnGrid exponent + 1, exponent⟩
  match value.readsBack below, value.readsBack above with
  | true, true =>
      let middle := compareScaled (2 * below.digits + 1) exponent value.units (value.exponent + 1)
      some (if middle = .gt then below else above)
  | true, false => some below
  | false, true => some above
  | false, false => none

/-- Moves trailing zeros from the digits to the exponent. -/
def Decimal.stripZeros : Nat → Decimal → Decimal
  | 0, decimal => decimal
  | tries + 1, decimal =>
      if decimal.digits % 10 = 0 then
        stripZeros tries ⟨decimal.digits / 10, decimal.exponent + 1⟩
      else decimal

/-- The exact decimal value of a float. -/
def Binary.exactDecimal (value : Binary) : Decimal :=
  ⟨value.units * Nat.pow 2 value.exponent.toNat * Nat.pow 5 (-value.exponent).toNat,
    min value.exponent 0⟩

/-- The shortest decimal that reads back as a positive value, and of the
shortest the closest. Grids of one to seventeen digits are tried in turn. -/
def Binary.shortest (value : Binary) : Decimal :=
  let magnitude := value.magnitude
  let found := (List.range 17).findSome? fun (places : Nat) =>
    value.onGrid? (magnitude - (places + 1 : Nat))
  (found.getD value.exactDecimal).stripZeros 400

/-- The units at the ends of the interval of 1.0 belong to it. -/
example : (Binary.ofBits 0x3FF0000000000000).readsBack ⟨(2 ^ 53 + 1) * 5 ^ 53, -53⟩ = true := by
  decide +kernel
example :
    (Binary.ofBits 0x3FF0000000000000).readsBack ⟨(2 ^ 53 + 1) * 5 ^ 53 + 1, -53⟩ = false := by
  decide +kernel

example : (Binary.ofBits 0x3FB999999999999A).shortest = ⟨1, -1⟩ := by decide +kernel
example : (Binary.ofBits 1).shortest = ⟨5, -324⟩ := by decide +kernel
example : (Binary.ofBits 0x44B52D02C7E14AF6).shortest = ⟨1, 23⟩ := by decide +kernel
example : (Binary.ofBits 0x3E60000000000000).shortest = ⟨29802322387695313, -24⟩ := by
  decide +kernel

end SmallScheme.Number
