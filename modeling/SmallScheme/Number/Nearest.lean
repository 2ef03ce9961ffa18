namespace SmallScheme.Number

/-! Rounding of exact ratios to the nearest 64-bit float. -/

/-- The integer nearest to `numerator / denominator`; a half goes to the even
neighbour. -/
def roundHalfEven (numerator denominator : Nat) : Nat :=
  let quotient := numerator / denominator
  match compare (2 * (numerator % denominator)) denominator with
  | .lt => quotient
  | .gt => quotient + 1
  | .eq => quotient + quotient % 2

example : roundHalfEven 5 2 = 2 := by decide
example : roundHalfEven 7 2 = 4 := by decide
example : roundHalfEven 8 3 = 3 := by decide

/-- The least `exponent`, not below that of the smallest float, such that the
positive ratio is less than `2 ^ (exponent + 53)`. A float near the ratio is a
multiple of `2 ^ exponent`. -/
def unitExponent (numerator denominator : Nat) : Int :=
  let estimate : Int := (numerator.log2 : Int) - denominator.log2 - 53
  let fits := numerator * Nat.pow 2 (-estimate).toNat <
    Nat.pow 2 53 * denominator * Nat.pow 2 estimate.toNat
  max (if fits then estimate else estimate + 1) (-1074)

/-- The bits of positive infinity. All finite non-negative floats have smaller
bits, in the order of their values. -/
def infinityBits : Nat := 0x7FF0000000000000

/-- The bits of the float nearest to `numerator / denominator`, a half going to
the even neighbour and everything too large going to infinity. -/
def nearestBits (numerator denominator : Nat) : Nat :=
  if numerator = 0 then 0
  else
    let exponent := unitExponent numerator denominator
    let units := roundHalfEven (numerator * Nat.pow 2 (-exponent).toNat)
      (denominator * Nat.pow 2 exponent.toNat)
    let bits :=
      if units < Nat.pow 2 52 then units
      else (exponent + 1075).toNat * Nat.pow 2 52 + (units - Nat.pow 2 52)
    min bits infinityBits

/-- The float nearest to `numerator / denominator`. -/
def nearest (numerator denominator : Nat) : Float :=
  Float.ofBits (nearestBits numerator denominator).toUInt64

example : nearestBits 1 1 = 0x3FF0000000000000 := by decide +kernel
example : nearestBits 1 10 = 0x3FB999999999999A := by decide +kernel
example : nearestBits (2 ^ 53 + 1) 1 = 0x4340000000000000 := by decide +kernel
example : nearestBits 1 (2 ^ 1075) = 0 := by decide +kernel
example : nearestBits 3 (2 ^ 1075) = 2 := by decide +kernel
example : nearestBits (2 ^ 1024) 1 = infinityBits := by decide +kernel

end SmallScheme.Number
