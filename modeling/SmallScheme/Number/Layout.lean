import SmallScheme.Number.Shortest

namespace SmallScheme.Number

/-! The text of a float: the shortest digits that read back, with a decimal
point while the leading digit stands between the fourth place after the point
and the sixteenth before it, and with an exponent otherwise. -/

/-- The decimal digits of a number, at least one. -/
def digitsText (number : Nat) : String :=
  String.ofList (Nat.toDigits 10 number)

private def zeros (count : Nat) : List Char :=
  List.replicate count '0'

/-- The text of an integer, `-` for a negative one. -/
def integerText (number : Int) : String :=
  match number with
  | .ofNat magnitude => digitsText magnitude
  | .negSucc below => "-" ++ digitsText (below + 1)

/-- Digits with a point among them: `point` digits stand before it, and at
least one on each side. -/
def positional (digits : List Char) (point : Int) : List Char :=
  let count := digits.length
  if point ≤ 0 then
    '0' :: '.' :: zeros (-point).toNat ++ digits
  else if (count : Int) ≤ point then
    digits ++ zeros (point.toNat - count) ++ ['.', '0']
  else
    digits.take point.toNat ++ '.' :: digits.drop point.toNat

/-- One digit before the point, the others after it, then the exponent of the
leading digit. -/
def scientific (digits : List Char) (exponent : Int) : List Char :=
  let mantissa :=
    match digits with
    | leading :: second :: more => leading :: '.' :: second :: more
    | short => short
  mantissa ++ 'e' :: (integerText exponent).toList

/-- A positive decimal in the notation that its leading digit asks for. -/
def Decimal.layout (decimal : Decimal) : String :=
  let digits := Nat.toDigits 10 decimal.digits
  let point := decimal.exponent + digits.length
  String.ofList <|
    if -4 < point ∧ point ≤ 16 then positional digits point
    else scientific digits (point - 1)

/-- The text of the float with the given bits. -/
def bitsText (bits : Nat) : String :=
  let magnitude := bits % Nat.pow 2 63
  let sign := if magnitude = bits then "" else "-"
  if 0x7FF0000000000000 < magnitude then "NaN"
  else if magnitude = 0x7FF0000000000000 then sign ++ "inf"
  else if magnitude = 0 then sign ++ "0.0"
  else sign ++ (Binary.ofBits magnitude).shortest.layout

/-- The text of a float. -/
def floatText (number : Float) : String :=
  bitsText number.toBits.toNat

example : bitsText 0x3FF0000000000000 = "1.0" := by decide +kernel
example : bitsText 0x8000000000000000 = "-0.0" := by decide +kernel
example : bitsText 0x4341C37937E08000 = "1e16" := by decide +kernel
example : bitsText 0x3F1A36E2EB1C432D = "0.0001" := by decide +kernel

end SmallScheme.Number
