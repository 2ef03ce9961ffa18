import SmallScheme.Number.Layout

namespace SmallScheme

/-! What can be wrong with source text. -/

inductive ReadFault where
  | unexpectedEnd
  | unexpectedCharacter (character : Char)
  | missingDenominator
  | missingImaginaryUnit
  | unterminatedString
  | vectorsUnsupported
  deriving DecidableEq, Repr

def ReadFault.message : ReadFault → String
  | .unexpectedEnd => "unexpected end of code"
  | .unexpectedCharacter character => "unexpected character `" ++ character.toString ++ "`"
  | .missingDenominator => "invalid number format, expecting denominator"
  | .missingImaginaryUnit => "invalid number format, expecting 'i' for complex"
  | .unterminatedString => "unterminated string"
  | .vectorsUnsupported => "vectors are not supported"

/-- A fault and where it was met: the name of the source and the line. -/
structure ReadError where
  source : String
  line : Nat
  fault : ReadFault
  deriving DecidableEq, Repr

def ReadError.message (error : ReadError) : String :=
  error.source ++ ":" ++ Number.digitsText error.line ++ " " ++ error.fault.message

end SmallScheme
