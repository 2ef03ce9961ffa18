import SmallScheme.Datum.Basic
import SmallScheme.Text.Quoted

namespace SmallScheme

/-! The written form of data: what a session shows for a value. Apart from
procedures, it can be read back. -/

def Procedure.text : Procedure → String
  | .primitive operation => "#<primitive " ++ operation.name ++ ">"
  | .compound _ (some name) _ => "#<procedure " ++ name.name ++ ">"
  | .compound _ none _ => "#<procedure>"

namespace Datum

variable {ι : Type}

/-- The written form of a datum that is not a pair. -/
def atomText : Datum ι → String
  | .nil => "()"
  | .boolean true => "#t"
  | .boolean false => "#f"
  | .number value => value.text
  | .string _ contents => Text.quoted Text.inString contents
  | .symbol ⟨name⟩ => name
  | .pair .. => ""
  | .procedure callee => callee.text

mutual

/-- Writes a datum behind `before`. -/
def write (before : String) : Datum ι → String
  | .pair _ car cdr => writeRest (write (before.push '(') car) cdr
  | atom => before ++ atom.atomText

/-- Writes the rest of an open list: each further element after a blank, and
anything but the empty list after a dot. -/
def writeRest (before : String) : Datum ι → String
  | .nil => before.push ')'
  | .pair _ car cdr => writeRest (write (before.push ' ') car) cdr
  | atom => (before ++ " . " ++ atom.atomText).push ')'

end

/-- The written form of a datum. -/
def text (datum : Datum ι) : String :=
  datum.write ""

/-- The form that `display` prints: a string shows its bare contents, anything
else its written form. -/
def displayed : Datum ι → String
  | .string _ contents => contents
  | datum => datum.text

end Datum

end SmallScheme
