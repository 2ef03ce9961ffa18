import SmallScheme.Session

namespace SmallScheme

/-! The two command lines: one that evaluates, and one that shows how expressions
compile. Both are functions from what they are given to what they print. -/

/-- What a command leaves behind. -/
structure Transcript where
  stdout : String
  stderr : String
  exitCode : Nat
  deriving DecidableEq, Repr

namespace Shell

/-! ## Lines -/

/-- The lines of a text, each with its ending. -/
def lines (text : String) : List String :=
  go [] text.toList
where
  go (reversed : List Char) : List Char → List String
    | [] => if reversed = [] then [] else [String.ofList reversed.reverse]
    | '\n' :: rest => String.ofList ('\n' :: reversed).reverse :: go [] rest
    | character :: rest => go (character :: reversed) rest

/-- A line without its ending, which is a line feed or a carriage return and a
line feed. -/
def withoutEnding (line : String) : String :=
  match line.toList.reverse with
  | '\n' :: '\r' :: reversed => String.ofList reversed.reverse
  | '\n' :: reversed => String.ofList reversed.reverse
  | _ => line

example : lines "a\nb" = ["a\n", "b"] := by decide +kernel
example : withoutEnding "a\r\n" = "a" := by decide +kernel

/-! ## Settings -/

/-- A depth limit from a setting: decimal digits, perhaps with a plus sign, for a
number of at most 64 bits. -/
def limit? (setting : String) : Option Nat :=
  let digits :=
    match setting.toList with
    | '+' :: digits => digits
    | digits => digits
  if digits ≠ [] ∧ digits.all Char.isDigit then
    let value := Numeral.digitsValue digits
    if value < UInt64.size then some value else none
  else none

example : limit? "+12" = some 12 := by decide +kernel
example : limit? "12 " = none := by decide +kernel
example : limit? "18446744073709551616" = none := by decide +kernel

/-- A standard session with the limit that a setting asks for. -/
def session (setting : Option String) : Session :=
  match setting.bind limit? with
  | some limit => { Session.standard with limit := limit }
  | none => Session.standard

/-! ## Evaluating -/

/-- The line that is printed for a result. -/
def answer : Except EvalError Value → String
  | .ok value => "=> " ++ value.text ++ "\n"
  | .error error => "!> " ++ error.message ++ "\n"

/-- Evaluates the data of a line up to the first failure, and prints a line for
each of them after the text that it wrote itself. -/
def evalLineData (session : Session) (printed : String) :
    List Source → Option (String × Bool × Session)
  | [] => some (printed, true, session)
  | datum :: data =>
      match session.evalDatum Session.lifetime datum with
      | none => none
      | some (result, session) =>
          let (output, _, session) := session.collect
          let printed := printed ++ output ++ answer result
          match result with
          | .ok _ => evalLineData session printed data
          | .error _ => some (printed, false, session)

/-- Evaluates a line. -/
def evalLine (session : Session) (line : String) : Option (String × Session) := do
  let document := Document.ofText Document.unnamed (withoutEnding line)
  let (printed, succeeded, session) ← evalLineData session "" document.data
  match succeeded, document.failure with
  | true, some failure => return (printed ++ answer (.error (.read failure)), session)
  | _, _ => return (printed, session)

def evalLines (session : Session) (printed : String) : List String → Option String
  | [] => some printed
  | line :: lines => do
      let (output, session) ← evalLine session line
      evalLines session (printed ++ output) lines

/-- Evaluates standard input line by line. -/
def interactive (setting : Option String) (input : String) : Option Transcript := do
  let printed ← evalLines (session setting) "" (lines input)
  return ⟨printed, "", 0⟩

/-- Evaluates the text of a file. Counts of steps go to the error stream. -/
def evalFile (setting : Option String) (counting : Bool) (name text : String) :
    Option Transcript := do
  let session := session setting
  let session := if counting then session.counting else session
  let (result, session) ← session.eval Session.lifetime (Document.ofText name text)
  let report :=
    match session.world.tally with
    | some tally => tally.report ++ "\n"
    | none => ""
  match result with
  | .ok _ => return ⟨session.world.output, report, 0⟩
  | .error error => return ⟨session.world.output ++ answer (.error error), report, 1⟩

/-- Why a file cannot be evaluated. -/
inductive FileFault where
  | missing
  | notText
  deriving DecidableEq, Repr

def FileFault.message : FileFault → String
  | .missing => "No such file or directory (os error 2)"
  | .notText => "stream did not contain valid UTF-8"

/-- The text in the bytes of a file, if there is a file. -/
def fileText : Option ByteArray → Except FileFault String
  | none => .error .missing
  | some bytes =>
      match String.fromUTF8? bytes with
      | some text => .ok text
      | none => .error .notText

/-- Evaluates a file, given its bytes. -/
def file (setting : Option String) (counting : Bool) (name : String)
    (bytes : Option ByteArray) : Option Transcript :=
  match fileText bytes with
  | .ok text => evalFile setting counting name text
  | .error fault =>
      some ⟨"", "Unable to read " ++ name ++ ": " ++ fault.message ++ "\n", 1⟩

/-! ## Showing compiled expressions -/

/-- The node tree of a datum in full, or what is wrong with it. -/
def showCompiled (datum : Source) : String :=
  match Node.ofDatum (Value.place 0 datum).1 with
  | .ok node => node.outline.indented ++ "\n"
  | .error error => "Invalid expression: " ++ error.message ++ "\n"

/-- Shows every datum of a line. -/
def compileLine (line : String) : String :=
  let document := Document.ofText Document.unnamed line
  let shown := String.join (document.data.map showCompiled)
  match document.failure with
  | some failure => shown ++ "Invalid datum: " ++ failure.message ++ "\n"
  | none => shown

def prompt : String := "> "

/-- Shows standard input line by line, with a prompt before each line and before
the end. -/
def compiling (input : String) : Transcript :=
  ⟨String.join ((lines input).map fun line => prompt ++ compileLine line) ++ prompt, "", 0⟩

end Shell

end SmallScheme
