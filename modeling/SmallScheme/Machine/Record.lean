import SmallScheme.Machine.RunError
import SmallScheme.Outline.Node

namespace SmallScheme

/-! Records of what a session does: each program before and after its run, and,
when asked for, every step of the run. -/

/-- How much is recorded. -/
inductive Watch where
  | nothing
  | programs
  | steps
  deriving DecidableEq, Repr

inductive Record where
  /-- A datum was compiled. -/
  | compiled (datum : Value) (code : Node)
  /-- A run ended. -/
  | finished (outcome : Except RunError Value)
  /-- A step was executed on a node, at a depth that counts from 1. -/
  | step (depth : Nat) (kind : Kind)
  /-- A loop goes on to its next round. -/
  | nextRound
  /-- The body of a procedure takes the place of a call. -/
  | tailCall (procedure : Procedure)

/-! ## Texts -/

def Expected.outline (expected : Expected) : Outline :=
  .quoted expected.text

def PrimitiveFault.outline : PrimitiveFault → Outline
  | .wrongType expected got =>
      .record "WrongType" [("expected", expected.outline), ("got", .quoted got.text)]
  | .arithmetic .divisionByZero => .leaf "DivisionByZero"
  | .arithmetic .overflow => .leaf "Overflow"

def RunError.outline : RunError → Outline
  | .unbound name => .tuple "UnboundVariable" [name.outline]
  | .arity procedure given =>
      .record "Arity" [("procedure", .quoted procedure.text),
        ("expected", procedure.arity.outline), ("given", .leaf (Number.digitsText given))]
  | .notCallable value => .tuple "NonCallable" [.quoted value.text]
  | .primitive operation fault =>
      .record "Primitive" [("name", .quoted operation.name), ("error", fault.outline)]
  | .tooDeep => .leaf "StackOverflow"

def outcomeOutline : Except RunError Value → Outline
  | .ok value => .tuple "Ok" [value.outline]
  | .error error => .tuple "Err" [error.outline]

namespace Record

/-- A record of a step is more detailed than one of a program. -/
def detail : Record → Watch
  | .compiled .. => .programs
  | .finished _ => .programs
  | _ => .steps

def message : Record → String
  | .compiled datum code => "Compiled " ++ datum.text ++ " into " ++ code.outline.onOneLine
  | .finished outcome => "Run finished with " ++ (outcomeOutline outcome).onOneLine
  | .step depth kind => "depth " ++ Number.digitsText depth ++ "\tnode " ++ kind.name
  | .nextRound => "do: next round"
  | .tailCall procedure => "tail call into " ++ procedure.text

/-- The line that is written for a record. -/
def text (record : Record) : String :=
  let level :=
    match record.detail with
    | .steps => "TRACE "
    | _ => "DEBUG "
  level ++ record.message

end Record

end SmallScheme
