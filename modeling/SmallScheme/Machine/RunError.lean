import SmallScheme.Primitive.Operation

namespace SmallScheme

/-! Why a run can fail. -/

inductive RunError where
  | unbound (name : Symbol)
  /-- A procedure was called with a number of arguments that it does not take. -/
  | arity (procedure : Procedure) (given : Nat)
  | notCallable (value : Value)
  | primitive (operation : Primitive) (fault : PrimitiveFault)
  /-- Evaluations were nested deeper than the limit. -/
  | tooDeep

def Arity.text (arity : Arity) : String :=
  let required := Number.digitsText arity.required
  if arity.rest then "at least " ++ required else required

def RunError.message : RunError → String
  | .unbound name => "unbound variable: " ++ name.name
  | .arity procedure given =>
      procedure.text ++ ": expected " ++ procedure.arity.text ++ " argument(s), given " ++
        Number.digitsText given
  | .notCallable value => "not a procedure: " ++ value.text
  | .primitive operation fault => operation.name ++ ": " ++ fault.message
  | .tooDeep => "maximum recursion depth exceeded"

end SmallScheme
