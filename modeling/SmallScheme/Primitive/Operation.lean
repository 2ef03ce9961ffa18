import SmallScheme.Datum.Equality
import SmallScheme.Datum.Printer
import SmallScheme.Number.Arithmetic

namespace SmallScheme

/-! What the primitive procedures do. A primitive may fail, may take new places
for the pairs it makes, and may write text. -/

/-- The type that an argument should have had. -/
inductive Expected where
  | number
  | realNumber
  | integer
  | pair
  | list
  deriving DecidableEq, Repr

def Expected.text : Expected → String
  | .number => "number"
  | .realNumber => "real number"
  | .integer => "integer"
  | .pair => "pair"
  | .list => "list"

/-- Why a primitive failed. -/
inductive PrimitiveFault where
  | wrongType (expected : Expected) (got : Value)
  | arithmetic (fault : ArithmeticFault)

def PrimitiveFault.message : PrimitiveFault → String
  | .wrongType expected got => "expected " ++ expected.text ++ ", got " ++ got.text
  | .arithmetic fault => fault.message

/-- What a primitive gives back: a value, the first place left and the text that
it wrote. -/
structure Answer where
  value : Value
  next : Place
  output : String

/-- An operation on a fixed number of arguments, or on any number from `least`
on. Each is given the first place left. -/
inductive Operation where
  | nullary (apply : Place → Except PrimitiveFault Answer)
  | unary (apply : Place → Value → Except PrimitiveFault Answer)
  | binary (apply : Place → Value → Value → Except PrimitiveFault Answer)
  | variadic (least : Nat) (apply : Place → List Value → Except PrimitiveFault Answer)

namespace Operation

def arity : Operation → Arity
  | .nullary _ => .exactly 0
  | .unary _ => .exactly 1
  | .binary _ => .exactly 2
  | .variadic least _ => .atLeast least

/-- The outcome on a list of arguments, if there are as many as it takes. -/
def answer? (next : Place) (arguments : List Value) :
    Operation → Option (Except PrimitiveFault Answer)
  | .nullary apply =>
      match arguments with
      | [] => some (apply next)
      | _ => none
  | .unary apply =>
      match arguments with
      | [argument] => some (apply next argument)
      | _ => none
  | .binary apply =>
      match arguments with
      | [first, second] => some (apply next first second)
      | _ => none
  | .variadic least apply =>
      if least ≤ arguments.length then some (apply next arguments) else none

/-- An operation takes an argument list exactly if its arity says so. -/
theorem isSome_answer? (operation : Operation) (next : Place) (arguments : List Value) :
    (operation.answer? next arguments).isSome = operation.arity.accepts arguments.length := by
  cases operation with
  | nullary => rcases arguments with _ | ⟨_, _⟩ <;> simp [answer?, arity, Arity.accepts, Arity.exactly]
  | unary =>
      rcases arguments with _ | ⟨_, _ | ⟨_, _⟩⟩ <;>
        simp [answer?, arity, Arity.accepts, Arity.exactly]
  | binary =>
      rcases arguments with _ | ⟨_, _ | ⟨_, _ | ⟨_, _⟩⟩⟩ <;>
        simp [answer?, arity, Arity.accepts, Arity.exactly]
  | variadic least =>
      by_cases enough : least ≤ arguments.length <;>
        simp [answer?, arity, Arity.accepts, Arity.atLeast, enough]

/-! ## Operations without effects -/

/-- The answer that only gives back a value. -/
def plain (next : Place) (value : Value) : Answer := ⟨value, next, ""⟩

/-- A function of one argument. -/
def function (apply : Value → Except PrimitiveFault Value) : Operation :=
  .unary fun next argument => plain next <$> apply argument

/-- A function of two arguments. -/
def function₂ (apply : Value → Value → Except PrimitiveFault Value) : Operation :=
  .binary fun next first second => plain next <$> apply first second

/-- A function of at least so many arguments. -/
def functionOfMany (least : Nat) (apply : List Value → Except PrimitiveFault Value) :
    Operation :=
  .variadic least fun next arguments => plain next <$> apply arguments

/-- A test of one argument. -/
def predicate (test : Value → Bool) : Operation :=
  function fun argument => .ok (.boolean (test argument))

/-- A test of two arguments. -/
def relation (test : Value → Value → Bool) : Operation :=
  function₂ fun first second => .ok (.boolean (test first second))

/-! ## Numbers -/

def number (value : Value) : Except PrimitiveFault Number :=
  match value with
  | .number number => .ok number
  | other => .error (.wrongType .number other)

def realNumber (value : Value) : Except PrimitiveFault Number :=
  match value with
  | .number (.complex re im) => .error (.wrongType .realNumber (.number (.complex re im)))
  | .number number => .ok number
  | other => .error (.wrongType .realNumber other)

def integer (value : Value) : Except PrimitiveFault Int64 :=
  match value with
  | .number (.integer number) => .ok number
  | other => .error (.wrongType .integer other)

/-- Combines a total with further arguments from left to right. -/
def accumulate (combine : Number → Number → Except ArithmeticFault Number)
    (total : Number) : List Value → Except PrimitiveFault Number
  | [] => .ok total
  | argument :: arguments =>
      match number argument with
      | .error fault => .error fault
      | .ok next =>
          match combine total next with
          | .error fault => .error (.arithmetic fault)
          | .ok total => accumulate combine total arguments

/-- Combines all arguments from left to right. A single one is combined with the
neutral element, so that `(- x)` is `(- 0 x)`. -/
def fold (neutral : Int64) (combine : Number → Number → Except ArithmeticFault Number) :
    List Value → Except PrimitiveFault Value
  | [] => .ok (.number (.integer neutral))
  | [only] => .number <$> accumulate combine (.integer neutral) [only]
  | first :: arguments => do
      let first ← number first
      .number <$> accumulate combine first arguments

/-- Both arguments have to be integers; then they are divided. -/
def division (asked : Number.DivisionResult) : Operation :=
  function₂ fun first second => do
    let first ← integer first
    let second ← integer second
    match Number.divideWhole asked first second with
    | .ok result => return .number (.integer result)
    | .error fault => throw (.arithmetic fault)

def magnitude : Operation :=
  function fun argument => do
    let argument ← number argument
    match argument.magnitude with
    | .ok result => return .number result
    | .error fault => throw (.arithmetic fault)

/-- All arguments are looked at before any two are compared. -/
def comparison (relation : Number.Comparison)
    (operand : Value → Except PrimitiveFault Number) : Operation :=
  functionOfMany 1 fun arguments => do
    let numbers ← arguments.mapM operand
    return .boolean (relation.chain numbers)

/-! ## Pairs and lists -/

def cons : Operation :=
  .binary fun next car cdr => .ok ⟨.pair next car cdr, next + 1, ""⟩

def car : Operation :=
  function fun
    | .pair _ car _ => .ok car
    | other => .error (.wrongType .pair other)

def cdr : Operation :=
  function fun
    | .pair _ _ cdr => .ok cdr
    | other => .error (.wrongType .pair other)

def list : Operation :=
  .variadic 0 fun next arguments =>
    let (list, next) := Value.newList next arguments
    .ok ⟨list, next, ""⟩

def length : Operation :=
  function fun argument =>
    match argument.length? with
    | some length => .ok (.number (.integer (Int64.ofNat length)))
    | none => .error (.wrongType .list argument)

/-- Whether a value is a whole number, in whatever representation. -/
def isWhole : Value → Bool
  | .number value => value.isWhole
  | _ => false

/-! ## Output -/

def display : Operation :=
  .unary fun next argument => .ok ⟨.nil, next, argument.displayed⟩

def newline : Operation :=
  .nullary fun next => .ok ⟨.nil, next, "\n"⟩

end Operation

namespace Primitive

/-- What a primitive does. -/
def operation : Primitive → Operation
  | .add => .functionOfMany 0 (Operation.fold 0 Number.add)
  | .subtract => .functionOfMany 1 (Operation.fold 0 Number.subtract)
  | .multiply => .functionOfMany 0 (Operation.fold 1 Number.multiply)
  | .divide => .functionOfMany 1 (Operation.fold 1 Number.divide)
  | .remainder => .division .remainder
  | .quotient => .division .quotient
  | .modulo => .division .modulo
  | .magnitude => .magnitude
  | .numbersEqual => .comparison .equal Operation.number
  | .less => .comparison .less Operation.realNumber
  | .greater => .comparison .greater Operation.realNumber
  | .atMost => .comparison .atMost Operation.realNumber
  | .atLeast => .comparison .atLeast Operation.realNumber
  | .cons => .cons
  | .pair => .cons
  | .car => .car
  | .first => .car
  | .cdr => .cdr
  | .rest => .cdr
  | .list => .list
  | .length => .length
  | .isNull => .predicate Datum.isNil
  | .isPair => .predicate Datum.isPair
  | .isList => .predicate Datum.isList
  | .isNumber => .predicate Datum.isNumber
  | .isInteger => .predicate Operation.isWhole
  | .isSymbol => .predicate Datum.isSymbol
  | .isString => .predicate Datum.isString
  | .isBoolean => .predicate Datum.isBoolean
  | .isProcedure => .predicate Datum.isProcedure
  | .not => .predicate fun argument => !argument.isTrue
  | .eq => .relation Value.eqv
  | .eqv => .relation Value.eqv
  | .equal => .relation Value.equal
  | .display => .display
  | .newline => .newline

def arity (primitive : Primitive) : Arity :=
  primitive.operation.arity

end Primitive

def Procedure.arity : Procedure → Arity
  | .primitive operation => operation.arity
  | .compound _ _ formals => formals.arity

end SmallScheme
