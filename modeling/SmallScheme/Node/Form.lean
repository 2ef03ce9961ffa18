import SmallScheme.Datum.Printer

namespace SmallScheme

/-! Special forms, reserved names, and what can be wrong with an expression. -/

/-- The special forms. -/
inductive Form where
  | quote | branch | sequence | lambda | define | assign
  | letIn | letStar | letrec | loop | cond | conjunction | disjunction
  deriving DecidableEq, Repr

namespace Form

/-- The name at the head of a form. -/
def name : Form → String
  | .quote => "quote"
  | .branch => "if"
  | .sequence => "begin"
  | .lambda => "lambda"
  | .define => "define"
  | .assign => "set!"
  | .letIn => "let"
  | .letStar => "let*"
  | .letrec => "letrec"
  | .loop => "do"
  | .cond => "cond"
  | .conjunction => "and"
  | .disjunction => "or"

def all : List Form :=
  [.quote, .branch, .sequence, .lambda, .define, .assign,
   .letIn, .letStar, .letrec, .loop, .cond, .conjunction, .disjunction]

theorem mem_all (form : Form) : form ∈ all := by
  cases form <;> decide

/-- The form that a symbol at the head of an expression introduces. -/
def ofSymbol? (symbol : Symbol) : Option Form :=
  all.find? (·.name = symbol.name)

end Form

/-- The symbol before the last clause of a `cond`. -/
def elseSymbol : Symbol := ⟨"else"⟩

/-- The symbol before the receiver of a clause. -/
def arrowSymbol : Symbol := ⟨"=>"⟩

/-- The names that no variable may have: those of the forms, `else` and `=>`. -/
def reservedNames : List String :=
  Form.all.map Form.name ++ [elseSymbol.name, arrowSymbol.name]

def Symbol.isReserved (symbol : Symbol) : Bool :=
  reservedNames.contains symbol.name

example : reservedNames.length = 15 := by decide

/-- What is wrong with the shape of a form. -/
inductive FormFault where
  | operandsNotList
  | oneDatum
  | testAndBranches
  | parameterList
  | variableAndValue
  | oneValue
  | bindingList
  | bindingListAfterName
  | bindingsNotList
  | bindingShape
  | variablesAndTest
  | variablesNotList
  | variableShape
  | testClause
  | someClause
  | clauseShape
  | elseNotLast
  | oneReceiver
  deriving DecidableEq, Repr

def FormFault.message : FormFault → String
  | .operandsNotList => "operands must form a proper list"
  | .oneDatum => "expected exactly one datum"
  | .testAndBranches => "expected a test, a consequent and an optional alternate"
  | .parameterList => "expected a parameter list"
  | .variableAndValue => "expected a variable and a value"
  | .oneValue => "expected exactly one value expression"
  | .bindingList => "expected a binding list"
  | .bindingListAfterName => "expected a binding list after the loop name"
  | .bindingsNotList => "bindings must form a proper list"
  | .bindingShape => "each binding must be (name init)"
  | .variablesAndTest => "expected a variable list and a test clause"
  | .variablesNotList => "variables must form a proper list"
  | .variableShape => "each variable must be (var init) or (var init step)"
  | .testClause => "the test clause must be a non-empty list"
  | .someClause => "expected at least one clause"
  | .clauseShape => "each clause must be a non-empty list"
  | .elseNotLast => "`else` clause must be the last one"
  | .oneReceiver => "`=>` must be followed by exactly one expression"

/-- Why a datum is no expression. -/
inductive CompileError where
  | malformed (form : Form) (fault : FormFault)
  /-- A reserved name stands for a variable. -/
  | reservedName (symbol : Symbol)
  /-- Something other than a symbol stands for a variable. -/
  | notVariable (datum : Value)
  /-- A name occurs twice in one parameter or binding list. -/
  | boundTwice (symbol : Symbol)
  /-- The operands of a call form no proper list. -/
  | dottedCall

def CompileError.message : CompileError → String
  | .malformed form fault => "bad syntax in (" ++ form.name ++ " ...): " ++ fault.message
  | .reservedName symbol => "bad syntax: keyword `" ++ symbol.name ++ "` used as a variable"
  | .notVariable datum => "bad syntax: `" ++ datum.text ++ "` is not a variable name"
  | .boundTwice symbol => "bad syntax: `" ++ symbol.name ++ "` bound twice"
  | .dottedCall => "bad syntax: procedure call with a dotted argument list"

end SmallScheme
