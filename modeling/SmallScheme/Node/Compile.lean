import SmallScheme.Node.Basic
import SmallScheme.Node.Form

namespace SmallScheme

/-! From data to node trees. Each form is compiled by a function of its own,
which is given the operands of the form and a compiler for the expressions
among them. Faults are reported in the order in which the parts are written;
names that clash are reported once the list that holds them is compiled. -/

/-- Compiles an expression that stands in tail position or not. -/
abbrev Compiler := Bool → Value → Except CompileError Node

namespace Compiler

/-! ## Names -/

/-- A datum that has to be the name of a variable. -/
def variableName : Value → Except CompileError Symbol
  | .symbol name => if name.isReserved then .error (.reservedName name) else .ok name
  | datum => .error (.notVariable datum)

/-- Names in one list have to differ. The first one that repeats an earlier one
is at fault. -/
def distinctBeside (earlier : List Symbol) : List Symbol → Except CompileError Unit
  | [] => .ok ()
  | name :: names =>
      if earlier.contains name then .error (.boundTwice name)
      else distinctBeside (name :: earlier) names

def distinct (names : List Symbol) : Except CompileError Unit :=
  distinctBeside [] names

/-- The names of a parameter list `(a b)`, `(a b . rest)` or `rest`. -/
def formalNames : Value → Except CompileError Formals
  | .nil => .ok ⟨[], none⟩
  | .pair _ first more => do
      let name ← variableName first
      let formals ← formalNames more
      return { formals with required := name :: formals.required }
  | rest => do
      let name ← variableName rest
      return ⟨[], some name⟩

def formals (datum : Value) : Except CompileError Formals := do
  let formals ← formalNames datum
  distinct formals.names
  return formals

/-! ## Sequences -/

section

variable (expression : Compiler)

/-- Expressions of which only the last one can be in tail position. -/
def inOrder (tail : Bool) : List Value → Except CompileError (List Node)
  | [] => .ok []
  | [last] => do
      let node ← expression tail last
      return [node]
  | datum :: data => do
      let node ← expression false datum
      let nodes ← inOrder tail data
      return node :: nodes

/-- Expressions none of which is in tail position. -/
def each (data : List Value) : Except CompileError (List Node) :=
  data.mapM (expression false)

/-- A body. No expression at all stands for `()`, a single one for itself. -/
def sequence (tail : Bool) : List Value → Except CompileError Node
  | [] => .ok (.literal .nil)
  | [only] => expression tail only
  | data => Node.sequence <$> inOrder expression tail data

/-! ## Procedures and definitions -/

def compileQuote : List Value → Except CompileError Node
  | [datum] => .ok (.quote datum)
  | _ => .error (.malformed .quote .oneDatum)

def compileSequence (tail : Bool) : List Value → Except CompileError Node
  | [] => .ok (.sequence [])
  | data => sequence expression tail data

/-- A procedure. Its body is always in tail position. -/
def procedure (name : Option Symbol) (parameters : Value) (body : List Value) :
    Except CompileError Node := do
  let formals ← formals parameters
  let body ← sequence expression true body
  return .lambda name formals body

def compileLambda : List Value → Except CompileError Node
  | parameters :: body => procedure expression none parameters body
  | [] => .error (.malformed .lambda .parameterList)

/-- A procedure without a name takes that of the variable it is defined for. -/
def named (name : Symbol) : Node → Node
  | .lambda none formals body => .lambda (some name) formals body
  | node => node

def compileDefine : List Value → Except CompileError Node
  | [] => .error (.malformed .define .variableAndValue)
  | .pair _ name parameters :: body => do
      let name ← variableName name
      let value ← procedure expression (some name) parameters body
      return .define name value
  | target :: values => do
      let name ← variableName target
      match values with
      | [value] =>
          let value ← expression false value
          return .define name (named name value)
      | _ => throw (.malformed .define .oneValue)

def compileAssign : List Value → Except CompileError Node
  | [target, value] => do
      let name ← variableName target
      let value ← expression false value
      return .assign name value
  | _ => .error (.malformed .assign .variableAndValue)

/-! ## Bindings -/

/-- `((name init) ...)` as a list of names and inits, the names unchecked. -/
def splitBindings (form : Form) (datum : Value) :
    Except CompileError (List (Value × Value)) := do
  let some bindings := datum.items? | throw (.malformed form .bindingsNotList)
  bindings.mapM fun binding =>
    match binding.items? with
    | some [name, init] => .ok (name, init)
    | _ => .error (.malformed form .bindingShape)

def bindings (form : Form) (datum : Value) : Except CompileError (List (Symbol × Node)) := do
  let split ← splitBindings form datum
  split.mapM fun (name, init) => do
    let name ← variableName name
    let init ← expression false init
    return (name, init)

/-- `(let name ((variable init) ...) body ...)` calls a procedure that is bound
to `name` in its own body. -/
def compileNamedLet (tail : Bool) (name : Value) : List Value → Except CompileError Node
  | [] => do
      let _ ← variableName name
      throw (.malformed .letIn .bindingListAfterName)
  | datum :: body => do
      let name ← variableName name
      let split ← splitBindings .letIn datum
      let required ← split.mapM fun (variableDatum, _) => variableName variableDatum
      distinct required
      let body ← sequence expression true body
      let operands ← each expression (split.map (·.2))
      let loop := Node.letrec [(name, .lambda none ⟨required, none⟩ body)] (.variable name)
      return .call loop operands tail

def compileLet (tail : Bool) : List Value → Except CompileError Node
  | [] => .error (.malformed .letIn .bindingList)
  | .symbol name :: operands => compileNamedLet expression tail (.symbol name) operands
  | datum :: body => do
      let bindings ← bindings expression .letIn datum
      distinct (bindings.map (·.1))
      let body ← sequence expression true body
      return .letIn bindings body

/-- Each binding gets a frame of its own, inside those of the ones before it. -/
def nest (body : Node) : List (Symbol × Node) → Node
  | [] => .letIn [] body
  | [innermost] => .letIn [innermost] body
  | binding :: more => .letIn [binding] (nest body more)

def compileLetStar : List Value → Except CompileError Node
  | [] => .error (.malformed .letStar .bindingList)
  | datum :: body => do
      let bindings ← bindings expression .letStar datum
      let body ← sequence expression true body
      return nest body bindings

def compileLetrec : List Value → Except CompileError Node
  | [] => .error (.malformed .letrec .bindingList)
  | datum :: body => do
      let bindings ← bindings expression .letrec datum
      distinct (bindings.map (·.1))
      let body ← sequence expression true body
      return .letrec bindings body

/-- `(variable init)` or `(variable init step)`. -/
def loopVariable (datum : Value) : Except CompileError LoopVariable :=
  match datum.items? with
  | some [name, init] => do
      let name ← variableName name
      let init ← expression false init
      return .mk name init none
  | some [name, init, step] => do
      let name ← variableName name
      let init ← expression false init
      let step ← expression false step
      return .mk name init (some step)
  | _ => .error (.malformed .loop .variableShape)

/-- What a loop yields: its result expressions in tail position, if it has any. -/
def loopResult : List Value → Except CompileError (Option Node)
  | [] => .ok none
  | data => some <$> sequence expression true data

def compileLoop : List Value → Except CompileError Node
  | specifications :: clause :: commands => do
      let some specifications := specifications.items? | throw (.malformed .loop .variablesNotList)
      let varying ← specifications.mapM (loopVariable expression)
      distinct (varying.map (·.name))
      let some (test :: results) := clause.items? | throw (.malformed .loop .testClause)
      let test ← expression false test
      let result ← loopResult expression results
      let commands ← each expression commands
      return .loop varying test result commands
  | _ => .error (.malformed .loop .variablesAndTest)

/-! ## Conditionals -/

def compileBranch (tail : Bool) : List Value → Except CompileError Node
  | [test, consequent] => do
      let test ← expression false test
      let consequent ← expression tail consequent
      return .branch test consequent none
  | [test, consequent, alternate] => do
      let test ← expression false test
      let consequent ← expression tail consequent
      let alternate ← expression tail alternate
      return .branch test consequent (some alternate)
  | _ => .error (.malformed .branch .testAndBranches)

/-- Whether a datum is a given symbol. -/
def isSymbol (symbol : Symbol) : Value → Bool
  | .symbol name => name = symbol
  | _ => false

/-- What follows the test of a clause. -/
def clauseBody (tail : Bool) (test : Node) : List Value → Except CompileError Clause
  | [] => .ok (.test test)
  | first :: more =>
      if isSymbol arrowSymbol first then
        match more with
        | [receiver] => do
            let receiver ← expression false receiver
            return .arrow test receiver tail
        | _ => .error (.malformed .cond .oneReceiver)
      else Clause.body test <$> sequence expression tail (first :: more)

/-- A clause, which is the last one or not. A test is never in tail position. -/
def clause (tail last : Bool) (datum : Value) : Except CompileError Clause :=
  match datum.items? with
  | some (head :: more) =>
      if isSymbol elseSymbol head then
        if last then Clause.otherwise <$> sequence expression tail more
        else .error (.malformed .cond .elseNotLast)
      else do
        let test ← expression false head
        clauseBody expression tail test more
  | _ => .error (.malformed .cond .clauseShape)

def clauses (tail : Bool) : List Value → Except CompileError (List Clause)
  | [] => .ok []
  | datum :: data => do
      let first ← clause expression tail data.isEmpty datum
      let more ← clauses tail data
      return first :: more

def compileCond (tail : Bool) : List Value → Except CompileError Node
  | [] => .error (.malformed .cond .someClause)
  | data => Node.cond <$> clauses expression tail data

/-! ## Expressions -/

/-- A special form with its operands. -/
def compileForm (tail : Bool) (operands : List Value) : Form → Except CompileError Node
  | .quote => compileQuote operands
  | .branch => compileBranch expression tail operands
  | .sequence => compileSequence expression tail operands
  | .lambda => compileLambda expression operands
  | .define => compileDefine expression operands
  | .assign => compileAssign expression operands
  | .letIn => compileLet expression tail operands
  | .letStar => compileLetStar expression operands
  | .letrec => compileLetrec expression operands
  | .loop => compileLoop expression operands
  | .cond => compileCond expression tail operands
  | .conjunction => Node.conjunction <$> inOrder expression tail operands
  | .disjunction => Node.disjunction <$> inOrder expression tail operands

/-- The form that the head of an expression introduces. -/
def formOf? : Value → Option Form
  | .symbol name => Form.ofSymbol? name
  | _ => none

/-- A call: the operator first, then the operands from left to right. -/
def compileCall (tail : Bool) (operator : Value) (operands : Value) :
    Except CompileError Node := do
  let some operands := operands.items? | throw .dottedCall
  let operator ← expression false operator
  let operands ← each expression operands
  return .call operator operands tail

/-- Any expression. The compiler for its parts is only asked for data that are
nested less deeply. -/
def compileWith (tail : Bool) : Value → Except CompileError Node
  | .symbol name => Node.variable <$> variableName (.symbol name)
  | .pair _ head operands =>
      match formOf? head with
      | some form => do
          let some operands := operands.items? | throw (.malformed form .operandsNotList)
          compileForm expression tail operands form
      | none => compileCall expression tail head operands
  | datum => .ok (.literal datum)

end

/-- Compiles data that are nested at most `height` deep. -/
def withinHeight : Nat → Compiler
  | 0 => compileWith fun _ datum => .ok (.literal datum)
  | height + 1 => compileWith (withinHeight height)

end Compiler

/-- Compiles an expression that stands in tail position or not. -/
def Node.compile : Compiler := fun tail datum =>
  Compiler.withinHeight datum.height tail datum

/-- Compiles a whole program, which is in tail position. -/
def Node.ofDatum (datum : Value) : Except CompileError Node :=
  Node.compile true datum

end SmallScheme
