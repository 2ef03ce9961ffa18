import SmallScheme.Datum.Basic

namespace SmallScheme

/-! Programs as node trees: one node an expression, with every special form made
explicit and every call marked as a tail call or not. -/

mutual

inductive Node where
  /-- A datum that stands for itself. -/
  | literal (value : Value)
  | variable (name : Symbol)
  | quote (value : Value)
  | branch (test consequent : Node) (alternate : Option Node)
  /-- The last part stands in the position of the whole sequence. -/
  | sequence (parts : List Node)
  | lambda (name : Option Symbol) (formals : Formals) (body : Node)
  | define (name : Symbol) (value : Node)
  | assign (name : Symbol) (value : Node)
  | call (operator : Node) (operands : List Node) (tail : Bool)
  /-- Inits see the outer frame, the body a new one. -/
  | letIn (bindings : List (Symbol × Node)) (body : Node)
  /-- Inits see the new frame as well. -/
  | letrec (bindings : List (Symbol × Node)) (body : Node)
  | loop (varying : List LoopVariable) (test : Node) (result : Option Node)
      (commands : List Node)
  | cond (clauses : List Clause)
  | conjunction (tests : List Node)
  | disjunction (tests : List Node)

/-- A variable of a loop. Without a step it keeps its value in the next round. -/
inductive LoopVariable where
  | mk (name : Symbol) (init : Node) (step : Option Node)

/-- A clause of a `cond`. -/
inductive Clause where
  /-- `(test)` yields the value of its test. -/
  | test (test : Node)
  /-- `(test => receiver)` calls the receiver with the value of the test. -/
  | arrow (test receiver : Node) (tail : Bool)
  | body (test body : Node)
  | otherwise (body : Node)

end

instance : Inhabited Node := ⟨.literal .nil⟩

namespace LoopVariable

def name : LoopVariable → Symbol
  | .mk name _ _ => name

def init : LoopVariable → Node
  | .mk _ init _ => init

def step : LoopVariable → Option Node
  | .mk _ _ step => step

end LoopVariable

/-! ## Kinds -/

/-- The kind of a node, by which steps are counted and traced. -/
inductive Kind where
  | literal | variable | quote | branch | sequence | lambda | define | assign | call
  | letIn | letrec | loop | cond | conjunction | disjunction
  deriving DecidableEq, Repr

def Kind.name : Kind → String
  | .literal => "Literal"
  | .variable => "LoadVar"
  | .quote => "Quote"
  | .branch => "If"
  | .sequence => "Begin"
  | .lambda => "Lambda"
  | .define => "Define"
  | .assign => "SetVar"
  | .call => "Call"
  | .letIn => "Let"
  | .letrec => "Letrec"
  | .loop => "Do"
  | .cond => "Cond"
  | .conjunction => "And"
  | .disjunction => "Or"

def Kind.all : List Kind :=
  [.literal, .variable, .quote, .branch, .sequence, .lambda, .define, .assign, .call,
   .letIn, .letrec, .loop, .cond, .conjunction, .disjunction]

theorem Kind.mem_all (kind : Kind) : kind ∈ all := by
  cases kind <;> decide

theorem Kind.all_nodup : all.Nodup := by decide

def Node.kind : Node → Kind
  | .literal _ => .literal
  | .variable _ => .variable
  | .quote _ => .quote
  | .branch .. => .branch
  | .sequence _ => .sequence
  | .lambda .. => .lambda
  | .define .. => .define
  | .assign .. => .assign
  | .call .. => .call
  | .letIn .. => .letIn
  | .letrec .. => .letrec
  | .loop .. => .loop
  | .cond _ => .cond
  | .conjunction _ => .conjunction
  | .disjunction _ => .disjunction

end SmallScheme
