import SmallScheme.Machine.World

namespace SmallScheme

/-! The machine that runs node trees.

An evaluation that is not in tail position suspends the one around it: what that
one still has to do becomes a level on a stack. An expression in tail position
takes the place of the expression around it and adds no level, so loops that
call themselves in tail position run in constant depth. The depth of the machine
is one more than the number of its levels, and a limit bounds it. -/

/-- What the machine does next. -/
inductive Control where
  /-- Execute a step on a node. -/
  | run (code : Node) (frame : FrameId)
  /-- Hand a value to the innermost level. -/
  | give (value : Value)

/-- A loop and the frame around it. -/
structure Loop where
  varying : List LoopVariable
  test : Node
  result : Option Node
  commands : List Node
  outer : FrameId

/-- What a suspended evaluation does with the value that it waits for. Each level
has the frame in which it goes on. -/
inductive Level where
  | branch (consequent : Node) (alternate : Option Node) (frame : FrameId)
  | sequence (rest : List Node) (frame : FrameId)
  | define (name : Symbol) (frame : FrameId)
  | assign (name : Symbol) (frame : FrameId)
  | operator (operands : List Node) (tail : Bool) (frame : FrameId)
  /-- The arguments so far stand in reversed order. -/
  | operand (procedure : Value) (reversed : List Value) (rest : List Node) (tail : Bool)
      (frame : FrameId)
  /-- The value is bound in `inner`; further inits are evaluated in `scope`. -/
  | binding (name : Symbol) (rest : List (Symbol × Node)) (body : Node) (scope inner : FrameId)
  | loopInit (name : Symbol) (rest : List LoopVariable) (loop : Loop) (frame : FrameId)
  | loopTest (loop : Loop) (frame : FrameId)
  | loopCommand (rest : List Node) (loop : Loop) (frame : FrameId)
  /-- The value is bound in `next`; further steps are evaluated in `frame`. -/
  | loopStep (name : Symbol) (rest : List LoopVariable) (loop : Loop) (frame next : FrameId)
  | clause (clause : Clause) (rest : List Clause) (frame : FrameId)
  | receiver (argument : Value) (tail : Bool)
  | conjunction (rest : List Node) (frame : FrameId)
  | disjunction (rest : List Node) (frame : FrameId)
  /-- A procedure body, whose value is that of the call. -/
  | body

structure Machine where
  world : World
  levels : List Level
  /-- One more than the number of levels. -/
  depth : Nat

/-- The result of a step. -/
inductive Progress where
  | running (control : Control) (machine : Machine)
  | ended (outcome : Except RunError Value) (world : World)

namespace Machine

def give (machine : Machine) (value : Value) : Progress :=
  .running (.give value) machine

/-- Goes on with an expression in tail position. -/
def proceed (machine : Machine) (code : Node) (frame : FrameId) : Progress :=
  .running (.run code frame) machine

def fail (machine : Machine) (error : RunError) : Progress :=
  .ended (.error error) machine.world

/-- Evaluates an expression one level deeper, if the limit allows it. -/
def suspend (limit : Nat) (machine : Machine) (level : Level) (code : Node) (frame : FrameId) :
    Progress :=
  if machine.depth < limit then
    .running (.run code frame)
      { machine with levels := level :: machine.levels, depth := machine.depth + 1 }
  else machine.fail .tooDeep

end Machine

end SmallScheme
