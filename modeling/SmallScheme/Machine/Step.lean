import SmallScheme.Machine.Basic

namespace SmallScheme

/-! The steps of the machine: what starts on each kind of node, and what each level
does with the value that it waited for. -/

namespace Machine

section

variable (limit : Nat)

/-! ## Sequences and tests -/

def runSequence (machine : Machine) (frame : FrameId) : List Node → Progress
  | [] => machine.give .nil
  | [last] => machine.proceed last frame
  | first :: rest => machine.suspend limit (.sequence rest frame) first frame

def runConjunction (machine : Machine) (frame : FrameId) : List Node → Progress
  | [] => machine.give (.boolean true)
  | [last] => machine.proceed last frame
  | first :: rest => machine.suspend limit (.conjunction rest frame) first frame

def runDisjunction (machine : Machine) (frame : FrameId) : List Node → Progress
  | [] => machine.give (.boolean false)
  | [last] => machine.proceed last frame
  | first :: rest => machine.suspend limit (.disjunction rest frame) first frame

def runClauses (machine : Machine) (frame : FrameId) : List Clause → Progress
  | [] => machine.give .nil
  | .otherwise body :: _ => machine.proceed body frame
  | .test test :: rest => machine.suspend limit (.clause (.test test) rest frame) test frame
  | .arrow test receiver tail :: rest =>
      machine.suspend limit (.clause (.arrow test receiver tail) rest frame) test frame
  | .body test body :: rest =>
      machine.suspend limit (.clause (.body test body) rest frame) test frame

/-! ## Calls -/

/-- Executes a primitive. -/
def callPrimitive (machine : Machine) (operation : Primitive) (arguments : List Value) :
    Progress :=
  let world := machine.world
  match operation.operation.answer? world.store.next arguments with
  | none => machine.fail (.arity (.primitive operation) arguments.length)
  | some (.error fault) => machine.fail (.primitive operation fault)
  | some (.ok answer) =>
      let store := { world.store with next := answer.next }
      let world := { world with store := store, output := world.output ++ answer.output }
      { machine with world := world }.give answer.value

/-- Goes on with the body of a compound procedure: in the place of the call if
that is a tail call, and one level deeper if not. -/
def callCompound (machine : Machine) (place : Place) (name : Option Symbol) (formals : Formals)
    (arguments : List Value) (tail : Bool) : Progress :=
  let callee : Procedure := .compound place name formals
  match machine.world.store.closures[place]? with
  | none => machine.fail (.notCallable (.procedure callee))
  | some closure =>
      if formals.arity.accepts arguments.length then
        let (frame, world) := machine.world.bindArguments formals closure.frame arguments
        if tail then
          { machine with world := world.record (.tailCall callee) }.proceed closure.body frame
        else { machine with world := world }.suspend limit .body closure.body frame
      else machine.fail (.arity callee arguments.length)

/-- Calls a procedure with arguments that have been evaluated. -/
def call (machine : Machine) (procedure : Value) (arguments : List Value) (tail : Bool) :
    Progress :=
  match procedure with
  | .procedure (.primitive operation) => machine.callPrimitive operation arguments
  | .procedure (.compound place name formals) =>
      machine.callCompound limit place name formals arguments tail
  | other => machine.fail (.notCallable other)

/-- Evaluates the remaining operands, then calls. -/
def runOperands (machine : Machine) (procedure : Value) (reversed : List Value) (tail : Bool)
    (frame : FrameId) : List Node → Progress
  | [] => machine.call limit procedure reversed.reverse tail
  | operand :: rest =>
      machine.suspend limit (.operand procedure reversed rest tail frame) operand frame

/-! ## Bindings and loops -/

/-- Evaluates the remaining inits, then goes on with the body. -/
def runBindings (machine : Machine) (body : Node) (scope inner : FrameId) :
    List (Symbol × Node) → Progress
  | [] => machine.proceed body inner
  | (name, init) :: rest =>
      machine.suspend limit (.binding name rest body scope inner) init scope

/-- Binds names to `()` until they get their values. -/
def predefine (world : World) (frame : FrameId) (bindings : List (Symbol × Node)) : World :=
  bindings.foldl (fun world (name, _) => world.define frame name .nil) world

/-- Evaluates the remaining inits of a loop, then its test. -/
def runLoopInits (machine : Machine) (loop : Loop) (frame : FrameId) :
    List LoopVariable → Progress
  | [] => machine.suspend limit (.loopTest loop frame) loop.test frame
  | .mk name init _ :: rest =>
      machine.suspend limit (.loopInit name rest loop frame) init loop.outer

/-- Finds the remaining values for the next round, whose frame is `next`, and
then evaluates the test of that round. -/
def runLoopSteps (machine : Machine) (loop : Loop) (frame next : FrameId) :
    List LoopVariable → Progress
  | [] =>
      { machine with world := machine.world.record .nextRound }.suspend limit
        (.loopTest loop next) loop.test next
  | .mk name _ (some step) :: rest =>
      machine.suspend limit (.loopStep name rest loop frame next) step frame
  | .mk name _ none :: rest =>
      match machine.world.store.get? frame name with
      | none => machine.fail (.unbound name)
      | some value =>
          runLoopSteps { machine with world := machine.world.define next name value }
            loop frame next rest

/-- Executes the remaining commands of a round, then prepares the next round. -/
def runLoopCommands (machine : Machine) (loop : Loop) (frame : FrameId) :
    List Node → Progress
  | [] =>
      let (next, world) := machine.world.child loop.outer
      { machine with world := world }.runLoopSteps limit loop frame next loop.varying
  | command :: rest => machine.suspend limit (.loopCommand rest loop frame) command frame

/-! ## Steps -/

/-- Starts on a node. -/
def execute (machine : Machine) (frame : FrameId) : Node → Progress
  | .literal value => machine.give value
  | .quote value => machine.give value
  | .variable name =>
      match machine.world.store.get? frame name with
      | some value => machine.give value
      | none => machine.fail (.unbound name)
  | .branch test consequent alternate =>
      machine.suspend limit (.branch consequent alternate frame) test frame
  | .sequence parts => machine.runSequence limit frame parts
  | .lambda name formals body =>
      let (value, world) := machine.world.close name formals body frame
      { machine with world := world }.give value
  | .define name value => machine.suspend limit (.define name frame) value frame
  | .assign name value => machine.suspend limit (.assign name frame) value frame
  | .call operator operands tail =>
      machine.suspend limit (.operator operands tail frame) operator frame
  | .letIn bindings body =>
      let (inner, world) := machine.world.child frame
      { machine with world := world }.runBindings limit body frame inner bindings
  | .letrec bindings body =>
      let (inner, world) := machine.world.child frame
      { machine with world := predefine world inner bindings }.runBindings limit
        body inner inner bindings
  | .loop varying test result commands =>
      let (inner, world) := machine.world.child frame
      { machine with world := world }.runLoopInits limit
        ⟨varying, test, result, commands, frame⟩ inner varying
  | .cond clauses => machine.runClauses limit frame clauses
  | .conjunction tests => machine.runConjunction limit frame tests
  | .disjunction tests => machine.runDisjunction limit frame tests

/-- Goes on with a suspended evaluation. -/
def resume (machine : Machine) (value : Value) : Level → Progress
  | .branch consequent alternate frame =>
      if value.isTrue then machine.proceed consequent frame
      else
        match alternate with
        | some alternate => machine.proceed alternate frame
        | none => machine.give .nil
  | .sequence rest frame => machine.runSequence limit frame rest
  | .define name frame =>
      { machine with world := machine.world.define frame name value }.give .nil
  | .assign name frame =>
      match machine.world.store.nearest? name frame with
      | some nearest =>
          { machine with world := machine.world.define nearest name value }.give value
      | none => machine.fail (.unbound name)
  | .operator operands tail frame => machine.runOperands limit value [] tail frame operands
  | .operand procedure reversed rest tail frame =>
      machine.runOperands limit procedure (value :: reversed) tail frame rest
  | .binding name rest body scope inner =>
      { machine with world := machine.world.define inner name value }.runBindings limit
        body scope inner rest
  | .loopInit name rest loop frame =>
      { machine with world := machine.world.define frame name value }.runLoopInits limit
        loop frame rest
  | .loopTest loop frame =>
      if value.isTrue then
        match loop.result with
        | some result => machine.proceed result frame
        | none => machine.give .nil
      else machine.runLoopCommands limit loop frame loop.commands
  | .loopCommand rest loop frame => machine.runLoopCommands limit loop frame rest
  | .loopStep name rest loop frame next =>
      { machine with world := machine.world.define next name value }.runLoopSteps limit
        loop frame next rest
  | .clause clause rest frame =>
      if value.isTrue then
        match clause with
        | .test _ => machine.give value
        | .arrow _ receiver tail => machine.suspend limit (.receiver value tail) receiver frame
        | .body _ body => machine.proceed body frame
        | .otherwise body => machine.proceed body frame
      else machine.runClauses limit frame rest
  | .receiver argument tail => machine.call limit value [argument] tail
  | .conjunction rest frame =>
      if value.isTrue then machine.runConjunction limit frame rest else machine.give value
  | .disjunction rest frame =>
      if value.isTrue then machine.give value else machine.runDisjunction limit frame rest
  | .body => machine.give value

/-- One step: a node that is executed is observed first, and a value that no
level waits for is the outcome. -/
def step (machine : Machine) : Control → Progress
  | .run code frame =>
      let world := machine.world.observe machine.depth code.kind
      { machine with world := world }.execute limit frame code
  | .give value =>
      match machine.levels with
      | [] => .ended (.ok value) machine.world
      | level :: levels =>
          { machine with levels := levels, depth := machine.depth - 1 }.resume limit value level

end

end Machine

end SmallScheme
