import Mathlib
import SmallScheme.Proofs.Frames.Growth
import SmallScheme.Proofs.Frames.Lookup
import SmallScheme.Proofs.Runs

namespace SmallScheme

/-! # Strict runs

Arguments are bound once their number is known to fit, a primitive takes its arguments from
their positions, and a loop carries a variable without a step over into the next round. Each
of these counts on what happened before it: on the check of the arity, or on the frame of
the round that still binds the variable. The strict machine does the same steps, but here
such an operation looks itself, and breaks the run off if it is given what it does not count
on. The main statement is that no run of any program is ever broken off: the strict machine
and the machine do the same. -/

/-- Why a strict run is broken off. -/
inductive Breach where
  /-- There are fewer arguments than required parameters. -/
  | missing (formals : Formals) (given : Nat)
  /-- Arguments are left over for which there is no parameter. -/
  | leftOver (formals : Formals) (given : Nat)
  /-- A primitive is invoked with a number of arguments that is not in its arity. -/
  | unwelcome (operation : Primitive) (given : Nat)
  /-- A primitive takes an argument from a position where there is none. -/
  | noArgument (operation : Primitive) (position : Nat)
  /-- The frame of a finished round does not bind a variable of the loop. -/
  | lost (name : Symbol)

/-! ## The strict machine -/

/-- Binds arguments, if each required parameter gets one and none is left over. -/
def World.bindArgumentsStrictly (world : World) (formals : Formals) (parent : FrameId)
    (arguments : List Value) : Except Breach (FrameId × World) :=
  if arguments.length < formals.required.length then
    .error (.missing formals arguments.length)
  else if formals.rest = none ∧ formals.required.length < arguments.length then
    .error (.leftOver formals arguments.length)
  else .ok (world.bindArguments formals parent arguments)

namespace Operation

/-- The argument at a position, or the position if there is none. -/
def argumentAt (arguments : List Value) (position : Nat) : Except Nat Value :=
  match arguments[position]? with
  | some argument => .ok argument
  | none => .error position

/-- The outcome on arguments that are taken from their positions, however many there are. -/
def outcomeAt (next : Place) (arguments : List Value) :
    Operation → Except Nat (Except PrimitiveFault Answer)
  | .nullary apply => .ok (apply next)
  | .unary apply => do
      let first ← argumentAt arguments 0
      return apply next first
  | .binary apply => do
      let first ← argumentAt arguments 0
      let second ← argumentAt arguments 1
      return apply next first second
  | .variadic _ apply => .ok (apply next arguments)

end Operation

namespace Machine

section

variable (limit : Nat)

/-- Executes a primitive on arguments whose number is in its arity. -/
def invokeStrictly (machine : Machine) (operation : Primitive) (arguments : List Value) :
    Except Breach Progress :=
  let world := machine.world
  if operation.arity.accepts arguments.length then
    match operation.operation.outcomeAt world.store.next arguments with
    | .error position => .error (.noArgument operation position)
    | .ok (.error fault) => .ok (machine.fail (.primitive operation fault))
    | .ok (.ok answer) =>
        let store := { world.store with next := answer.next }
        let world := { world with store := store, output := world.output ++ answer.output }
        .ok ({ machine with world := world }.give answer.value)
  else .error (.unwelcome operation arguments.length)

def callPrimitiveStrictly (machine : Machine) (operation : Primitive) (arguments : List Value) :
    Except Breach Progress :=
  if operation.arity.accepts arguments.length then machine.invokeStrictly operation arguments
  else .ok (machine.fail (.arity (.primitive operation) arguments.length))

def callCompoundStrictly (machine : Machine) (place : Place) (name : Option Symbol)
    (formals : Formals) (arguments : List Value) (tail : Bool) : Except Breach Progress :=
  let callee : Procedure := .compound place name formals
  match machine.world.store.closures[place]? with
  | none => .ok (machine.fail (.notCallable (.procedure callee)))
  | some closure =>
      if formals.arity.accepts arguments.length then do
        let (frame, world) ←
          machine.world.bindArgumentsStrictly formals closure.frame arguments
        if tail then
          return { machine with world := world.record (.tailCall callee) }.proceed
            closure.body frame
        else return { machine with world := world }.suspend limit .body closure.body frame
      else .ok (machine.fail (.arity callee arguments.length))

def callStrictly (machine : Machine) (procedure : Value) (arguments : List Value)
    (tail : Bool) : Except Breach Progress :=
  match procedure with
  | .procedure (.primitive operation) => machine.callPrimitiveStrictly operation arguments
  | .procedure (.compound place name formals) =>
      machine.callCompoundStrictly limit place name formals arguments tail
  | other => .ok (machine.fail (.notCallable other))

/-- A call follows the last operand. -/
def runOperandsStrictly (machine : Machine) (procedure : Value) (reversed : List Value)
    (tail : Bool) (frame : FrameId) : List Node → Except Breach Progress
  | [] => machine.callStrictly limit procedure reversed.reverse tail
  | operand :: rest =>
      .ok (machine.runOperands limit procedure reversed tail frame (operand :: rest))

/-- A variable without a step has to be bound in the frame of the round itself. -/
def runLoopStepsStrictly (machine : Machine) (loop : Loop) (frame next : FrameId) :
    List LoopVariable → Except Breach Progress
  | [] => .ok (machine.runLoopSteps limit loop frame next [])
  | .mk name init (some step) :: rest =>
      .ok (machine.runLoopSteps limit loop frame next (.mk name init (some step) :: rest))
  | .mk name _ none :: rest =>
      match machine.world.store.bound? frame name with
      | none => .error (.lost name)
      | some value =>
          runLoopStepsStrictly { machine with world := machine.world.define next name value }
            loop frame next rest

def runLoopCommandsStrictly (machine : Machine) (loop : Loop) (frame : FrameId) :
    List Node → Except Breach Progress
  | [] =>
      let (next, world) := machine.world.child loop.outer
      { machine with world := world }.runLoopStepsStrictly limit loop frame next loop.varying
  | command :: rest => .ok (machine.runLoopCommands limit loop frame (command :: rest))

/-- Goes on with a suspended evaluation: the levels on which a call or the next round of a
loop may follow are strict about it. -/
def resumeStrictly (machine : Machine) (value : Value) : Level → Except Breach Progress
  | .operator operands tail frame =>
      machine.runOperandsStrictly limit value [] tail frame operands
  | .operand procedure reversed rest tail frame =>
      machine.runOperandsStrictly limit procedure (value :: reversed) tail frame rest
  | .receiver argument tail => machine.callStrictly limit value [argument] tail
  | .loopTest loop frame =>
      if value.isTrue then .ok (machine.resume limit value (.loopTest loop frame))
      else machine.runLoopCommandsStrictly limit loop frame loop.commands
  | .loopCommand rest loop frame => machine.runLoopCommandsStrictly limit loop frame rest
  | .loopStep name rest loop frame next =>
      { machine with world := machine.world.define next name value }.runLoopStepsStrictly limit
        loop frame next rest
  | level => .ok (machine.resume limit value level)

def stepStrictly (machine : Machine) : Control → Except Breach Progress
  | .run code frame => .ok (machine.step limit (.run code frame))
  | .give value =>
      match machine.levels with
      | [] => .ok (machine.step limit (.give value))
      | level :: levels =>
          { machine with levels := levels, depth := machine.depth - 1 }.resumeStrictly limit
            value level

/-- Steps strictly until the run ends or is broken off, `fuel` steps at most. -/
def runStrictly (fuel : Nat) (control : Control) (machine : Machine) :
    Except Breach (Option (Except RunError Value × World)) :=
  match fuel with
  | 0 => .ok none
  | fuel + 1 =>
      match machine.stepStrictly limit control with
      | .error breach => .error breach
      | .ok (.running control machine) => runStrictly fuel control machine
      | .ok (.ended outcome world) => .ok (some (outcome, world))

end

end Machine

/-- Evaluates a program in a frame on the strict machine. -/
def World.runStrictly (world : World) (limit fuel : Nat) (code : Node) (frame : FrameId) :
    Except Breach (Option (Except RunError Value × World)) :=
  if 0 < limit then Machine.runStrictly limit fuel (.run code frame) ⟨world, [], 1⟩
  else .ok (some (.error .tooDeep, world))

/-! ## Calls

The check of the arity is all that calls count on. -/

theorem World.bindArgumentsStrictly_eq (world : World) {formals : Formals}
    (parent : FrameId) {arguments : List Value}
    (accepted : formals.arity.accepts arguments.length = true) :
    world.bindArgumentsStrictly formals parent arguments =
      .ok (world.bindArguments formals parent arguments) := by
  rcases (Arity.accepts_iff _ _).mp accepted with ⟨enough, noMore⟩
  have tooFew : ¬arguments.length < formals.required.length := Nat.not_lt.mpr enough
  have fits : ¬(formals.rest = none ∧ formals.required.length < arguments.length) := by
    rintro ⟨noRest, more⟩
    have atMost := noMore (by simp [Formals.arity, noRest])
    exact Nat.not_lt.mpr atMost more
  rw [bindArgumentsStrictly, if_neg tooFew, if_neg fits]

/-- An operation finds every argument that it takes, if their number is in its arity. -/
theorem Operation.outcomeAt_of_accepts (operation : Operation) (next : Place)
    {arguments : List Value} (accepted : operation.arity.accepts arguments.length = true) :
    ∃ outcome, operation.outcomeAt next arguments = .ok outcome ∧
      operation.answer? next arguments = some outcome := by
  rw [← operation.isSome_answer? next arguments] at accepted
  cases operation with
  | nullary apply =>
      rcases arguments with _ | ⟨first, rest⟩
      · exact ⟨_, rfl, rfl⟩
      · cases accepted
  | unary apply =>
      rcases arguments with _ | ⟨first, _ | ⟨second, rest⟩⟩
      · cases accepted
      · exact ⟨_, rfl, rfl⟩
      · cases accepted
  | binary apply =>
      rcases arguments with _ | ⟨first, _ | ⟨second, _ | ⟨third, rest⟩⟩⟩
      · cases accepted
      · cases accepted
      · exact ⟨_, rfl, rfl⟩
      · cases accepted
  | variadic least apply =>
      rcases Option.isSome_iff_exists.mp accepted with ⟨outcome, answered⟩
      refine ⟨outcome, ?_, answered⟩
      simp only [answer?] at answered
      split at answered
      · exact congrArg Except.ok (Option.some.inj answered)
      · cases answered

namespace Machine

section

variable {limit : Nat} (machine : Machine)

theorem callPrimitiveStrictly_eq (operation : Primitive) (arguments : List Value) :
    machine.callPrimitiveStrictly operation arguments =
      .ok (machine.callPrimitive operation arguments) := by
  unfold callPrimitiveStrictly callPrimitive
  by_cases accepted : operation.arity.accepts arguments.length = true
  · rcases operation.operation.outcomeAt_of_accepts machine.world.store.next accepted with
      ⟨outcome, found, answered⟩
    simp only [accepted, if_true, invokeStrictly, found, answered]
    cases outcome with
    | error fault => rfl
    | ok answer => rfl
  · have refused : operation.operation.answer? machine.world.store.next arguments = none := by
      rw [← Option.not_isSome_iff_eq_none, Operation.isSome_answer?]
      exact accepted
    simp only [accepted, refused, Bool.false_eq_true, if_false]

theorem callCompoundStrictly_eq (place : Place) (name : Option Symbol) (formals : Formals)
    (arguments : List Value) (tail : Bool) :
    machine.callCompoundStrictly limit place name formals arguments tail =
      .ok (machine.callCompound limit place name formals arguments tail) := by
  unfold callCompoundStrictly callCompound
  cases machine.world.store.closures[place]? with
  | none => rfl
  | some closure =>
      by_cases accepted : formals.arity.accepts arguments.length = true
      · simp only [accepted, if_true, World.bindArgumentsStrictly_eq _ _ accepted]
        cases tail <;> rfl
      · simp only [accepted, Bool.false_eq_true, if_false]

theorem callStrictly_eq (procedure : Value) (arguments : List Value) (tail : Bool) :
    machine.callStrictly limit procedure arguments tail =
      .ok (machine.call limit procedure arguments tail) := by
  rcases procedure with _ | _ | _ | _ | _ | _ | ⟨operation | ⟨place, name, formals⟩⟩
  case procedure.primitive => exact machine.callPrimitiveStrictly_eq operation arguments
  case procedure.compound =>
    exact machine.callCompoundStrictly_eq place name formals arguments tail
  all_goals rfl

theorem runOperandsStrictly_eq (procedure : Value) (reversed : List Value) (tail : Bool)
    (frame : FrameId) (operands : List Node) :
    machine.runOperandsStrictly limit procedure reversed tail frame operands =
      .ok (machine.runOperands limit procedure reversed tail frame operands) := by
  cases operands with
  | nil => exact machine.callStrictly_eq procedure reversed.reverse tail
  | cons operand rest => rfl

end

end Machine

/-! ## Loops

The variables of a loop are bound one after the other, first by the inits and then, in the
frame of the next round, by the steps. Stores only grow, so that what a frame binds it binds
for good. -/

/-- A frame of a loop binds each variable of the loop, up to those that are still pending. -/
structure Loop.Bound (loop : Loop) (store : Store) (frame : FrameId) (pending : List Symbol) :
    Prop where
  inStore : frame < store.frames.size
  names : ∀ item ∈ loop.varying, item.name ∈ pending ∨ store.binds frame item.name = true

namespace Loop.Bound

variable {loop : Loop} {store after : Store} {frame : FrameId} {pending : List Symbol}

theorem mono (bound : loop.Bound store frame pending) (grows : store.Grows after) :
    loop.Bound after frame pending where
  inStore := grows.inStore bound.inStore
  names item member := (bound.names item member).imp id grows.names

theorem child (loop : Loop) (store : Store) (parent : FrameId) :
    loop.Bound (store.child parent).2 (store.child parent).1
      (loop.varying.map LoopVariable.name) where
  inStore := store.child_lt_size parent
  names _ member := .inl (List.mem_map_of_mem member)

/-- The next of the pending variables gets its value. -/
theorem define {name : Symbol} (bound : loop.Bound store frame (name :: pending))
    (value : Value) : loop.Bound (store.define frame name value) frame pending where
  inStore := by simpa using bound.inStore
  names item member := by
    rcases bound.names item member with waits | binds
    · rcases List.mem_cons.mp waits with same | waits
      · right
        rw [Store.binds, Store.bound?_define, if_pos ⟨rfl, same, bound.inStore⟩]
        rfl
      · exact .inl waits
    · exact .inr ((store.define_grows frame name value).names binds)

theorem binds {item : LoopVariable} (bound : loop.Bound store frame [])
    (member : item ∈ loop.varying) : store.binds frame item.name = true := by
  rcases bound.names item member with waits | binds
  · cases waits
  · exact binds

end Loop.Bound

/-- What the levels of a loop count on. -/
def Level.Bound (store : Store) : Level → Prop
  | .loopInit name rest loop frame =>
      loop.Bound store frame (name :: rest.map LoopVariable.name)
  | .loopTest loop frame => loop.Bound store frame []
  | .loopCommand _ loop frame => loop.Bound store frame []
  | .loopStep name rest loop frame next =>
      loop.Bound store frame [] ∧ rest ⊆ loop.varying ∧
        loop.Bound store next (name :: rest.map LoopVariable.name)
  | _ => True

theorem Level.Bound.mono {level : Level} {store after : Store} (bound : level.Bound store)
    (grows : store.Grows after) : level.Bound after := by
  cases level with
  | loopInit name rest loop frame => exact Loop.Bound.mono bound grows
  | loopTest loop frame => exact Loop.Bound.mono bound grows
  | loopCommand rest loop frame => exact Loop.Bound.mono bound grows
  | loopStep name rest loop frame next =>
      exact ⟨bound.1.mono grows, bound.2.1, bound.2.2.mono grows⟩
  | _ => trivial

def Machine.Bound (machine : Machine) : Prop :=
  ∀ level ∈ machine.levels, level.Bound machine.world.store

def Progress.Bound : Progress → Prop
  | .running _ machine => machine.Bound
  | .ended .. => True

namespace Machine

section

variable {limit : Nat} {machine : Machine}

/-- Whatever the world becomes, as long as its store has grown. -/
theorem Bound.after (bound : machine.Bound) {world : World}
    (grows : machine.world.store.Grows world.store) :
    Bound { machine with world := world } :=
  fun level member => (bound level member).mono grows

theorem bound_of_no_levels (world : World) (depth : Nat) : Bound ⟨world, [], depth⟩ :=
  List.forall_mem_nil _

theorem Bound.suspend (bound : machine.Bound) {level : Level} {code : Node} {frame : FrameId}
    (levelBound : level.Bound machine.world.store) :
    (machine.suspend limit level code frame).Bound := by
  unfold Machine.suspend
  split
  · exact List.forall_mem_cons.mpr ⟨levelBound, bound⟩
  · trivial

theorem Bound.runSequence (bound : machine.Bound) (frame : FrameId) (parts : List Node) :
    (machine.runSequence limit frame parts).Bound := by
  rcases parts with _ | ⟨first, _ | ⟨second, rest⟩⟩
  · exact bound
  · exact bound
  · exact bound.suspend trivial

theorem Bound.runConjunction (bound : machine.Bound) (frame : FrameId) (tests : List Node) :
    (machine.runConjunction limit frame tests).Bound := by
  rcases tests with _ | ⟨first, _ | ⟨second, rest⟩⟩
  · exact bound
  · exact bound
  · exact bound.suspend trivial

theorem Bound.runDisjunction (bound : machine.Bound) (frame : FrameId) (tests : List Node) :
    (machine.runDisjunction limit frame tests).Bound := by
  rcases tests with _ | ⟨first, _ | ⟨second, rest⟩⟩
  · exact bound
  · exact bound
  · exact bound.suspend trivial

theorem Bound.runClauses (bound : machine.Bound) (frame : FrameId) (clauses : List Clause) :
    (machine.runClauses limit frame clauses).Bound := by
  rcases clauses with _ | ⟨clause, rest⟩
  · exact bound
  · cases clause with
    | otherwise body => exact bound
    | test test => exact bound.suspend trivial
    | arrow test receiver tail => exact bound.suspend trivial
    | body test body => exact bound.suspend trivial

theorem Bound.callPrimitive (bound : machine.Bound) (operation : Primitive)
    (arguments : List Value) : (machine.callPrimitive operation arguments).Bound := by
  unfold Machine.callPrimitive
  dsimp only
  split
  · trivial
  · trivial
  · exact bound.after (Store.next_grows _ _)

theorem Bound.callCompound (bound : machine.Bound) (place : Place) (name : Option Symbol)
    (formals : Formals) (arguments : List Value) (tail : Bool) :
    (machine.callCompound limit place name formals arguments tail).Bound := by
  unfold Machine.callCompound
  dsimp only
  split
  · trivial
  · rename_i closure _
    have grows := machine.world.store.bindArguments_grows formals closure.frame arguments
    split
    · split
      · apply bound.after
        rw [World.store_record]
        exact grows
      · exact (bound.after grows).suspend trivial
    · trivial

theorem Bound.call (bound : machine.Bound) (procedure : Value) (arguments : List Value)
    (tail : Bool) : (machine.call limit procedure arguments tail).Bound := by
  rcases procedure with _ | _ | _ | _ | _ | _ | ⟨operation | ⟨place, name, formals⟩⟩
  case procedure.primitive => exact bound.callPrimitive operation arguments
  case procedure.compound => exact bound.callCompound place name formals arguments tail
  all_goals trivial

theorem Bound.runOperands (bound : machine.Bound) (procedure : Value) (reversed : List Value)
    (tail : Bool) (frame : FrameId) (operands : List Node) :
    (machine.runOperands limit procedure reversed tail frame operands).Bound := by
  cases operands with
  | nil => exact bound.call procedure reversed.reverse tail
  | cons operand rest => exact bound.suspend trivial

theorem Bound.runBindings (bound : machine.Bound) (body : Node) (scope inner : FrameId)
    (bindings : List (Symbol × Node)) :
    (machine.runBindings limit body scope inner bindings).Bound := by
  cases bindings with
  | nil => exact bound
  | cons binding rest => exact bound.suspend trivial

theorem Bound.runLoopInits (bound : machine.Bound) {loop : Loop} {frame : FrameId}
    {rest : List LoopVariable}
    (loopBound : loop.Bound machine.world.store frame (rest.map LoopVariable.name)) :
    (machine.runLoopInits limit loop frame rest).Bound := by
  rcases rest with _ | ⟨⟨name, init, step⟩, rest⟩
  · exact bound.suspend loopBound
  · exact bound.suspend loopBound

theorem Bound.runLoopSteps (bound : machine.Bound) {loop : Loop} {frame next : FrameId}
    {rest : List LoopVariable} (round : loop.Bound machine.world.store frame [])
    (within : rest ⊆ loop.varying)
    (loopBound : loop.Bound machine.world.store next (rest.map LoopVariable.name)) :
    (machine.runLoopSteps limit loop frame next rest).Bound := by
  -- The variables without a step are carried over in one go; each leaves one fewer pending.
  induction rest generalizing machine with
  | nil =>
      have same := World.store_record machine.world .nextRound
      apply (bound.after (same ▸ Store.Grows.refl _)).suspend
      exact same.symm ▸ loopBound
  | cons item rest induction =>
      rcases item with ⟨name, init, _ | step⟩
      · simp only [Machine.runLoopSteps]
        split
        · trivial
        · rename_i value _
          have grows := machine.world.store.define_grows next name value
          exact induction (bound.after grows) (round.mono grows)
            (List.cons_subset.mp within).2 (loopBound.define value)
      · exact bound.suspend ⟨round, (List.cons_subset.mp within).2, loopBound⟩

theorem Bound.runLoopCommands (bound : machine.Bound) {loop : Loop} {frame : FrameId}
    (round : loop.Bound machine.world.store frame []) (commands : List Node) :
    (machine.runLoopCommands limit loop frame commands).Bound := by
  cases commands with
  | nil =>
      have grows := machine.world.store.enter_grows loop.outer []
      exact runLoopSteps (bound.after grows) (round.mono grows) (List.Subset.refl _)
        (.child loop machine.world.store loop.outer)
  | cons command rest => exact bound.suspend round

theorem Bound.execute (bound : machine.Bound) (frame : FrameId) (code : Node) :
    (machine.execute limit frame code).Bound := by
  have entered : Bound { machine with world := (machine.world.child frame).2 } :=
    bound.after (machine.world.store.enter_grows frame [])
  cases code with
  | literal value => exact bound
  | quote value => exact bound
  | «variable» name =>
      simp only [Machine.execute]
      split
      · exact bound
      · trivial
  | branch test consequent alternate => exact bound.suspend trivial
  | sequence parts => exact bound.runSequence frame parts
  | lambda name formals body =>
      exact bound.after (machine.world.store.close_grows name formals body frame)
  | define name value => exact bound.suspend trivial
  | assign name value => exact bound.suspend trivial
  | call operator operands tail => exact bound.suspend trivial
  | letIn bindings body => exact entered.runBindings body frame _ bindings
  | letrec bindings body =>
      have defined := entered.after (predefine_grows _ (machine.world.child frame).1 bindings)
      exact defined.runBindings body _ _ bindings
  | loop varying test result commands =>
      apply entered.runLoopInits
      exact .child ⟨varying, test, result, commands, frame⟩ machine.world.store frame
  | cond clauses => exact bound.runClauses frame clauses
  | conjunction tests => exact bound.runConjunction frame tests
  | disjunction tests => exact bound.runDisjunction frame tests

theorem Bound.resume (bound : machine.Bound) (value : Value) {level : Level}
    (levelBound : level.Bound machine.world.store) :
    (machine.resume limit value level).Bound := by
  have defined (frame : FrameId) (name : Symbol) :
      Bound { machine with world := machine.world.define frame name value } :=
    bound.after (machine.world.store.define_grows frame name value)
  cases level with
  | branch consequent alternate frame =>
      simp only [Machine.resume]
      split
      · exact bound
      · cases alternate <;> exact bound
  | sequence rest frame => exact bound.runSequence frame rest
  | define name frame => exact defined frame name
  | assign name frame =>
      simp only [Machine.resume]
      split
      · exact defined _ name
      · trivial
  | operator operands tail frame => exact bound.runOperands value [] tail frame operands
  | operand procedure reversed rest tail frame =>
      exact bound.runOperands procedure (value :: reversed) tail frame rest
  | binding name rest body scope inner => exact (defined inner name).runBindings body scope inner rest
  | loopInit name rest loop frame =>
      exact (defined frame name).runLoopInits (Loop.Bound.define levelBound value)
  | loopTest loop frame =>
      simp only [Machine.resume]
      split
      · cases loop.result <;> exact bound
      · exact bound.runLoopCommands levelBound loop.commands
  | loopCommand rest loop frame => exact bound.runLoopCommands levelBound rest
  | loopStep name rest loop frame next =>
      rcases levelBound with ⟨round, within, loopBound⟩
      exact (defined next name).runLoopSteps
        (round.mono (machine.world.store.define_grows next name value)) within
        (loopBound.define value)
  | clause clause rest frame =>
      simp only [Machine.resume]
      split
      · cases clause with
        | arrow test receiver tail => exact bound.suspend trivial
        | _ => exact bound
      · exact bound.runClauses frame rest
  | receiver argument tail => exact bound.call value [argument] tail
  | conjunction rest frame =>
      simp only [Machine.resume]
      split
      · exact bound.runConjunction frame rest
      · exact bound
  | disjunction rest frame =>
      simp only [Machine.resume]
      split
      · exact bound
      · exact bound.runDisjunction frame rest
  | body => exact bound

theorem Bound.step (bound : machine.Bound) (control : Control) :
    (machine.step limit control).Bound := by
  cases control with
  | run code frame =>
      have same := World.store_observe machine.world machine.depth code.kind
      exact (bound.after (same ▸ Store.Grows.refl _)).execute frame code
  | give value =>
      rcases machine with ⟨world, _ | ⟨level, levels⟩, depth⟩
      · trivial
      · rcases List.forall_mem_cons.mp bound with ⟨first, others⟩
        have below : Bound ⟨world, levels, depth - 1⟩ := others
        exact below.resume value first

end

end Machine

theorem Progress.Bound.reaches {limit : Nat} {start stop : Progress}
    (reaches : Reaches limit start stop) (bound : start.Bound) : stop.Bound := by
  induction reaches with
  | refl => exact bound
  | @tail middle after _ step induction =>
      cases middle with
      | running control machine =>
          cases step
          exact Machine.Bound.step induction control
      | ended outcome world => cases step

theorem World.start_bound (world : World) (limit : Nat) (code : Node) (frame : FrameId) :
    (world.start limit code frame).Bound := by
  unfold World.start
  split
  · exact Machine.bound_of_no_levels world 1
  · trivial

/-! ## Strict steps -/

namespace Machine

variable {limit : Nat} {machine : Machine}

theorem runLoopStepsStrictly_eq {loop : Loop} {frame next : FrameId}
    {rest : List LoopVariable} (round : loop.Bound machine.world.store frame [])
    (within : rest ⊆ loop.varying) :
    machine.runLoopStepsStrictly limit loop frame next rest =
      .ok (machine.runLoopSteps limit loop frame next rest) := by
  induction rest generalizing machine with
  | nil => rfl
  | cons item rest induction =>
      rcases List.cons_subset.mp within with ⟨member, others⟩
      rcases item with ⟨name, init, _ | step⟩
      · rcases Option.isSome_iff_exists.mp (round.binds member) with ⟨value, found⟩
        have grows := machine.world.store.define_grows next name value
        simp only [LoopVariable.name] at found
        simp only [runLoopStepsStrictly, runLoopSteps, found, Store.get?_of_bound? found]
        exact induction (round.mono grows) others
      · rfl

theorem runLoopCommandsStrictly_eq {loop : Loop} {frame : FrameId}
    (round : loop.Bound machine.world.store frame []) (commands : List Node) :
    machine.runLoopCommandsStrictly limit loop frame commands =
      .ok (machine.runLoopCommands limit loop frame commands) := by
  cases commands with
  | nil =>
      have grows := machine.world.store.enter_grows loop.outer []
      exact runLoopStepsStrictly_eq (round.mono grows) (List.Subset.refl _)
  | cons command rest => rfl

theorem resumeStrictly_eq (value : Value) {level : Level}
    (levelBound : level.Bound machine.world.store) :
    machine.resumeStrictly limit value level = .ok (machine.resume limit value level) := by
  cases level with
  | operator operands tail frame =>
      exact machine.runOperandsStrictly_eq value [] tail frame operands
  | operand procedure reversed rest tail frame =>
      exact machine.runOperandsStrictly_eq procedure (value :: reversed) tail frame rest
  | receiver argument tail => exact machine.callStrictly_eq value [argument] tail
  | loopTest loop frame =>
      simp only [resumeStrictly, resume]
      split
      · rfl
      · exact runLoopCommandsStrictly_eq levelBound loop.commands
  | loopCommand rest loop frame => exact runLoopCommandsStrictly_eq levelBound rest
  | loopStep name rest loop frame next =>
      have grows := machine.world.store.define_grows next name value
      exact runLoopStepsStrictly_eq (levelBound.1.mono grows) levelBound.2.1
  | _ => rfl

theorem stepStrictly_eq (bound : machine.Bound) (control : Control) :
    machine.stepStrictly limit control = .ok (machine.step limit control) := by
  cases control with
  | run code frame => rfl
  | give value =>
      rcases machine with ⟨world, _ | ⟨level, levels⟩, depth⟩
      · rfl
      · exact resumeStrictly_eq value (List.forall_mem_cons.mp bound).1

theorem runStrictly_eq (bound : machine.Bound) (fuel : Nat) (control : Control) :
    machine.runStrictly limit fuel control = .ok (machine.run limit fuel control) := by
  induction fuel generalizing machine control with
  | zero => rfl
  | succ fuel induction =>
      have next : (machine.step limit control).Bound := bound.step control
      rw [runStrictly, run, stepStrictly_eq bound control]
      cases stepped : machine.step limit control with
      | running control machine =>
          rw [stepped] at next
          exact induction next control
      | ended outcome world => rfl

end Machine

/-- In every state that the run of a program comes to, from any world, the strict machine
takes the step that the machine takes. So a procedure body is only entered with an argument
for each required parameter and with none left over, a primitive is only invoked with a
number of arguments in its arity and finds the arguments that it takes, and the frame of a
finished round still binds every variable without a step. -/
theorem runs_are_never_broken_off (world : World) (limit : Nat) (code : Node)
    (frame : FrameId) :
    (∀ control machine,
      Progress.Reaches limit (world.start limit code frame) (.running control machine) →
        machine.stepStrictly limit control = .ok (machine.step limit control)) ∧
    ∀ fuel, world.runStrictly limit fuel code frame = .ok (world.run limit fuel code frame) := by
  refine ⟨?_, ?_⟩
  · intro control machine reaches
    have bound := Progress.Bound.reaches reaches (world.start_bound limit code frame)
    exact Machine.stepStrictly_eq bound control
  · intro fuel
    unfold World.runStrictly World.run
    split
    · exact Machine.runStrictly_eq (Machine.bound_of_no_levels world 1) fuel (.run code frame)
    · rfl

/-- `(do ((k 7) (done #f #t)) (done (cond (k => (lambda all (cons k all))))))` has a variable
without a step, a call of a procedure with a rest parameter and one of a primitive. -/
def Node.carrying : Node :=
  .loop
    [.mk ⟨"k"⟩ (.literal (.number (.integer 7))) none,
      .mk ⟨"done"⟩ (.literal (.boolean false)) (some (.literal (.boolean true)))]
    (.variable ⟨"done"⟩)
    (some (.cond [.arrow (.variable ⟨"k"⟩)
      (.lambda none ⟨[], some ⟨"all"⟩⟩
        (.call (.variable ⟨"cons"⟩) [.variable ⟨"k"⟩, .variable ⟨"all"⟩] true)) true]))
    []

/-- The first round of the loop ends where its test has given `#f`; there, and in the whole
run, which makes the list `(7 7)`, the strict machine does what the machine does. -/
theorem runs_are_never_broken_off_carrying :
    (∃ loop machine,
      Progress.Reaches 9 ((World.ofStore Store.standard).start 9 Node.carrying Store.root)
        (.running (.give (.boolean false)) machine) ∧
      machine.levels = [.loopTest loop 1] ∧
      machine.stepStrictly 9 (.give (.boolean false)) =
        .ok (machine.step 9 (.give (.boolean false)))) ∧
    ((World.ofStore Store.standard).runStrictly 9 40 Node.carrying Store.root).map
        (Option.map Prod.fst) =
      .ok (some (.ok (.pair 1 (.number (.integer 7)) (.pair 0 (.number (.integer 7)) .nil)))) := by
  have strict := runs_are_never_broken_off (World.ofStore Store.standard) 9 Node.carrying
    Store.root
  have tests : ∃ loop machine,
      Progress.Reaches 9 ((World.ofStore Store.standard).start 9 Node.carrying Store.root)
        (.running (.run (.variable ⟨"done"⟩) 1) machine) ∧
      machine.levels = [.loopTest loop 1] ∧
      machine.world.store.get? 1 ⟨"done"⟩ = some (.boolean false) := by
    refine ⟨_, _, .head rfl (.head rfl (.head rfl (.head rfl (.head rfl .refl)))), rfl, ?_⟩
    cbv
  rcases tests with ⟨loop, machine, reaches, levels, found⟩
  have tested : machine.step 9 (.run (.variable ⟨"done"⟩) 1) =
      .running (.give (.boolean false))
        { machine with world := machine.world.observe machine.depth .variable } := by
    simp only [Machine.step, Machine.execute, World.store_observe, found]
    rfl
  have ends := Relation.ReflTransGen.tail reaches tested.symm
  refine ⟨⟨loop, _, ends, levels, strict.1 _ _ ends⟩, ?_⟩
  rw [strict.2]
  cbv

/-- In a state that no run comes to, a variable that its frame has lost is noticed. -/
example :
    Machine.stepStrictly 9
      ⟨World.ofStore Store.standard,
        [.loopTest ⟨[.mk ⟨"k"⟩ (.literal .nil) none], .literal .nil, none, [], 0⟩ 0], 2⟩
      (.give (.boolean false)) = .error (.lost ⟨"k"⟩) := by cbv

end SmallScheme
