import SmallScheme.Machine.Run

namespace SmallScheme

/-! # Evaluation by plain recursion

What a node tree means, without a machine: the parts of an expression are
evaluated by recursion, and so are the bodies of procedures. There is no stack
and no depth, and the marks of tail calls are not looked at. The first failure
ends an evaluation; what was done before it stays done.

An evaluation need not end, so it is given fuel. Fuel that runs out leaves no
result at all, neither a value nor a failure. -/

/-- What a program can see and change. -/
structure Scene where
  store : Store
  /-- The text written so far. -/
  output : String

/-- The scene of a world, without what is only observed of it. -/
def World.scene (world : World) : Scene :=
  ⟨world.store, world.output⟩

abbrev Evaluation := ExceptT RunError (StateT Scene Option)

namespace Evaluation

/-- No fuel is left. -/
def exhausted {α : Type} : Evaluation α := fun _ => none

/-- An action on the store alone. -/
def onStore {α : Type} (action : Store → α × Store) : Evaluation α :=
  modifyGet fun scene =>
    let (result, store) := action scene.store
    (result, { scene with store := store })

def define (frame : FrameId) (name : Symbol) (value : Value) : Evaluation Unit :=
  onStore fun store => ((), store.define frame name value)

def lookup (frame : FrameId) (name : Symbol) : Evaluation Value := do
  match (← get).store.get? frame name with
  | some value => return value
  | none => throw (.unbound name)

def assign (frame : FrameId) (name : Symbol) (value : Value) : Evaluation Unit := do
  match (← get).store.assign? frame name value with
  | some store => modify fun scene => { scene with store := store }
  | none => throw (.unbound name)

/-- Binds names to `()` until they get their values. -/
def predefine (frame : FrameId) : List (Symbol × Node) → Evaluation Unit
  | [] => return ()
  | (name, _) :: rest => do
      define frame name .nil
      predefine frame rest

/-- Executes a primitive. -/
def callPrimitive (operation : Primitive) (arguments : List Value) : Evaluation Value := do
  match operation.operation.answer? (← get).store.next arguments with
  | none => throw (.arity (.primitive operation) arguments.length)
  | some (.error fault) => throw (.primitive operation fault)
  | some (.ok answer) =>
      modify fun scene =>
        ⟨{ scene.store with next := answer.next }, scene.output ++ answer.output⟩
      return answer.value

/-! ## Results of actions -/

section

variable {α β : Type}

/-- Goes on from a result, if that is a value. -/
def andThen (next : α → Evaluation β) :
    Option (Except RunError α × Scene) → Option (Except RunError β × Scene)
  | none => none
  | some (.error error, after) => some (.error error, after)
  | some (.ok value, after) => next value after

@[simp] theorem andThen_ok (next : α → Evaluation β) (value : α) (after : Scene) :
    andThen next (some (.ok value, after)) = next value after := rfl

theorem bind_apply (action : Evaluation α) (next : α → Evaluation β) (scene : Scene) :
    (action >>= next) scene = andThen next (action scene) := by
  change Option.bind (action scene) _ = _
  rcases action scene with _ | ⟨_ | _, _⟩ <;> rfl

@[simp] theorem get_apply (scene : Scene) :
    (get : Evaluation Scene) scene = some (.ok scene, scene) := rfl

@[simp] theorem onStore_apply (action : Store → α × Store) (scene : Scene) :
    onStore action scene =
      some (.ok (action scene.store).1, { scene with store := (action scene.store).2 }) := rfl

theorem lookup_apply (frame : FrameId) (name : Symbol) (scene : Scene) :
    lookup frame name scene =
      match scene.store.get? frame name with
      | some value => some (.ok value, scene)
      | none => some (.error (.unbound name), scene) := by
  simp only [lookup, bind_apply, get_apply, andThen_ok]
  cases scene.store.get? frame name <;> rfl

theorem assign_apply (frame : FrameId) (name : Symbol) (value : Value) (scene : Scene) :
    assign frame name value scene =
      match scene.store.assign? frame name value with
      | some store => some (.ok (), { scene with store := store })
      | none => some (.error (.unbound name), scene) := by
  simp only [assign, bind_apply, get_apply, andThen_ok]
  cases scene.store.assign? frame name value <;> rfl

theorem callPrimitive_apply (operation : Primitive) (arguments : List Value) (scene : Scene) :
    callPrimitive operation arguments scene =
      match operation.operation.answer? scene.store.next arguments with
      | none => some (.error (.arity (.primitive operation) arguments.length), scene)
      | some (.error fault) => some (.error (.primitive operation fault), scene)
      | some (.ok answer) =>
          some (.ok answer.value,
            ⟨{ scene.store with next := answer.next }, scene.output ++ answer.output⟩) := by
  simp only [callPrimitive, bind_apply, get_apply, andThen_ok]
  rcases operation.operation.answer? scene.store.next arguments with _ | _ | _ <;> rfl

end

end Evaluation

/-- Evaluates an expression as a frame sees it. -/
abbrev Evaluator := FrameId → Node → Evaluation Value

namespace Evaluator

open Evaluation

section

variable (evaluate : Evaluator)

/-! ## Sequences and tests -/

/-- The value is that of the last part. -/
def sequence (frame : FrameId) : List Node → Evaluation Value
  | [] => return .nil
  | [last] => evaluate frame last
  | first :: rest => do
      let _ ← evaluate frame first
      sequence frame rest

def conjunction (frame : FrameId) : List Node → Evaluation Value
  | [] => return .boolean true
  | [last] => evaluate frame last
  | first :: rest => do
      let value ← evaluate frame first
      if value.isTrue then conjunction frame rest else return value

def disjunction (frame : FrameId) : List Node → Evaluation Value
  | [] => return .boolean false
  | [last] => evaluate frame last
  | first :: rest => do
      let value ← evaluate frame first
      if value.isTrue then return value else disjunction frame rest

/-! ## Calls -/

/-- Calls a procedure with arguments that have been evaluated; only now are they
counted. -/
def apply (procedure : Value) (arguments : List Value) : Evaluation Value :=
  match procedure with
  | .procedure (.primitive operation) => callPrimitive operation arguments
  | .procedure (.compound place name formals) => do
      match (← get).store.closures[place]? with
      | none => throw (.notCallable procedure)
      | some closure =>
          if formals.arity.accepts arguments.length then
            let frame ← onStore (·.bindArguments formals closure.frame arguments)
            evaluate frame closure.body
          else throw (.arity (.compound place name formals) arguments.length)
  | other => throw (.notCallable other)

def clauses (frame : FrameId) : List Clause → Evaluation Value
  | [] => return .nil
  | .otherwise body :: _ => evaluate frame body
  | .test test :: rest => do
      let value ← evaluate frame test
      if value.isTrue then return value else clauses frame rest
  | .arrow test receiver _ :: rest => do
      let value ← evaluate frame test
      if value.isTrue then
        let receiver ← evaluate frame receiver
        apply evaluate receiver [value]
      else clauses frame rest
  | .body test body :: rest => do
      let value ← evaluate frame test
      if value.isTrue then evaluate frame body else clauses frame rest

/-! ## Bindings and loops -/

/-- Evaluates inits in `scope` and binds their values in `inner`, one by one. -/
def bindEach (scope inner : FrameId) : List (Symbol × Node) → Evaluation Unit
  | [] => return ()
  | (name, init) :: rest => do
      define inner name (← evaluate scope init)
      bindEach scope inner rest

/-- Executes commands for what they do. -/
def perform (frame : FrameId) : List Node → Evaluation Unit
  | [] => return ()
  | command :: rest => do
      let _ ← evaluate frame command
      perform frame rest

/-- Binds the variables of the next round, whose frame is `next`, to what their
steps yield in `frame`. -/
def bindSteps (frame next : FrameId) : List LoopVariable → Evaluation Unit
  | [] => return ()
  | .mk name _ (some step) :: rest => do
      define next name (← evaluate frame step)
      bindSteps frame next rest
  | .mk name _ none :: rest => do
      define next name (← lookup frame name)
      bindSteps frame next rest

/-- The rounds of a loop, `count` of them at most. -/
def rounds (loop : Loop) : Nat → FrameId → Evaluation Value
  | 0, _ => exhausted
  | count + 1, frame => do
      let value ← evaluate frame loop.test
      if value.isTrue then
        match loop.result with
        | some result => evaluate frame result
        | none => return .nil
      else
        perform evaluate frame loop.commands
        let next ← onStore (·.child loop.outer)
        bindSteps evaluate frame next loop.varying
        rounds loop count next

/-! ## Expressions -/

/-- Any expression. The evaluator is asked for its parts and for the bodies of
procedures; a loop makes `count` rounds at most. -/
def expression (count : Nat) (frame : FrameId) : Node → Evaluation Value
  | .literal value => return value
  | .quote value => return value
  | .variable name => lookup frame name
  | .branch test consequent alternate => do
      let value ← evaluate frame test
      if value.isTrue then evaluate frame consequent
      else
        match alternate with
        | some alternate => evaluate frame alternate
        | none => return .nil
  | .sequence parts => sequence evaluate frame parts
  | .lambda name formals body => onStore (·.close name formals body frame)
  | .define name value => do
      define frame name (← evaluate frame value)
      return .nil
  | .assign name value => do
      let value ← evaluate frame value
      assign frame name value
      return value
  | .call operator operands _ => do
      let procedure ← evaluate frame operator
      let arguments ← operands.mapM (evaluate frame)
      apply evaluate procedure arguments
  | .letIn bindings body => do
      let inner ← onStore (·.child frame)
      bindEach evaluate frame inner bindings
      evaluate inner body
  | .letrec bindings body => do
      let inner ← onStore (·.child frame)
      predefine inner bindings
      bindEach evaluate inner inner bindings
      evaluate inner body
  | .loop varying test result commands => do
      let inner ← onStore (·.child frame)
      bindEach evaluate frame inner (varying.map fun item => (item.name, item.init))
      rounds evaluate ⟨varying, test, result, commands, frame⟩ count inner
  | .cond items => clauses evaluate frame items
  | .conjunction tests => conjunction evaluate frame tests
  | .disjunction tests => disjunction evaluate frame tests

end

/-- The evaluator with a given amount of fuel. -/
def within : Nat → Evaluator
  | 0 => fun _ _ => exhausted
  | fuel + 1 => expression (within fuel) fuel

end Evaluator

/-- The evaluation of a program in a frame ends with an outcome, and leaves the
scene `after`. -/
def Evaluates (frame : FrameId) (code : Node) (before : Scene)
    (outcome : Except RunError Value) (after : Scene) : Prop :=
  ∃ fuel, Evaluator.within fuel frame code before = some (outcome, after)

end SmallScheme
