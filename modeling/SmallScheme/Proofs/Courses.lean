import Mathlib.Data.List.Forall2
import SmallScheme.Proofs.Adequacy

namespace SmallScheme

/-! # Where courses lead

How a run goes on from a known scene, and how many levels it takes for that. Each rule is
about one kind of node or level; a run of a program is put together from them.

The machine stands anywhere, under whatever levels, with some room left under the limit. -/

open Progress

/-- From one scene a course of the machine leads to another course in another scene, if
there is room for so many levels more. -/
def Passes (room : Nat) (before : Scene) (start : Course) (after : Scene) (stop : Course) :
    Prop :=
  ∀ limit machine, machine.world.scene = before → machine.depth + room ≤ limit →
    ∃ world : World, world.scene = after ∧
      Leads limit (start limit machine) (stop limit { machine with world := world })

/-- The node of a loop. -/
def Loop.code (loop : Loop) : Node :=
  .loop loop.varying loop.test loop.result loop.commands

namespace Course

/-- Going on with an expression. -/
def run (code : Node) (frame : FrameId) : Course :=
  fun _ machine => machine.proceed code frame

def give (value : Value) : Course :=
  fun _ machine => machine.give value

def call (procedure : Value) (arguments : List Value) (tail : Bool) : Course :=
  fun limit machine => machine.call limit procedure arguments tail

/-- The test of a round of a loop, and what comes after it. -/
def round (loop : Loop) (frame : FrameId) : Course :=
  fun limit machine => machine.suspend limit (.loopTest loop frame) loop.test frame

end Course

/-- An expression has a value in a frame, and nothing changes. -/
def Computes (room : Nat) (scene : Scene) (frame : FrameId) (code : Node) (value : Value) : Prop :=
  Passes room scene (.run code frame) scene (.give value)

namespace Passes

variable {room more : Nat} {before middle after scene : Scene} {start between stop : Course}
  {frame : FrameId} {code : Node} {value : Value}

theorem refl (room : Nat) (scene : Scene) (course : Course) :
    Passes room scene course scene course :=
  fun limit machine atScene _ => ⟨machine.world, atScene, .refl limit _⟩

theorem trans (first : Passes room before start middle between)
    (second : Passes room middle between after stop) : Passes room before start after stop := by
  intro limit machine atScene fits
  rcases first limit machine atScene fits with ⟨world, atMiddle, leads⟩
  rcases second limit { machine with world := world } atMiddle fits with ⟨final, atEnd, further⟩
  exact ⟨final, atEnd, leads.trans further⟩

theorem mono (passes : Passes room before start after stop) (le : room ≤ more) :
    Passes more before start after stop := by
  intro limit machine atScene fits
  exact passes limit machine atScene (Nat.le_trans (Nat.add_le_add_left le _) fits)

/-- A course that does nothing but change the world before it goes on as another one. -/
theorem of_eq (room : Nat)
    (same : ∀ limit machine, machine.world.scene = before →
      ∃ world : World, world.scene = after ∧
        start limit machine = stop limit { machine with world := world }) :
    Passes room before start after stop := by
  intro limit machine atScene _
  rcases same limit machine atScene with ⟨world, atEnd, equal⟩
  refine ⟨world, atEnd, ?_⟩
  rw [equal]
  exact .refl limit _

/-- A node is observed and then executed. -/
theorem run (room : Nat) (scene : Scene) (code : Node) (frame : FrameId) :
    Passes room scene (.run code frame) scene
      (fun limit machine => machine.execute limit frame code) := by
  intro limit machine atScene _
  refine ⟨machine.world.observe machine.depth code.kind, ?_, .step limit _ machine⟩
  rw [World.scene_observe, atScene]

/-- A value that a level waits for takes one level more. -/
theorem suspend (inner : Passes room before (.run code frame) after (.give value))
    (level : Level) :
    Passes (room + 1) before
      (fun limit machine => machine.suspend limit level code frame) after
      (fun limit machine => machine.resume limit value level) := by
  intro limit machine atScene fits
  have lower : machine.depth < limit := by omega
  let inside : Machine :=
    { machine with levels := level :: machine.levels, depth := machine.depth + 1 }
  have insideFits : inside.depth + room ≤ limit := by
    dsimp only [inside]
    omega
  rcases inner limit inside atScene insideFits with ⟨world, atEnd, leads⟩
  refine ⟨world, atEnd, ?_⟩
  dsimp only
  rw [Machine.suspend_of_lt lower]
  exact leads.trans (.step limit _ _)

/-! ## Constants, names and procedures -/

theorem literal (room : Nat) (scene : Scene) (frame : FrameId) (value : Value) :
    Computes room scene frame (.literal value) value :=
  run room scene (.literal value) frame

theorem quote (room : Nat) (scene : Scene) (frame : FrameId) (value : Value) :
    Computes room scene frame (.quote value) value :=
  run room scene (.quote value) frame

theorem name (room : Nat) {name : Symbol} (found : scene.store.get? frame name = some value) :
    Computes room scene frame (.variable name) value := by
  refine (run room scene (.variable name) frame).trans (of_eq room ?_)
  intro limit machine atScene
  subst atScene
  refine ⟨machine.world, rfl, ?_⟩
  have here : machine.world.store.get? frame name = some value := found
  simp only [Machine.execute, here, Course.give]

theorem lambda (room : Nat) (scene : Scene) (name : Option Symbol) (formals : Formals)
    (body : Node) (frame : FrameId) :
    Passes room scene (.run (.lambda name formals body) frame)
      { scene with store := (scene.store.close name formals body frame).2 }
      (.give (scene.store.close name formals body frame).1) := by
  refine (run room scene (.lambda name formals body) frame).trans (of_eq room ?_)
  intro limit machine atScene
  subst atScene
  exact ⟨(machine.world.close name formals body frame).2, rfl, rfl⟩

/-! ## Tests -/

section

variable {test consequent : Node} {alternate : Option Node}

theorem consequent_taken (isTrue : value.isTrue = true) (room : Nat) (scene : Scene)
    (consequent : Node) (alternate : Option Node) (frame : FrameId) :
    Passes room scene
      (fun limit machine => machine.resume limit value (.branch consequent alternate frame)) scene
      (.run consequent frame) :=
  of_eq room fun _ machine atScene => ⟨machine.world, atScene, if_pos isTrue⟩

theorem alternate_taken (isFalse : value.isTrue = false) (room : Nat) (scene : Scene)
    (consequent alternate : Node) (frame : FrameId) :
    Passes room scene
      (fun limit machine =>
        machine.resume limit value (.branch consequent (some alternate) frame)) scene
      (.run alternate frame) := by
  refine of_eq room fun limit machine atScene => ⟨machine.world, atScene, ?_⟩
  simp only [Machine.resume, isFalse]
  rfl

theorem branch_true (tested : Passes room before (.run test frame) after (.give value))
    (isTrue : value.isTrue = true) :
    Passes (room + 1) before (.run (.branch test consequent alternate) frame) after
      (.run consequent frame) :=
  (run _ before _ frame).trans ((tested.suspend _).trans (consequent_taken isTrue _ _ _ _ _))

theorem branch_false {alternate : Node}
    (tested : Passes room before (.run test frame) after (.give value))
    (isFalse : value.isTrue = false) :
    Passes (room + 1) before (.run (.branch test consequent (some alternate)) frame) after
      (.run alternate frame) :=
  (run _ before _ frame).trans ((tested.suspend _).trans (alternate_taken isFalse _ _ _ _ _))

end

/-! ### Clauses -/

section

variable {test receiver body : Node} {tail : Bool} {rest : List Clause}

theorem clause_false {clause : Clause} {value : Value} (isFalse : value.isTrue = false) (room : Nat)
    (scene : Scene) (rest : List Clause) (frame : FrameId) :
    Passes room scene (fun limit machine => machine.resume limit value (.clause clause rest frame))
      scene (fun limit machine => machine.runClauses limit frame rest) := by
  refine of_eq room fun limit machine atScene => ⟨machine.world, atScene, ?_⟩
  simp only [Machine.resume, isFalse]
  rfl

/-- A clause whose test fails is passed over. -/
theorem body_clause_false (tested : Passes room before (.run test frame) after (.give value))
    (isFalse : value.isTrue = false) :
    Passes (room + 1) before
      (fun limit machine => machine.runClauses limit frame (.body test body :: rest)) after
      (fun limit machine => machine.runClauses limit frame rest) :=
  (tested.suspend _).trans (clause_false isFalse _ after rest frame)

theorem body_clause_true (tested : Passes room before (.run test frame) after (.give value))
    (isTrue : value.isTrue = true) :
    Passes (room + 1) before
      (fun limit machine => machine.runClauses limit frame (.body test body :: rest)) after
      (.run body frame) := by
  refine (tested.suspend _).trans (of_eq _ ?_)
  intro limit machine atScene
  exact ⟨machine.world, atScene, if_pos isTrue⟩

/-- The receiver of a clause is called with the value of the test. -/
theorem arrow_clause_true {procedure : Value}
    (tested : Passes room before (.run test frame) middle (.give value))
    (isTrue : value.isTrue = true)
    (received : Passes room middle (.run receiver frame) after (.give procedure)) :
    Passes (room + 1) before
      (fun limit machine => machine.runClauses limit frame (.arrow test receiver tail :: rest))
      after (.call procedure [value] tail) := by
  refine (tested.suspend _).trans (trans (of_eq _ ?_) (received.suspend (.receiver value tail)))
  intro limit machine atScene
  exact ⟨machine.world, atScene, if_pos isTrue⟩

end

/-! ## Calls -/

section

variable {codes : List Node} {procedure : Value} {arguments : List Value}

/-- The operator comes first. -/
theorem operator (computed : Passes room before (.run code frame) after (.give procedure))
    (operands : List Node) (tail : Bool) :
    Passes (room + 1) before (.run (.call code operands tail) frame) after
      (fun limit machine => machine.runOperands limit procedure [] tail frame operands) :=
  (run _ before _ frame).trans (computed.suspend (.operator operands tail frame))

theorem operand (computed : Passes room before (.run code frame) after (.give value))
    (procedure : Value) (reversed : List Value) (rest : List Node) (tail : Bool) :
    Passes (room + 1) before
      (fun limit machine => machine.runOperands limit procedure reversed tail frame (code :: rest))
      after
      (fun limit machine =>
        machine.runOperands limit procedure (value :: reversed) tail frame rest) :=
  computed.suspend (.operand procedure reversed rest tail frame)

theorem operands (computed : List.Forall₂ (Computes room scene frame) codes arguments)
    (procedure : Value) (reversed : List Value) (tail : Bool) :
    Passes (room + 1) scene
      (fun limit machine => machine.runOperands limit procedure reversed tail frame codes)
      scene (.call procedure (reversed.reverse ++ arguments) tail) := by
  induction computed generalizing reversed with
  | nil =>
      rw [List.append_nil]
      exact refl _ scene _
  | @cons _ argument _ _ first _ induction =>
      have others := induction (argument :: reversed)
      rw [List.reverse_cons, List.append_assoc] at others
      exact (operand first procedure reversed _ tail).trans others

/-- The operator comes first, then the operands from left to right. -/
theorem call (first : Passes room before (.run code frame) after (.give procedure))
    (computed : List.Forall₂ (Computes room after frame) codes arguments) (tail : Bool) :
    Passes (room + 1) before (.run (.call code codes tail) frame) after
      (.call procedure arguments tail) :=
  (first.operator codes tail).trans (operands computed procedure [] tail)

/-- A primitive that only gives back a value. -/
theorem primitive (room : Nat) {operation : Primitive}
    (answered : operation.operation.answer? scene.store.next arguments =
      some (.ok (Operation.plain scene.store.next value))) (tail : Bool) :
    Passes room scene (.call (.procedure (.primitive operation)) arguments tail) scene
      (.give value) := by
  refine of_eq room fun limit machine atScene => ?_
  subst atScene
  have here : operation.operation.answer? machine.world.store.next arguments =
      some (.ok (Operation.plain machine.world.store.next value)) := answered
  simp only [Course.call, Machine.call, Machine.callPrimitive, here]
  exact ⟨_, by simp [World.scene, Operation.plain], rfl⟩

/-- A new pair takes the next place. -/
theorem cons (room : Nat) (scene : Scene) (car cdr : Value) (tail : Bool) :
    Passes room scene (.call (.procedure (.primitive .cons)) [car, cdr] tail)
      { scene with store := { scene.store with next := scene.store.next + 1 } }
      (.give (.pair scene.store.next car cdr)) := by
  refine of_eq room fun limit machine atScene => ?_
  subst atScene
  refine ⟨{ machine.world with store := { machine.world.store with
    next := machine.world.store.next + 1 } }, rfl, ?_⟩
  simp [Course.call, Machine.call, Machine.callPrimitive, Primitive.operation, Operation.cons,
    Operation.answer?, Course.give, World.scene]

theorem accepts_required {required : List Symbol} (fits : arguments.length = required.length) :
    Arity.accepts (Formals.arity ⟨required, none⟩) arguments.length = true := by
  simp [Formals.arity, Arity.accepts, fits]

theorem bindArguments_required {store : Store} {home : FrameId} {required : List Symbol}
    (fits : arguments.length = required.length) :
    store.bindArguments ⟨required, none⟩ home arguments =
      store.enter home (.ofPairs (required.zip arguments)) := by
  simp only [Store.bindArguments, ← fits, List.take_length]

/-- The body takes the place of a tail call. -/
theorem tailCall (room : Nat) {place : Place} {name : Option Symbol} {required : List Symbol}
    {body : Node} {home : FrameId}
    (found : scene.store.closures[place]? = some ⟨body, home⟩)
    (fits : arguments.length = required.length) :
    let entered := scene.store.enter home (.ofPairs (required.zip arguments))
    Passes room scene
      (.call (.procedure (.compound place name ⟨required, none⟩)) arguments true)
      { scene with store := entered.2 } (.run body entered.1) := by
  refine of_eq room fun limit machine atScene => ?_
  subst atScene
  have here : machine.world.store.closures[place]? = some ⟨body, home⟩ := found
  simp only [Course.call, Machine.call, Machine.callCompound, here, accepts_required fits,
    if_true, World.bindArguments, bindArguments_required fits]
  exact ⟨_, (World.scene_record _ _).trans rfl, rfl⟩

/-- Any other call waits for the value of the body. -/
theorem bodyWaits (room : Nat) {place : Place} {name : Option Symbol} {required : List Symbol}
    {body : Node} {home : FrameId}
    (found : scene.store.closures[place]? = some ⟨body, home⟩)
    (fits : arguments.length = required.length) :
    Passes room scene
      (.call (.procedure (.compound place name ⟨required, none⟩)) arguments false)
      { scene with store := (scene.store.enter home (.ofPairs (required.zip arguments))).2 }
      (fun limit machine => machine.suspend limit .body body scene.store.frames.size) := by
  refine of_eq room fun limit machine atScene => ?_
  subst atScene
  have here : machine.world.store.closures[place]? = some ⟨body, home⟩ := found
  simp only [Course.call, Machine.call, Machine.callCompound, here, accepts_required fits,
    if_true, World.bindArguments, bindArguments_required fits]
  exact ⟨_, rfl, rfl⟩

/-- The value of the body is the value of such a call, and takes one level more. -/
theorem bodyCall {place : Place} {name : Option Symbol} {required : List Symbol}
    {body : Node} {home : FrameId}
    (found : scene.store.closures[place]? = some ⟨body, home⟩)
    (fits : arguments.length = required.length)
    (returned : Passes room
      { scene with store := (scene.store.enter home (.ofPairs (required.zip arguments))).2 }
      (.run body scene.store.frames.size) after (.give value)) :
    Passes (room + 1) scene
      (.call (.procedure (.compound place name ⟨required, none⟩)) arguments false) after
      (.give value) :=
  (bodyWaits _ found fits).trans (returned.suspend .body)

end

/-! ## Sequences -/

theorem sequence (computed : Passes room before (.run code frame) after (.give value))
    (last : Node) :
    Passes (room + 1) before (.run (.sequence [code, last]) frame) after (.run last frame) :=
  (run _ before _ frame).trans (computed.suspend (.sequence [last] frame))

/-! ## Definitions and bindings -/

theorem define (computed : Passes room before (.run code frame) after (.give value))
    (name : Symbol) :
    Passes (room + 1) before (.run (.define name code) frame)
      { after with store := after.store.define frame name value } (.give .nil) := by
  refine (run _ before _ frame).trans ((computed.suspend _).trans (of_eq _ ?_))
  intro limit machine atScene
  subst atScene
  exact ⟨machine.world.define frame name value, rfl, rfl⟩

/-- The name gets the value in the nearest frame that binds it. -/
theorem assign (computed : Passes room before (.run code frame) after (.give value))
    {name : Symbol} {nearest : FrameId}
    (found : after.store.nearest? name frame = some nearest) :
    Passes (room + 1) before (.run (.assign name code) frame)
      { after with store := after.store.define nearest name value } (.give value) := by
  refine (run _ before _ frame).trans ((computed.suspend (.assign name frame)).trans (of_eq _ ?_))
  intro limit machine atScene
  subst atScene
  have here : machine.world.store.nearest? name frame = some nearest := found
  simp only [Machine.resume, here]
  exact ⟨machine.world.define nearest name value, rfl, rfl⟩

/-- A binding that is not seen by its own init. -/
theorem letIn {init : Node}
    (computed : Passes room { before with store := (before.store.child frame).2 }
      (.run init frame) after (.give value)) (name : Symbol) (body : Node) :
    Passes (room + 1) before (.run (.letIn [(name, init)] body) frame)
      { after with store := after.store.define before.store.frames.size name value }
      (.run body before.store.frames.size) := by
  have waits := computed.suspend (.binding name [] body frame before.store.frames.size)
  refine (run _ before _ frame).trans (trans (of_eq _ ?_) (waits.trans (of_eq _ ?_)))
  · intro limit machine atScene
    subst atScene
    exact ⟨(machine.world.child frame).2, rfl, rfl⟩
  · intro limit machine atScene
    subst atScene
    exact ⟨machine.world.define before.store.frames.size name value, rfl, rfl⟩

/-- A binding that is seen by its own init. -/
theorem letrec {name : Symbol} {init : Node}
    (computed : Passes room
      { before with
        store := (before.store.child frame).2.define before.store.frames.size name .nil }
      (.run init before.store.frames.size) after (.give value)) (body : Node) :
    Passes (room + 1) before (.run (.letrec [(name, init)] body) frame)
      { after with store := after.store.define before.store.frames.size name value }
      (.run body before.store.frames.size) := by
  have waits := computed.suspend
    (.binding name [] body before.store.frames.size before.store.frames.size)
  refine (run _ before _ frame).trans (trans (of_eq _ ?_) (waits.trans (of_eq _ ?_)))
  · intro limit machine atScene
    subst atScene
    exact ⟨(machine.world.child frame).2.define machine.world.store.frames.size name .nil, rfl, rfl⟩
  · intro limit machine atScene
    subst atScene
    exact ⟨machine.world.define before.store.frames.size name value, rfl, rfl⟩

/-! ## Loops -/

/-- A loop starts with a new frame for its variables. -/
theorem loop (room : Nat) (scene : Scene) (loop : Loop) :
    Passes room scene (.run loop.code loop.outer)
      { scene with store := (scene.store.child loop.outer).2 }
      (fun limit machine =>
        machine.runLoopInits limit loop scene.store.frames.size loop.varying) := by
  refine (run room scene loop.code loop.outer).trans (of_eq room ?_)
  intro limit machine atScene
  subst atScene
  exact ⟨(machine.world.child loop.outer).2, rfl, rfl⟩

theorem loopInit (loop : Loop)
    (computed : Passes room before (.run code loop.outer) after (.give value)) (name : Symbol)
    (step : Option Node) (rest : List LoopVariable) (frame : FrameId) :
    Passes (room + 1) before
      (fun limit machine => machine.runLoopInits limit loop frame (.mk name code step :: rest))
      { after with store := after.store.define frame name value }
      (fun limit machine => machine.runLoopInits limit loop frame rest) := by
  refine (computed.suspend _).trans (of_eq _ ?_)
  intro limit machine atScene
  subst atScene
  exact ⟨machine.world.define frame name value, rfl, rfl⟩

theorem loopStep (loop : Loop)
    (computed : Passes room before (.run code frame) after (.give value)) (name : Symbol)
    (init : Node) (rest : List LoopVariable) (next : FrameId) :
    Passes (room + 1) before
      (fun limit machine =>
        machine.runLoopSteps limit loop frame next (.mk name init (some code) :: rest))
      { after with store := after.store.define next name value }
      (fun limit machine => machine.runLoopSteps limit loop frame next rest) := by
  refine (computed.suspend _).trans (of_eq _ ?_)
  intro limit machine atScene
  subst atScene
  exact ⟨machine.world.define next name value, rfl, rfl⟩

/-- A new frame for the next round, from which its test is evaluated. -/
theorem nextRound (room : Nat) (scene : Scene) (loop : Loop) (frame : FrameId) :
    Passes room scene (fun limit machine => machine.runLoopCommands limit loop frame [])
      { scene with store := (scene.store.child loop.outer).2 }
      (fun limit machine =>
        machine.runLoopSteps limit loop frame scene.store.frames.size loop.varying) := by
  refine of_eq room fun limit machine atScene => ?_
  subst atScene
  exact ⟨(machine.world.child loop.outer).2, rfl, rfl⟩

theorem round_again (room : Nat) (scene : Scene) (loop : Loop) (frame next : FrameId) :
    Passes room scene (fun limit machine => machine.runLoopSteps limit loop frame next [])
      scene (.round loop next) := by
  refine of_eq room fun limit machine atScene => ⟨machine.world.record .nextRound, ?_, rfl⟩
  rw [World.scene_record, atScene]

theorem round_true {loop : Loop} {result : Node}
    (tested : Passes room before (.run loop.test frame) after (.give value))
    (isTrue : value.isTrue = true) (found : loop.result = some result) :
    Passes (room + 1) before (.round loop frame) after (.run result frame) := by
  refine (tested.suspend _).trans (of_eq _ ?_)
  intro limit machine atScene
  refine ⟨machine.world, atScene, ?_⟩
  simp only [Machine.resume, isTrue, found, if_true]
  rfl

theorem round_false {loop : Loop}
    (tested : Passes room before (.run loop.test frame) after (.give value))
    (isFalse : value.isTrue = false) :
    Passes (room + 1) before (.round loop frame) after
      (fun limit machine => machine.runLoopCommands limit loop frame loop.commands) := by
  refine (tested.suspend _).trans (of_eq _ ?_)
  intro limit machine atScene
  refine ⟨machine.world, atScene, ?_⟩
  simp only [Machine.resume, isFalse]
  rfl

/-- A loop without a result ends with `()`. -/
theorem round_done {loop : Loop}
    (tested : Passes room before (.run loop.test frame) after (.give value))
    (isTrue : value.isTrue = true) (found : loop.result = none) :
    Passes (room + 1) before (.round loop frame) after (.give .nil) := by
  refine (tested.suspend _).trans (of_eq _ ?_)
  intro limit machine atScene
  refine ⟨machine.world, atScene, ?_⟩
  simp only [Machine.resume, isTrue, found, if_true]
  rfl

theorem loopCommand (computed : Passes room before (.run code frame) after (.give value))
    (loop : Loop) (rest : List Node) :
    Passes (room + 1) before
      (fun limit machine => machine.runLoopCommands limit loop frame (code :: rest)) after
      (fun limit machine => machine.runLoopCommands limit loop frame rest) :=
  computed.suspend (.loopCommand rest loop frame)

/-! ## Iteration -/

/-- What comes one step nearer to its end each time comes to that end. -/
theorem iterate {state : Nat → Scene → Course → Prop}
    (finish : ∀ {scene course}, state 0 scene course →
      ∃ after, Passes room scene course after stop)
    (step : ∀ {left scene course}, state (left + 1) scene course →
      ∃ middle next, Passes room scene course middle next ∧ state left middle next)
    {left : Nat} {course : Course} (starts : state left scene course) :
    ∃ after, Passes room scene course after stop := by
  induction left generalizing scene course with
  | zero => exact finish starts
  | succ left induction =>
      rcases step starts with ⟨middle, next, first, nearer⟩
      rcases induction nearer with ⟨after, rest⟩
      exact ⟨after, first.trans rest⟩

end Passes

end SmallScheme
