import Mathlib
import SmallScheme.Proofs.Agreement
import SmallScheme.Proofs.Frames.Lookup
import SmallScheme.Proofs.Limit

namespace SmallScheme

/-! # Code without marks

What the marks of tail calls are good for: the same code with every mark taken away, also
in the procedures of the store, has the same outcome, output and frames wherever it stays
within the limit, and the marked code then stays within the limit as well.

Both codes run side by side. A call that is marked takes the place of the call around it,
where the call without a mark puts a level on the stack that does nothing but hand its
value on. So the unmarked machine has the same levels and some of these between them. -/

/-! ## Taking the marks away -/

mutual

/-- The same code, with no call marked as a tail call. -/
def Node.unmarked : Node → Node
  | .literal value => .literal value
  | .variable name => .variable name
  | .quote value => .quote value
  | .branch test consequent none => .branch test.unmarked consequent.unmarked none
  | .branch test consequent (some alternate) =>
      .branch test.unmarked consequent.unmarked (some alternate.unmarked)
  | .sequence parts => .sequence (Node.allUnmarked parts)
  | .lambda name formals body => .lambda name formals body.unmarked
  | .define name value => .define name value.unmarked
  | .assign name value => .assign name value.unmarked
  | .call operator operands _ => .call operator.unmarked (Node.allUnmarked operands) false
  | .letIn bindings body => .letIn (Node.initsUnmarked bindings) body.unmarked
  | .letrec bindings body => .letrec (Node.initsUnmarked bindings) body.unmarked
  | .loop varying test none commands =>
      .loop (LoopVariable.allUnmarked varying) test.unmarked none (Node.allUnmarked commands)
  | .loop varying test (some result) commands =>
      .loop (LoopVariable.allUnmarked varying) test.unmarked (some result.unmarked)
        (Node.allUnmarked commands)
  | .cond clauses => .cond (Clause.allUnmarked clauses)
  | .conjunction tests => .conjunction (Node.allUnmarked tests)
  | .disjunction tests => .disjunction (Node.allUnmarked tests)

def Node.allUnmarked : List Node → List Node
  | [] => []
  | node :: nodes => node.unmarked :: Node.allUnmarked nodes

def Node.initsUnmarked : List (Symbol × Node) → List (Symbol × Node)
  | [] => []
  | (name, init) :: bindings => (name, init.unmarked) :: Node.initsUnmarked bindings

def LoopVariable.allUnmarked : List LoopVariable → List LoopVariable
  | [] => []
  | .mk name init none :: varying =>
      .mk name init.unmarked none :: LoopVariable.allUnmarked varying
  | .mk name init (some step) :: varying =>
      .mk name init.unmarked (some step.unmarked) :: LoopVariable.allUnmarked varying

def Clause.unmarked : Clause → Clause
  | .test test => .test test.unmarked
  | .arrow test receiver _ => .arrow test.unmarked receiver.unmarked false
  | .body test body => .body test.unmarked body.unmarked
  | .otherwise body => .otherwise body.unmarked

def Clause.allUnmarked : List Clause → List Clause
  | [] => []
  | clause :: clauses => clause.unmarked :: Clause.allUnmarked clauses

end

theorem Node.unmarked_branch (test consequent : Node) (alternate : Option Node) :
    (branch test consequent alternate).unmarked =
      .branch test.unmarked consequent.unmarked (alternate.map unmarked) := by
  cases alternate <;> rfl

theorem Node.unmarked_loop (varying : List LoopVariable) (test : Node) (result : Option Node)
    (commands : List Node) :
    (loop varying test result commands).unmarked =
      .loop (LoopVariable.allUnmarked varying) test.unmarked (result.map unmarked)
        (allUnmarked commands) := by
  cases result <;> rfl

theorem LoopVariable.allUnmarked_cons (name : Symbol) (init : Node) (step : Option Node)
    (varying : List LoopVariable) :
    allUnmarked (.mk name init step :: varying) =
      .mk name init.unmarked (step.map Node.unmarked) :: allUnmarked varying := by
  cases step <;> rfl

def Closure.unmarked (closure : Closure) : Closure :=
  { closure with body := closure.body.unmarked }

namespace Store

/-- The same store, with no mark in the code of its procedures. -/
def unmarked (store : Store) : Store :=
  { store with closures := store.closures.map Closure.unmarked }

variable (store : Store)

theorem getElem?_frames_unmarked (frame : FrameId) :
    store.unmarked.frames[frame]? = store.frames[frame]? := rfl

theorem nearest?_unmarked (name : Symbol) (frame : FrameId) :
    store.unmarked.nearest? name frame = store.nearest? name frame :=
  nearest?_congr (fun older _ => store.getElem?_frames_unmarked older) name

theorem get?_unmarked (frame : FrameId) (name : Symbol) :
    store.unmarked.get? frame name = store.get? frame name :=
  get?_congr (fun older _ => store.getElem?_frames_unmarked older) name

theorem close_unmarked (name : Option Symbol) (formals : Formals) (body : Node)
    (frame : FrameId) :
    store.unmarked.close name formals body.unmarked frame =
      ((store.close name formals body frame).1,
        (store.close name formals body frame).2.unmarked) := by
  simp [close, unmarked, Closure.unmarked]

theorem bindArguments_unmarked (formals : Formals) (parent : FrameId) (arguments : List Value) :
    store.unmarked.bindArguments formals parent arguments =
      ((store.bindArguments formals parent arguments).1,
        (store.bindArguments formals parent arguments).2.unmarked) := by
  unfold bindArguments
  cases formals.rest <;> rfl

end Store

def World.unmarked (world : World) : World :=
  { world with store := world.store.unmarked }

def Loop.unmarked (loop : Loop) : Loop where
  varying := LoopVariable.allUnmarked loop.varying
  test := loop.test.unmarked
  result := loop.result.map Node.unmarked
  commands := Node.allUnmarked loop.commands
  outer := loop.outer

def Level.unmarked : Level → Level
  | .branch consequent alternate frame =>
      .branch consequent.unmarked (alternate.map Node.unmarked) frame
  | .sequence rest frame => .sequence (Node.allUnmarked rest) frame
  | .define name frame => .define name frame
  | .assign name frame => .assign name frame
  | .operator operands _ frame => .operator (Node.allUnmarked operands) false frame
  | .operand procedure reversed rest _ frame =>
      .operand procedure reversed (Node.allUnmarked rest) false frame
  | .binding name rest code scope inner =>
      .binding name (Node.initsUnmarked rest) code.unmarked scope inner
  | .loopInit name rest loop frame =>
      .loopInit name (LoopVariable.allUnmarked rest) loop.unmarked frame
  | .loopTest loop frame => .loopTest loop.unmarked frame
  | .loopCommand rest loop frame => .loopCommand (Node.allUnmarked rest) loop.unmarked frame
  | .loopStep name rest loop frame next =>
      .loopStep name (LoopVariable.allUnmarked rest) loop.unmarked frame next
  | .clause item rest frame => .clause item.unmarked (Clause.allUnmarked rest) frame
  | .receiver argument _ => .receiver argument false
  | .conjunction rest frame => .conjunction (Node.allUnmarked rest) frame
  | .disjunction rest frame => .disjunction (Node.allUnmarked rest) frame
  | .body => .body

def Control.unmarked : Control → Control
  | .run code frame => .run code.unmarked frame
  | .give value => .give value

/-! ## Two machines side by side

The first machine runs code with its marks, the second one the same code without. -/

/-- The worlds differ in marks and in what is observed only. -/
structure World.Tracks (marked plain : World) : Prop where
  store : plain.store = marked.store.unmarked
  output : plain.output = marked.output

/-- The stacks differ in marks and in further bodies on the second one. -/
inductive Level.Tracks : List Level → List Level → Prop
  | nil : Tracks [] []
  | level {marked plain : List Level} (level : Level) :
      Tracks marked plain → Tracks (level :: marked) (level.unmarked :: plain)
  | body {marked plain : List Level} : Tracks marked plain → Tracks marked (.body :: plain)

theorem Level.Tracks.length_le {marked plain : List Level} (tracks : Tracks marked plain) :
    marked.length ≤ plain.length := by
  induction tracks with
  | nil => exact Nat.le_refl 0
  | level level _ induction => exact Nat.succ_le_succ induction
  | body _ induction => exact Nat.le_succ_of_le induction

structure Machine.Tracks (marked plain : Machine) : Prop where
  world : marked.world.Tracks plain.world
  levels : Level.Tracks marked.levels plain.levels
  markedDepth : marked.depth = marked.levels.length + 1
  plainDepth : plain.depth = plain.levels.length + 1

/-- The second machine has run out of depth, or both are at the same point. -/
inductive Progress.Tracks : Progress → Progress → Prop
  | tooDeep (progress : Progress) (world : World) :
      Tracks progress (.ended (.error .tooDeep) world)
  | running (control : Control) {marked plain : Machine} :
      marked.Tracks plain → Tracks (.running control marked) (.running control.unmarked plain)
  | ended (outcome : Except RunError Value) {marked plain : World} :
      marked.Tracks plain → Tracks (.ended outcome marked) (.ended outcome plain)

namespace World.Tracks

variable {marked plain : World} (tracks : marked.Tracks plain)

include tracks

/-- What is only observed of the worlds does not count. -/
theorem of_scenes {one two : World} (first : one.scene = marked.scene)
    (second : two.scene = plain.scene) : one.Tracks two where
  store := (congrArg Scene.store second).trans
    (tracks.store.trans (congrArg Store.unmarked (congrArg Scene.store first).symm))
  output := (congrArg Scene.output second).trans
    (tracks.output.trans (congrArg Scene.output first).symm)

theorem define (frame : FrameId) (name : Symbol) (value : Value) :
    (marked.define frame name value).Tracks (plain.define frame name value) where
  store := by
    rw [World.define, tracks.store]
    rfl
  output := tracks.output

theorem child (parent : FrameId) :
    (plain.child parent).1 = (marked.child parent).1 ∧
      (marked.child parent).2.Tracks (plain.child parent).2 := by
  simp only [World.child, tracks.store]
  exact ⟨rfl, ⟨rfl, tracks.output⟩⟩

theorem close (name : Option Symbol) (formals : Formals) (body : Node) (frame : FrameId) :
    (plain.close name formals body.unmarked frame).1 = (marked.close name formals body frame).1 ∧
      (marked.close name formals body frame).2.Tracks
        (plain.close name formals body.unmarked frame).2 := by
  simp only [World.close, tracks.store, Store.close_unmarked, true_and]
  exact ⟨rfl, tracks.output⟩

theorem bindArguments (formals : Formals) (parent : FrameId) (arguments : List Value) :
    (plain.bindArguments formals parent arguments).1 =
        (marked.bindArguments formals parent arguments).1 ∧
      (marked.bindArguments formals parent arguments).2.Tracks
        (plain.bindArguments formals parent arguments).2 := by
  simp only [World.bindArguments, tracks.store, Store.bindArguments_unmarked, true_and]
  exact ⟨rfl, tracks.output⟩

theorem predefine (frame : FrameId) (bindings : List (Symbol × Node)) :
    (Machine.predefine marked frame bindings).Tracks
      (Machine.predefine plain frame (Node.initsUnmarked bindings)) := by
  induction bindings generalizing marked plain with
  | nil => exact tracks
  | cons binding rest induction => exact induction (tracks.define frame binding.1 .nil)

theorem answer (answer : Answer) :
    World.Tracks
      { marked with
        store := { marked.store with next := answer.next }
        output := marked.output ++ answer.output }
      { plain with
        store := { plain.store with next := answer.next }
        output := plain.output ++ answer.output } where
  store := by simp only [tracks.store, Store.unmarked]
  output := by simp only [tracks.output]

end World.Tracks

/-! ## One step

The second machine is given the unmarked code, and does what the first one does. -/

namespace Machine

variable {limit : Nat} {marked plain : Machine}

namespace Tracks

variable (tracks : marked.Tracks plain)

include tracks

theorem withWorld {one two : World} (worlds : one.Tracks two) :
    Machine.Tracks { marked with world := one } { plain with world := two } :=
  ⟨worlds, tracks.levels, tracks.markedDepth, tracks.plainDepth⟩

theorem depth_le : marked.depth ≤ plain.depth := by
  rw [tracks.markedDepth, tracks.plainDepth]
  exact Nat.succ_le_succ tracks.levels.length_le

theorem get? (frame : FrameId) (name : Symbol) :
    plain.world.store.get? frame name = marked.world.store.get? frame name := by
  rw [tracks.world.store, Store.get?_unmarked]

theorem give (value : Value) : (marked.give value).Tracks (plain.give value) :=
  .running (.give value) tracks

theorem proceed (code : Node) (frame : FrameId) :
    (marked.proceed code frame).Tracks (plain.proceed code.unmarked frame) :=
  .running (.run code frame) tracks

theorem fail (error : RunError) : (marked.fail error).Tracks (plain.fail error) :=
  .ended (.error error) tracks.world

theorem suspend (level : Level) (code : Node) (frame : FrameId) :
    (marked.suspend limit level code frame).Tracks
      (plain.suspend limit level.unmarked code.unmarked frame) := by
  by_cases fits : plain.depth < limit
  · have markedFits := Nat.lt_of_le_of_lt tracks.depth_le fits
    rw [Machine.suspend, if_pos markedFits, Machine.suspend, if_pos fits]
    refine .running (.run code frame) ⟨tracks.world, .level level tracks.levels, ?_, ?_⟩
    · exact congrArg (· + 1) tracks.markedDepth
    · exact congrArg (· + 1) tracks.plainDepth
  · rw [Machine.suspend.eq_1 limit plain, if_neg fits]
    exact .tooDeep _ plain.world

/-- Where the first machine goes on in place of a call, the second one puts the body on
its stack. -/
theorem proceed_suspend (code : Node) (frame : FrameId) :
    (marked.proceed code frame).Tracks (plain.suspend limit .body code.unmarked frame) := by
  by_cases fits : plain.depth < limit
  · rw [Machine.suspend, if_pos fits]
    refine .running (.run code frame) ⟨tracks.world, .body tracks.levels, tracks.markedDepth, ?_⟩
    exact congrArg (· + 1) tracks.plainDepth
  · rw [Machine.suspend, if_neg fits]
    exact .tooDeep _ plain.world

/-! ### Sequences and tests -/

theorem runSequence (frame : FrameId) (parts : List Node) :
    (marked.runSequence limit frame parts).Tracks
      (plain.runSequence limit frame (Node.allUnmarked parts)) := by
  rcases parts with _ | ⟨first, _ | ⟨second, rest⟩⟩
  · exact tracks.give .nil
  · exact tracks.proceed first frame
  · exact tracks.suspend (.sequence (second :: rest) frame) first frame

theorem runConjunction (frame : FrameId) (tests : List Node) :
    (marked.runConjunction limit frame tests).Tracks
      (plain.runConjunction limit frame (Node.allUnmarked tests)) := by
  rcases tests with _ | ⟨first, _ | ⟨second, rest⟩⟩
  · exact tracks.give (.boolean true)
  · exact tracks.proceed first frame
  · exact tracks.suspend (.conjunction (second :: rest) frame) first frame

theorem runDisjunction (frame : FrameId) (tests : List Node) :
    (marked.runDisjunction limit frame tests).Tracks
      (plain.runDisjunction limit frame (Node.allUnmarked tests)) := by
  rcases tests with _ | ⟨first, _ | ⟨second, rest⟩⟩
  · exact tracks.give (.boolean false)
  · exact tracks.proceed first frame
  · exact tracks.suspend (.disjunction (second :: rest) frame) first frame

theorem runClauses (frame : FrameId) (clauses : List Clause) :
    (marked.runClauses limit frame clauses).Tracks
      (plain.runClauses limit frame (Clause.allUnmarked clauses)) := by
  rcases clauses with _ | ⟨clause, rest⟩
  · exact tracks.give .nil
  · cases clause with
    | otherwise body => exact tracks.proceed body frame
    | test test => exact tracks.suspend (.clause (.test test) rest frame) test frame
    | arrow test receiver tail =>
        exact tracks.suspend (.clause (.arrow test receiver tail) rest frame) test frame
    | body test body => exact tracks.suspend (.clause (.body test body) rest frame) test frame

/-! ### Calls -/

theorem callPrimitive (operation : Primitive) (arguments : List Value) :
    (marked.callPrimitive operation arguments).Tracks
      (plain.callPrimitive operation arguments) := by
  have next : plain.world.store.next = marked.world.store.next := by
    rw [tracks.world.store]
    rfl
  simp only [Machine.callPrimitive, next]
  rcases operation.operation.answer? marked.world.store.next arguments with _ | fault | answer
  · exact tracks.fail _
  · exact tracks.fail _
  · exact (tracks.withWorld (tracks.world.answer answer)).give answer.value

theorem callCompound (place : Place) (name : Option Symbol) (formals : Formals)
    (arguments : List Value) (tail : Bool) :
    (marked.callCompound limit place name formals arguments tail).Tracks
      (plain.callCompound limit place name formals arguments false) := by
  have closure : plain.world.store.closures[place]? =
      marked.world.store.closures[place]?.map Closure.unmarked := by
    rw [tracks.world.store]
    exact Array.getElem?_map
  simp only [Machine.callCompound, closure]
  cases marked.world.store.closures[place]? with
  | none => exact tracks.fail _
  | some closure =>
      have ⟨frame, worlds⟩ := tracks.world.bindArguments formals closure.frame arguments
      simp only [Option.map_some, Closure.unmarked, frame]
      split
      · cases tail with
        | false => exact (tracks.withWorld worlds).suspend .body closure.body _
        | true =>
            have recorded := worlds.of_scenes
              (World.scene_record _ (.tailCall (.compound place name formals))) rfl
            exact (tracks.withWorld recorded).proceed_suspend closure.body _
      · exact tracks.fail _

theorem call (procedure : Value) (arguments : List Value) (tail : Bool) :
    (marked.call limit procedure arguments tail).Tracks
      (plain.call limit procedure arguments false) := by
  rcases procedure with _ | _ | _ | _ | _ | _ | ⟨operation | ⟨place, name, formals⟩⟩
  case procedure.primitive => exact tracks.callPrimitive operation arguments
  case procedure.compound => exact tracks.callCompound place name formals arguments tail
  all_goals exact tracks.fail _

theorem runOperands (procedure : Value) (reversed : List Value) (tail : Bool) (frame : FrameId)
    (operands : List Node) :
    (marked.runOperands limit procedure reversed tail frame operands).Tracks
      (plain.runOperands limit procedure reversed false frame (Node.allUnmarked operands)) := by
  cases operands with
  | nil => exact tracks.call procedure reversed.reverse tail
  | cons operand rest =>
      exact tracks.suspend (.operand procedure reversed rest tail frame) operand frame

/-! ### Bindings and loops -/

theorem runBindings (body : Node) (scope inner : FrameId) (bindings : List (Symbol × Node)) :
    (marked.runBindings limit body scope inner bindings).Tracks
      (plain.runBindings limit body.unmarked scope inner (Node.initsUnmarked bindings)) := by
  rcases bindings with _ | ⟨⟨name, init⟩, rest⟩
  · exact tracks.proceed body inner
  · exact tracks.suspend (.binding name rest body scope inner) init scope

theorem runLoopInits (loop : Loop) (frame : FrameId) (varying : List LoopVariable) :
    (marked.runLoopInits limit loop frame varying).Tracks
      (plain.runLoopInits limit loop.unmarked frame (LoopVariable.allUnmarked varying)) := by
  rcases varying with _ | ⟨⟨name, init, step⟩, rest⟩
  · exact tracks.suspend (.loopTest loop frame) loop.test frame
  · rw [LoopVariable.allUnmarked_cons]
    exact tracks.suspend (.loopInit name rest loop frame) init loop.outer

theorem runLoopSteps (loop : Loop) (frame next : FrameId) (varying : List LoopVariable) :
    (marked.runLoopSteps limit loop frame next varying).Tracks
      (plain.runLoopSteps limit loop.unmarked frame next (LoopVariable.allUnmarked varying)) := by
  induction varying generalizing marked plain with
  | nil =>
      have recorded := tracks.world.of_scenes (World.scene_record _ .nextRound)
        (World.scene_record _ .nextRound)
      exact (tracks.withWorld recorded).suspend (.loopTest loop next) loop.test next
  | cons item rest induction =>
      rcases item with ⟨name, init, _ | step⟩
      · simp only [LoopVariable.allUnmarked, Machine.runLoopSteps, tracks.get?]
        cases marked.world.store.get? frame name with
        | none => exact tracks.fail _
        | some value => exact induction (tracks.withWorld (tracks.world.define next name value))
      · exact tracks.suspend (.loopStep name rest loop frame next) step frame

theorem runLoopCommands (loop : Loop) (frame : FrameId) (commands : List Node) :
    (marked.runLoopCommands limit loop frame commands).Tracks
      (plain.runLoopCommands limit loop.unmarked frame (Node.allUnmarked commands)) := by
  cases commands with
  | nil =>
      have ⟨next, worlds⟩ := tracks.world.child loop.outer
      have outer : loop.unmarked.outer = loop.outer := rfl
      simp only [Machine.runLoopCommands, Node.allUnmarked, outer, next]
      exact (tracks.withWorld worlds).runLoopSteps loop frame _ loop.varying
  | cons command rest => exact tracks.suspend (.loopCommand rest loop frame) command frame

/-! ### Steps -/

theorem execute (frame : FrameId) (code : Node) :
    (marked.execute limit frame code).Tracks (plain.execute limit frame code.unmarked) := by
  cases code with
  | literal value => exact tracks.give value
  | quote value => exact tracks.give value
  | «variable» name =>
      simp only [Machine.execute, Node.unmarked, tracks.get?]
      cases marked.world.store.get? frame name with
      | some value => exact tracks.give value
      | none => exact tracks.fail _
  | branch test consequent alternate =>
      rw [Node.unmarked_branch]
      exact tracks.suspend (.branch consequent alternate frame) test frame
  | sequence parts => exact tracks.runSequence frame parts
  | lambda name formals body =>
      rcases tracks.world.close name formals body frame with ⟨value, worlds⟩
      simp only [Machine.execute, Node.unmarked, value]
      exact (tracks.withWorld worlds).give _
  | define name value => exact tracks.suspend (.define name frame) value frame
  | assign name value => exact tracks.suspend (.assign name frame) value frame
  | call operator operands tail =>
      exact tracks.suspend (.operator operands tail frame) operator frame
  | letIn bindings body =>
      rcases tracks.world.child frame with ⟨inner, worlds⟩
      simp only [Machine.execute, Node.unmarked, inner]
      exact (tracks.withWorld worlds).runBindings body frame _ bindings
  | letrec bindings body =>
      rcases tracks.world.child frame with ⟨inner, worlds⟩
      simp only [Machine.execute, Node.unmarked, inner]
      exact (tracks.withWorld (worlds.predefine _ bindings)).runBindings body _ _ bindings
  | loop varying test result commands =>
      rcases tracks.world.child frame with ⟨inner, worlds⟩
      simp only [Machine.execute, Node.unmarked_loop, inner]
      exact (tracks.withWorld worlds).runLoopInits ⟨varying, test, result, commands, frame⟩ _
        varying
  | cond clauses => exact tracks.runClauses frame clauses
  | conjunction tests => exact tracks.runConjunction frame tests
  | disjunction tests => exact tracks.runDisjunction frame tests

theorem resume (value : Value) (level : Level) :
    (marked.resume limit value level).Tracks (plain.resume limit value level.unmarked) := by
  cases level with
  | branch consequent alternate frame =>
      simp only [Machine.resume, Level.unmarked]
      split
      · exact tracks.proceed consequent frame
      · cases alternate with
        | some alternate => exact tracks.proceed alternate frame
        | none => exact tracks.give .nil
  | sequence rest frame => exact tracks.runSequence frame rest
  | define name frame =>
      exact (tracks.withWorld (tracks.world.define frame name value)).give .nil
  | assign name frame =>
      simp only [Machine.resume, Level.unmarked, tracks.world.store, Store.nearest?_unmarked]
      cases marked.world.store.nearest? name frame with
      | some nearest =>
          exact (tracks.withWorld (tracks.world.define nearest name value)).give value
      | none => exact tracks.fail _
  | operator operands tail frame => exact tracks.runOperands value [] tail frame operands
  | operand procedure reversed rest tail frame =>
      exact tracks.runOperands procedure (value :: reversed) tail frame rest
  | binding name rest body scope inner =>
      exact (tracks.withWorld (tracks.world.define inner name value)).runBindings
        body scope inner rest
  | loopInit name rest loop frame =>
      exact (tracks.withWorld (tracks.world.define frame name value)).runLoopInits loop frame rest
  | loopTest loop frame =>
      simp only [Machine.resume, Level.unmarked]
      split
      · cases found : loop.result with
        | some result =>
            simp only [Loop.unmarked, found]
            exact tracks.proceed result frame
        | none =>
            simp only [Loop.unmarked, found]
            exact tracks.give .nil
      · exact tracks.runLoopCommands loop frame loop.commands
  | loopCommand rest loop frame => exact tracks.runLoopCommands loop frame rest
  | loopStep name rest loop frame next =>
      exact (tracks.withWorld (tracks.world.define next name value)).runLoopSteps
        loop frame next rest
  | clause clause rest frame =>
      simp only [Machine.resume, Level.unmarked]
      split
      · cases clause with
        | test test => exact tracks.give value
        | arrow test receiver tail => exact tracks.suspend (.receiver value tail) receiver frame
        | body test body => exact tracks.proceed body frame
        | otherwise body => exact tracks.proceed body frame
      · exact tracks.runClauses frame rest
  | receiver argument tail => exact tracks.call value [argument] tail
  | conjunction rest frame =>
      simp only [Machine.resume, Level.unmarked]
      split
      · exact tracks.runConjunction frame rest
      · exact tracks.give value
  | disjunction rest frame =>
      simp only [Machine.resume, Level.unmarked]
      split
      · exact tracks.give value
      · exact tracks.runDisjunction frame rest
  | body => exact tracks.give value

/-- Both machines take the same step, or the second one only hands a value on. -/
theorem step (control : Control) :
    (marked.step limit control).Tracks (plain.step limit control.unmarked) ∨
      (Progress.running control marked).Tracks (plain.step limit control.unmarked) := by
  cases control with
  | run code frame =>
      have observed := tracks.world.of_scenes (World.scene_observe _ marked.depth code.kind)
        (World.scene_observe _ plain.depth code.unmarked.kind)
      exact .inl ((tracks.withWorld observed).execute frame code)
  | give value =>
      have markedDepth := tracks.markedDepth
      have plainDepth := tracks.plainDepth
      rcases marked with ⟨world, levels, depth⟩
      rcases plain with ⟨other, above, deeper⟩
      cases tracks.levels with
      | nil => exact .inl (.ended (.ok value) tracks.world)
      | @level marked plain level levels =>
          have left : Machine.Tracks ⟨world, marked, depth - 1⟩ ⟨other, plain, deeper - 1⟩ :=
            ⟨tracks.world, levels, congrArg (· - 1) markedDepth, congrArg (· - 1) plainDepth⟩
          exact .inl (left.resume value level)
      | body levels =>
          refine .inr (.running (.give value) ⟨tracks.world, levels, markedDepth, ?_⟩)
          exact congrArg (· - 1) plainDepth

end Tracks

end Machine

/-! ## Whole runs -/

/-- If the second machine ends without running out of depth, so does the first, within as
many steps. -/
theorem Progress.Tracks.finish {limit fuel : Nat} {marked plain : Progress}
    (tracks : marked.Tracks plain) {outcome : Except RunError Value} {final : World}
    (ended : plain.finish limit fuel = some (outcome, final))
    (inDepth : outcome ≠ .error .tooDeep) :
    ∃ after, marked.finish limit fuel = some (outcome, after) ∧ after.Tracks final := by
  induction fuel generalizing marked plain with
  | zero =>
      cases tracks with
      | tooDeep progress world =>
          cases ended
          exact absurd rfl inDepth
      | running control machines => cases ended
      | ended outcome worlds =>
          cases ended
          exact ⟨_, rfl, worlds⟩
  | succ fuel induction =>
      cases tracks with
      | tooDeep progress world =>
          cases ended
          exact absurd rfl inDepth
      | running control machines =>
          rw [finish_running, Machine.run_succ] at ended
          rcases machines.step control with both | waits
          · rw [finish_running, Machine.run_succ]
            exact induction both ended
          · rcases induction waits ended with ⟨after, finished, worlds⟩
            exact ⟨after, finish_of_le finished (Nat.le_succ fuel), worlds⟩
      | ended outcome worlds =>
          cases ended
          exact ⟨_, rfl, worlds⟩

theorem World.start_tracks (world : World) (limit : Nat) (code : Node) (frame : FrameId) :
    (world.start limit code frame).Tracks (world.unmarked.start limit code.unmarked frame) := by
  unfold World.start
  split
  · exact .running (.run code frame) ⟨⟨rfl, rfl⟩, .nil, rfl, rfl⟩
  · exact .tooDeep _ _

/-- Wherever code without marks ends within a limit, the marked code ends within that limit
as well, after no more steps, with the same outcome, the same output and the same store but
for the marks. Under whatever limit the marked code ends without running out of depth, it
agrees with the code without marks. -/
theorem run_unmarked (world : World) (code : Node) (frame : FrameId) {limit fuel : Nat}
    {outcome : Except RunError Value} {final : World}
    (ended : world.unmarked.run limit fuel code.unmarked frame = some (outcome, final))
    (inDepth : outcome ≠ .error .tooDeep) :
    (∃ after, world.run limit fuel code frame = some (outcome, after) ∧
      after.output = final.output ∧ after.store.unmarked = final.store) ∧
    ∀ other steps result after, world.run other steps code frame = some (result, after) →
      result ≠ .error .tooDeep →
        result = outcome ∧ after.output = final.output ∧ after.store.unmarked = final.store := by
  simp only [World.run_eq_finish] at ended ⊢
  constructor
  · rcases (world.start_tracks limit code frame).finish ended inDepth with ⟨after, finished, worlds⟩
    exact ⟨after, finished, worlds.output.symm, worlds.store.symm⟩
  · intro other steps result after finished resultInDepth
    -- Both runs are the same under a limit that is large enough for either.
    have plainLe := Nat.le_max_left limit other
    have markedLe := Nat.le_max_right limit other
    have plainWide := World.finish_start_of_le _ plainLe _ _ ended inDepth
    have markedWide := World.finish_start_of_le _ markedLe _ _ finished resultInDepth
    rcases (world.start_tracks _ code frame).finish plainWide inDepth with ⟨_, same, worlds⟩
    cases Progress.finish_unique markedWide same
    exact ⟨rfl, worlds.output.symm, worlds.store.symm⟩

/-- `(letrec ((f (lambda (n) (if (= n 0) n (f (- n 1)))))) (f 3))` -/
def countDown : Node :=
  let call (name : String) (operands : List Node) (tail : Bool) : Node :=
    .call (.variable ⟨name⟩) operands tail
  let number (value : Int64) : Node := .literal (.number (.integer value))
  let body : Node :=
    .branch (call "=" [.variable ⟨"n"⟩, number 0] false) (.variable ⟨"n"⟩)
      (some (call "f" [call "-" [.variable ⟨"n"⟩, number 1] false] true))
  .letrec [(⟨"f"⟩, .lambda none ⟨[⟨"n"⟩], none⟩ body)] (call "f" [number 3] true)

/-- Three levels are enough with marks, where code without marks needs more. -/
theorem run_unmarked_countDown :
    let world := World.ofStore .standard
    let zero : Value := .number (.integer 0)
    ∃ final early after shallow : World,
      world.unmarked.run 9 90 countDown.unmarked 0 = some (.ok zero, final) ∧
      world.unmarked.run 3 90 countDown.unmarked 0 = some (.error .tooDeep, early) ∧
      world.run 9 90 countDown 0 = some (.ok zero, after) ∧
      after.store.unmarked = final.store ∧
      world.run 3 90 countDown 0 = some (.ok zero, shallow) ∧
      shallow.store.unmarked = final.store := by
  intro world zero
  have deep : (world.unmarked.run 9 90 countDown.unmarked 0).map (·.1) = some (.ok zero) := by
    cbv
  have full : (world.unmarked.run 3 90 countDown.unmarked 0).map (·.1) =
      some (.error .tooDeep) := by
    cbv
  have low : (world.run 3 90 countDown 0).map (·.1) = some (.ok zero) := by
    cbv
  rcases Option.map_eq_some_iff.mp deep with ⟨⟨_, final⟩, plain, rfl⟩
  rcases Option.map_eq_some_iff.mp full with ⟨⟨_, early⟩, stopped, rfl⟩
  rcases Option.map_eq_some_iff.mp low with ⟨⟨_, shallow⟩, marked, rfl⟩
  rcases run_unmarked world countDown 0 plain (by simp) with ⟨⟨after, ended, _, same⟩, agree⟩
  rcases agree 3 90 _ shallow marked (by simp) with ⟨_, _, sameStore⟩
  exact ⟨final, early, after, shallow, plain, stopped, ended, same, marked, sameStore⟩

end SmallScheme
