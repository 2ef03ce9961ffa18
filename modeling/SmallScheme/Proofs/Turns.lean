import SmallScheme.Proofs.Moves

namespace SmallScheme

/-! # Turns

Between two evaluations the machine takes a turn: it starts on a node or goes on with a
level, up to where it hands on a value, needs the value of another expression or fails. A
turn does not ask for the limit nor look at the levels below, it executes no step on a
node, and never does it run out of depth by itself. -/

/-! ## Steps among the records -/

/-- The depth at which a recorded step was executed. -/
def Record.depth? : Record → Option Nat
  | .step depth _ => some depth
  | _ => none

/-- The kind of the node on which a recorded step was executed. -/
def Record.kind? : Record → Option Kind
  | .step _ kind => some kind
  | _ => none

namespace World

/-- The depths of the recorded steps, in the order of the steps. -/
def depths (world : World) : List Nat :=
  (world.records.filterMap Record.depth?).reverse

/-- The kinds of the nodes in the recorded steps, in the order of the steps. -/
def kinds (world : World) : List Kind :=
  (world.records.filterMap Record.kind?).reverse

/-- Nothing that is recorded in between is a step, and nothing is counted. -/
structure Quiet (before after : World) : Prop where
  watch : after.watch = before.watch
  depths : after.depths = before.depths
  kinds : after.kinds = before.kinds
  tally : after.tally = before.tally

namespace Quiet

theorem refl (world : World) : world.Quiet world :=
  ⟨rfl, rfl, rfl, rfl⟩

theorem trans {first second third : World} (one : first.Quiet second) (two : second.Quiet third) :
    first.Quiet third :=
  ⟨two.watch.trans one.watch, two.depths.trans one.depths, two.kinds.trans one.kinds,
    two.tally.trans one.tally⟩

end Quiet

theorem watch_record (world : World) (record : Record) :
    (world.record record).watch = world.watch := by
  unfold World.record
  split <;> rfl

theorem tally_record (world : World) (record : Record) :
    (world.record record).tally = world.tally := by
  unfold World.record
  split <;> rfl

theorem quiet_record (world : World) {record : Record} (noDepth : record.depth? = none)
    (noKind : record.kind? = none) : world.Quiet (world.record record) where
  watch := world.watch_record record
  depths := by
    unfold World.record
    split
    · rfl
    · rfl
    · simp only [World.depths, List.filterMap_cons, noDepth]
  kinds := by
    unfold World.record
    split
    · rfl
    · rfl
    · simp only [World.kinds, List.filterMap_cons, noKind]
  tally := world.tally_record record

theorem quiet_child (world : World) (parent : FrameId) : world.Quiet (world.child parent).2 :=
  ⟨rfl, rfl, rfl, rfl⟩

theorem quiet_define (world : World) (frame : FrameId) (name : Symbol) (value : Value) :
    world.Quiet (world.define frame name value) :=
  ⟨rfl, rfl, rfl, rfl⟩

theorem quiet_close (world : World) (name : Option Symbol) (formals : Formals) (body : Node)
    (frame : FrameId) : world.Quiet (world.close name formals body frame).2 :=
  ⟨rfl, rfl, rfl, rfl⟩

theorem quiet_bindArguments (world : World) (formals : Formals) (parent : FrameId)
    (arguments : List Value) : world.Quiet (world.bindArguments formals parent arguments).2 :=
  ⟨rfl, rfl, rfl, rfl⟩

theorem quiet_predefine (world : World) (frame : FrameId) (bindings : List (Symbol × Node)) :
    world.Quiet (Machine.predefine world frame bindings) := by
  induction bindings generalizing world with
  | nil => exact .refl world
  | cons binding rest induction =>
      exact (world.quiet_define frame binding.1 .nil).trans (induction _)

/-- A step on a node is recorded if steps are, with its depth and with the kind of the
node. -/
theorem depths_observe {world : World} (watching : world.watch = .steps) (depth : Nat)
    (kind : Kind) : (world.observe depth kind).depths = world.depths ++ [depth] := by
  simp [observe, World.record, watching, World.depths, Record.depth?]

theorem kinds_observe {world : World} (watching : world.watch = .steps) (depth : Nat)
    (kind : Kind) : (world.observe depth kind).kinds = world.kinds ++ [kind] := by
  simp [observe, World.record, watching, World.kinds, Record.kind?]

/-- A step on a node is counted if steps are. -/
theorem tally_observe (world : World) (depth : Nat) (kind : Kind) :
    (world.observe depth kind).tally = world.tally.map (Tally.add kind) :=
  tally_record { world with tally := world.tally.map (Tally.add kind) } _

theorem watch_observe (world : World) (depth : Nat) (kind : Kind) :
    (world.observe depth kind).watch = world.watch :=
  watch_record { world with tally := world.tally.map (Tally.add kind) } _

end World

/-! ## One turn -/

/-- A course, which is given a limit and the levels below, makes a move that is the same
under every limit and above all levels. No step on a node is executed before it, and where
it fails, it is not for want of depth. -/
def World.Turns (world : World) (depth : Nat) (course : Nat → List Level → Progress) : Prop :=
  ∃ (after : World) (move : Move), world.Quiet after ∧ move ≠ .fail .tooDeep ∧
    ∀ limit levels, course limit levels = move.make limit ⟨after, levels, depth⟩

namespace World.Turns

variable {world : World} {depth : Nat}

theorem give (value : Value) :
    world.Turns depth fun _ levels => Machine.give ⟨world, levels, depth⟩ value :=
  ⟨world, .give value, .refl world, nofun, fun _ _ => rfl⟩

theorem proceed (code : Node) (frame : FrameId) :
    world.Turns depth fun _ levels => Machine.proceed ⟨world, levels, depth⟩ code frame :=
  ⟨world, .proceed code frame, .refl world, nofun, fun _ _ => rfl⟩

theorem suspend (level : Level) (code : Node) (frame : FrameId) :
    world.Turns depth fun limit levels =>
      Machine.suspend limit ⟨world, levels, depth⟩ level code frame :=
  ⟨world, .suspend level code frame, .refl world, nofun, fun _ _ => rfl⟩

theorem fail {error : RunError} (inDepth : error ≠ .tooDeep) :
    world.Turns depth fun _ levels => Machine.fail ⟨world, levels, depth⟩ error :=
  ⟨world, .fail error, .refl world, fun same => inDepth (Move.fail.inj same), fun _ _ => rfl⟩

theorem unbound (name : Symbol) :
    world.Turns depth fun _ levels => Machine.fail ⟨world, levels, depth⟩ (.unbound name) :=
  .fail nofun

theorem after {middle : World} {course : Nat → List Level → Progress}
    (quiet : world.Quiet middle) (turns : middle.Turns depth course) :
    world.Turns depth course := by
  obtain ⟨last, move, more, inDepth, made⟩ := turns
  exact ⟨last, move, quiet.trans more, inDepth, made⟩

theorem branch {condition : Bool} {yes no : Nat → List Level → Progress}
    (ifTrue : world.Turns depth yes) (ifFalse : world.Turns depth no) :
    world.Turns depth fun limit levels =>
      if condition then yes limit levels else no limit levels := by
  cases condition with
  | false => exact ifFalse
  | true => exact ifTrue

end World.Turns

namespace Machine

open World (Turns Quiet)

variable (world : World) (depth : Nat) (frame : FrameId)

/-! ### Sequences and tests -/

theorem runSequence_turns (parts : List Node) :
    world.Turns depth fun limit levels =>
      runSequence limit ⟨world, levels, depth⟩ frame parts := by
  rcases parts with _ | ⟨first, _ | ⟨second, rest⟩⟩
  · exact .give .nil
  · exact .proceed first frame
  · exact .suspend (.sequence (second :: rest) frame) first frame

theorem runConjunction_turns (tests : List Node) :
    world.Turns depth fun limit levels =>
      runConjunction limit ⟨world, levels, depth⟩ frame tests := by
  rcases tests with _ | ⟨first, _ | ⟨second, rest⟩⟩
  · exact .give (.boolean true)
  · exact .proceed first frame
  · exact .suspend (.conjunction (second :: rest) frame) first frame

theorem runDisjunction_turns (tests : List Node) :
    world.Turns depth fun limit levels =>
      runDisjunction limit ⟨world, levels, depth⟩ frame tests := by
  rcases tests with _ | ⟨first, _ | ⟨second, rest⟩⟩
  · exact .give (.boolean false)
  · exact .proceed first frame
  · exact .suspend (.disjunction (second :: rest) frame) first frame

theorem runClauses_turns (items : List Clause) :
    world.Turns depth fun limit levels =>
      runClauses limit ⟨world, levels, depth⟩ frame items := by
  rcases items with _ | ⟨item, rest⟩
  · exact .give .nil
  · cases item with
    | otherwise body => exact .proceed body frame
    | test test => exact .suspend (.clause (.test test) rest frame) test frame
    | arrow test receiver tail =>
        exact .suspend (.clause (.arrow test receiver tail) rest frame) test frame
    | body test body => exact .suspend (.clause (.body test body) rest frame) test frame

/-! ### Calls -/

theorem callPrimitive_turns (operation : Primitive) (arguments : List Value) :
    world.Turns depth fun _ levels =>
      callPrimitive ⟨world, levels, depth⟩ operation arguments := by
  unfold callPrimitive
  dsimp only
  rcases operation.operation.answer? world.store.next arguments with _ | fault | answer
  · exact .fail nofun
  · exact .fail nofun
  · let answered : World :=
      { world with
        store := { world.store with next := answer.next }
        output := world.output ++ answer.output }
    have quiet : world.Quiet answered := ⟨rfl, rfl, rfl, rfl⟩
    exact .after quiet (.give answer.value)

theorem callCompound_turns (place : Place) (name : Option Symbol) (formals : Formals)
    (arguments : List Value) (tail : Bool) :
    world.Turns depth fun limit levels =>
      callCompound limit ⟨world, levels, depth⟩ place name formals arguments tail := by
  unfold callCompound
  dsimp only
  cases world.store.closures[place]? with
  | none => exact .fail nofun
  | some closure =>
      have bound := world.quiet_bindArguments formals closure.frame arguments
      refine .branch (.after bound (.branch ?_ ?_)) (.fail nofun)
      · exact .after (World.quiet_record _ rfl rfl) (.proceed closure.body _)
      · exact .suspend .body closure.body _

theorem call_turns (procedure : Value) (arguments : List Value) (tail : Bool) :
    world.Turns depth fun limit levels =>
      call limit ⟨world, levels, depth⟩ procedure arguments tail := by
  rcases procedure with _ | _ | _ | _ | _ | _ | ⟨operation | ⟨place, name, formals⟩⟩
  case procedure.primitive => exact callPrimitive_turns world depth operation arguments
  case procedure.compound => exact callCompound_turns world depth place name formals arguments tail
  all_goals exact .fail nofun

theorem runOperands_turns (procedure : Value) (reversed : List Value) (tail : Bool)
    (operands : List Node) :
    world.Turns depth fun limit levels =>
      runOperands limit ⟨world, levels, depth⟩ procedure reversed tail frame operands := by
  cases operands with
  | nil => exact call_turns world depth procedure reversed.reverse tail
  | cons operand rest => exact .suspend (.operand procedure reversed rest tail frame) operand frame

/-! ### Bindings and loops -/

theorem runBindings_turns (body : Node) (scope inner : FrameId)
    (bindings : List (Symbol × Node)) :
    world.Turns depth fun limit levels =>
      runBindings limit ⟨world, levels, depth⟩ body scope inner bindings := by
  rcases bindings with _ | ⟨⟨name, init⟩, rest⟩
  · exact .proceed body inner
  · exact .suspend (.binding name rest body scope inner) init scope

theorem runLoopInits_turns (loop : Loop) (varying : List LoopVariable) :
    world.Turns depth fun limit levels =>
      runLoopInits limit ⟨world, levels, depth⟩ loop frame varying := by
  rcases varying with _ | ⟨⟨name, init, step⟩, rest⟩
  · exact .suspend (.loopTest loop frame) loop.test frame
  · exact .suspend (.loopInit name rest loop frame) init loop.outer

theorem runLoopSteps_turns (loop : Loop) (next : FrameId) (varying : List LoopVariable) :
    world.Turns depth fun limit levels =>
      runLoopSteps limit ⟨world, levels, depth⟩ loop frame next varying := by
  induction varying generalizing world with
  | nil =>
      exact .after (world.quiet_record rfl rfl) (.suspend (.loopTest loop next) loop.test next)
  | cons item rest induction =>
      rcases item with ⟨name, init, _ | step⟩
      · simp only [runLoopSteps]
        cases world.store.get? frame name with
        | none => exact .unbound name
        | some value => exact .after (world.quiet_define next name value) (induction _)
      · exact .suspend (.loopStep name rest loop frame next) step frame

theorem runLoopCommands_turns (loop : Loop) (commands : List Node) :
    world.Turns depth fun limit levels =>
      runLoopCommands limit ⟨world, levels, depth⟩ loop frame commands := by
  cases commands with
  | nil =>
      exact .after (world.quiet_child loop.outer)
        (runLoopSteps_turns _ depth frame loop (world.child loop.outer).1 loop.varying)
  | cons command rest => exact .suspend (.loopCommand rest loop frame) command frame

/-! ### Whole turns -/

theorem execute_turns (code : Node) :
    world.Turns depth fun limit levels => execute limit ⟨world, levels, depth⟩ frame code := by
  cases code with
  | literal value => exact .give value
  | quote value => exact .give value
  | «variable» name =>
      simp only [execute]
      cases world.store.get? frame name with
      | some value => exact .give value
      | none => exact .unbound name
  | branch test consequent alternate =>
      exact .suspend (.branch consequent alternate frame) test frame
  | sequence parts => exact runSequence_turns world depth frame parts
  | lambda name formals body =>
      exact .after (world.quiet_close name formals body frame)
        (.give (world.close name formals body frame).1)
  | define name value => exact .suspend (.define name frame) value frame
  | assign name value => exact .suspend (.assign name frame) value frame
  | call operator operands tail => exact .suspend (.operator operands tail frame) operator frame
  | letIn bindings body =>
      exact .after (world.quiet_child frame)
        (runBindings_turns _ depth body frame (world.child frame).1 bindings)
  | letrec bindings body =>
      let inner := (world.child frame).1
      have predefined := World.quiet_predefine (world.child frame).2 inner bindings
      exact .after ((world.quiet_child frame).trans predefined)
        (runBindings_turns _ depth body inner inner bindings)
  | loop varying test result commands =>
      exact .after (world.quiet_child frame)
        (runLoopInits_turns _ depth (world.child frame).1 ⟨varying, test, result, commands, frame⟩
          varying)
  | cond clauses => exact runClauses_turns world depth frame clauses
  | conjunction tests => exact runConjunction_turns world depth frame tests
  | disjunction tests => exact runDisjunction_turns world depth frame tests

theorem resume_turns (value : Value) (level : Level) :
    world.Turns depth fun limit levels => resume limit ⟨world, levels, depth⟩ value level := by
  cases level with
  | branch consequent alternate frame =>
      refine .branch (.proceed consequent frame) ?_
      cases alternate with
      | some alternate => exact .proceed alternate frame
      | none => exact .give .nil
  | sequence rest frame => exact runSequence_turns world depth frame rest
  | define name frame => exact .after (world.quiet_define frame name value) (.give .nil)
  | assign name frame =>
      simp only [resume]
      cases world.store.nearest? name frame with
      | some nearest => exact .after (world.quiet_define nearest name value) (.give value)
      | none => exact .unbound name
  | operator operands tail frame => exact runOperands_turns world depth frame value [] tail operands
  | operand procedure reversed rest tail frame =>
      exact runOperands_turns world depth frame procedure (value :: reversed) tail rest
  | binding name rest body scope inner =>
      exact .after (world.quiet_define inner name value)
        (runBindings_turns _ depth body scope inner rest)
  | loopInit name rest loop frame =>
      exact .after (world.quiet_define frame name value)
        (runLoopInits_turns _ depth frame loop rest)
  | loopTest loop frame =>
      refine .branch ?_ (runLoopCommands_turns world depth frame loop loop.commands)
      cases loop.result with
      | some result => exact .proceed result frame
      | none => exact .give .nil
  | loopCommand rest loop frame => exact runLoopCommands_turns world depth frame loop rest
  | loopStep name rest loop frame next =>
      exact .after (world.quiet_define next name value)
        (runLoopSteps_turns _ depth frame loop next rest)
  | clause clause rest frame =>
      refine .branch ?_ (runClauses_turns world depth frame rest)
      cases clause with
      | test test => exact .give value
      | arrow test receiver tail => exact .suspend (.receiver value tail) receiver frame
      | body test body => exact .proceed body frame
      | otherwise body => exact .proceed body frame
  | receiver argument tail => exact call_turns world depth value [argument] tail
  | conjunction rest frame =>
      exact .branch (runConjunction_turns world depth frame rest) (.give value)
  | disjunction rest frame =>
      exact .branch (.give value) (runDisjunction_turns world depth frame rest)
  | body => exact .give value

end Machine

end SmallScheme
