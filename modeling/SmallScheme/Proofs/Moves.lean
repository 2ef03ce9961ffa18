import SmallScheme.Proofs.Runs
import Mathlib.Logic.Relation

namespace SmallScheme

/-! # What a step can do

A step changes the world a few times, and then moves: it hands on a value, goes on
with an expression in its own place or one level deeper, or fails. What it changes
and how it moves does not depend on the limit; only a move to a deeper level asks
for that. -/

/-! ## Changes of the world -/

namespace World

inductive Change : World → World → Prop
  | record (world : World) (record : Record) : Change world (world.record record)
  | observe (world : World) (depth : Nat) (kind : Kind) :
      Change world (world.observe depth kind)
  | child (world : World) (parent : FrameId) : Change world (world.child parent).2
  | define (world : World) (frame : FrameId) (name : Symbol) (value : Value) :
      Change world (world.define frame name value)
  | close (world : World) (name : Option Symbol) (formals : Formals) (body : Node)
      (frame : FrameId) : Change world (world.close name formals body frame).2
  | bindArguments (world : World) (formals : Formals) (parent : FrameId)
      (arguments : List Value) : Change world (world.bindArguments formals parent arguments).2
  | answer (world : World) (answer : Answer) :
      Change world
        { world with
          store := { world.store with next := answer.next }
          output := world.output ++ answer.output }

abbrev Changes : World → World → Prop :=
  Relation.ReflTransGen Change

end World

/-! ## Moves -/

inductive Move where
  | give (value : Value)
  | proceed (code : Node) (frame : FrameId)
  | suspend (level : Level) (code : Node) (frame : FrameId)
  | fail (error : RunError)

def Move.make (limit : Nat) (machine : Machine) : Move → Progress
  | .give value => machine.give value
  | .proceed code frame => machine.proceed code frame
  | .suspend level code frame => machine.suspend limit level code frame
  | .fail error => machine.fail error

/-- The world that a progress has come to. -/
def Progress.world : Progress → World
  | .running _ machine => machine.world
  | .ended _ world => world

theorem Move.world_make (limit : Nat) (machine : Machine) (move : Move) :
    (move.make limit machine).world = machine.world := by
  cases move with
  | suspend level code frame =>
      rw [Move.make, Machine.suspend]
      split <;> rfl
  | give value => rfl
  | proceed code frame => rfl
  | fail error => rfl

namespace Machine

/-- From where the machine stands, a course changes the world and makes a move,
both the same under every limit. -/
def Moves (machine : Machine) (course : Nat → Progress) : Prop :=
  ∃ world move, machine.world.Changes world ∧
    ∀ limit, course limit = Move.make limit { machine with world := world } move

namespace Moves

variable {machine : Machine} {course : Nat → Progress}

theorem give (machine : Machine) (value : Value) :
    machine.Moves fun _ => machine.give value :=
  ⟨machine.world, .give value, .refl, fun _ => rfl⟩

theorem proceed (machine : Machine) (code : Node) (frame : FrameId) :
    machine.Moves fun _ => machine.proceed code frame :=
  ⟨machine.world, .proceed code frame, .refl, fun _ => rfl⟩

theorem suspend (machine : Machine) (level : Level) (code : Node) (frame : FrameId) :
    machine.Moves fun limit => machine.suspend limit level code frame :=
  ⟨machine.world, .suspend level code frame, .refl, fun _ => rfl⟩

theorem fail (machine : Machine) (error : RunError) :
    machine.Moves fun _ => machine.fail error :=
  ⟨machine.world, .fail error, .refl, fun _ => rfl⟩

theorem after {world : World} (changes : machine.world.Changes world)
    (moves : Moves { machine with world := world } course) : machine.Moves course := by
  rcases moves with ⟨final, move, more, same⟩
  exact ⟨final, move, changes.trans more, same⟩

theorem branch {condition : Bool} {yes no : Nat → Progress} (ifTrue : machine.Moves yes)
    (ifFalse : machine.Moves no) :
    machine.Moves fun limit => if condition then yes limit else no limit := by
  cases condition with
  | false => exact ifFalse
  | true => exact ifTrue

end Moves

theorem predefine_changes (world : World) (frame : FrameId) (bindings : List (Symbol × Node)) :
    world.Changes (predefine world frame bindings) := by
  induction bindings generalizing world with
  | nil => exact .refl
  | cons binding rest induction => exact .head (.define world frame _ _) (induction _)

variable (machine : Machine)

theorem runSequence_moves (frame : FrameId) (parts : List Node) :
    machine.Moves fun limit => machine.runSequence limit frame parts := by
  rcases parts with _ | ⟨first, _ | ⟨second, rest⟩⟩
  · exact .give machine .nil
  · exact .proceed machine first frame
  · exact .suspend machine _ first frame

theorem runConjunction_moves (frame : FrameId) (tests : List Node) :
    machine.Moves fun limit => machine.runConjunction limit frame tests := by
  rcases tests with _ | ⟨first, _ | ⟨second, rest⟩⟩
  · exact .give machine (.boolean true)
  · exact .proceed machine first frame
  · exact .suspend machine _ first frame

theorem runDisjunction_moves (frame : FrameId) (tests : List Node) :
    machine.Moves fun limit => machine.runDisjunction limit frame tests := by
  rcases tests with _ | ⟨first, _ | ⟨second, rest⟩⟩
  · exact .give machine (.boolean false)
  · exact .proceed machine first frame
  · exact .suspend machine _ first frame

theorem runClauses_moves (frame : FrameId) (items : List Clause) :
    machine.Moves fun limit => machine.runClauses limit frame items := by
  rcases items with _ | ⟨item, rest⟩
  · exact .give machine .nil
  · cases item with
    | otherwise body => exact .proceed machine body frame
    | test test => exact .suspend machine _ test frame
    | arrow test receiver tail => exact .suspend machine _ test frame
    | body test body => exact .suspend machine _ test frame

theorem callPrimitive_moves (operation : Primitive) (arguments : List Value) :
    machine.Moves fun _ => machine.callPrimitive operation arguments := by
  unfold callPrimitive
  dsimp only
  rcases operation.operation.answer? machine.world.store.next arguments with
    _ | fault | answer
  · exact .fail machine _
  · exact .fail machine _
  · exact .after (.single (.answer machine.world answer)) (.give _ answer.value)

theorem callCompound_moves (place : Place) (name : Option Symbol) (formals : Formals)
    (arguments : List Value) (tail : Bool) :
    machine.Moves fun limit =>
      machine.callCompound limit place name formals arguments tail := by
  unfold callCompound
  dsimp only
  cases machine.world.store.closures[place]? with
  | none => exact .fail machine _
  | some closure =>
      have bound := World.Change.bindArguments machine.world formals closure.frame arguments
      refine .branch (.after (.single bound) (.branch ?_ ?_)) (.fail machine _)
      · exact .after (.single (.record _ _)) (.proceed _ closure.body _)
      · exact .suspend _ .body closure.body _

theorem call_moves (procedure : Value) (arguments : List Value) (tail : Bool) :
    machine.Moves fun limit => machine.call limit procedure arguments tail := by
  rcases procedure with _ | _ | _ | _ | _ | _ | ⟨operation | ⟨place, name, formals⟩⟩
  case procedure.primitive => exact machine.callPrimitive_moves operation arguments
  case procedure.compound => exact machine.callCompound_moves place name formals arguments tail
  all_goals exact .fail machine _

theorem runOperands_moves (procedure : Value) (reversed : List Value) (tail : Bool)
    (frame : FrameId) (operands : List Node) :
    machine.Moves fun limit =>
      machine.runOperands limit procedure reversed tail frame operands := by
  cases operands with
  | nil => exact machine.call_moves procedure reversed.reverse tail
  | cons operand rest => exact .suspend machine _ operand frame

theorem runBindings_moves (body : Node) (scope inner : FrameId)
    (bindings : List (Symbol × Node)) :
    machine.Moves fun limit => machine.runBindings limit body scope inner bindings := by
  cases bindings with
  | nil => exact .proceed machine body inner
  | cons binding rest => exact .suspend machine _ binding.2 scope

theorem runLoopInits_moves (loop : Loop) (frame : FrameId) (varying : List LoopVariable) :
    machine.Moves fun limit => machine.runLoopInits limit loop frame varying := by
  rcases varying with _ | ⟨⟨name, init, step⟩, rest⟩
  · exact .suspend machine _ loop.test frame
  · exact .suspend machine _ init loop.outer

theorem runLoopSteps_moves (loop : Loop) (frame next : FrameId)
    (varying : List LoopVariable) :
    machine.Moves fun limit => machine.runLoopSteps limit loop frame next varying := by
  induction varying generalizing machine with
  | nil => exact .after (.single (.record _ _)) (.suspend _ _ loop.test next)
  | cons item rest induction =>
      rcases item with ⟨name, init, _ | step⟩
      · simp only [runLoopSteps]
        cases machine.world.store.get? frame name with
        | none => exact .fail machine _
        | some value => exact .after (.single (.define _ next name value)) (induction _)
      · exact .suspend machine _ step frame

theorem runLoopCommands_moves (loop : Loop) (frame : FrameId) (commands : List Node) :
    machine.Moves fun limit => machine.runLoopCommands limit loop frame commands := by
  cases commands with
  | nil =>
      exact .after (.single (.child machine.world loop.outer))
        (runLoopSteps_moves _ loop frame _ loop.varying)
  | cons command rest => exact .suspend machine _ command frame

/-- Starting on a node. -/
theorem execute_moves (frame : FrameId) (code : Node) :
    machine.Moves fun limit => machine.execute limit frame code := by
  cases code with
  | literal value => exact .give machine value
  | quote value => exact .give machine value
  | «variable» name =>
      simp only [execute]
      cases machine.world.store.get? frame name with
      | some value => exact .give machine value
      | none => exact .fail machine _
  | branch test consequent alternate => exact .suspend machine _ test frame
  | sequence parts => exact machine.runSequence_moves frame parts
  | lambda name formals body =>
      exact .after (.single (.close machine.world name formals body frame)) (.give _ _)
  | define name value => exact .suspend machine _ value frame
  | assign name value => exact .suspend machine _ value frame
  | call operator operands tail => exact .suspend machine _ operator frame
  | letIn bindings body =>
      exact .after (.single (.child machine.world frame))
        (runBindings_moves _ body frame _ bindings)
  | letrec bindings body =>
      have entered : machine.world.Changes (machine.world.child frame).2 :=
        .single (.child machine.world frame)
      exact .after (entered.trans (predefine_changes _ _ bindings))
        (runBindings_moves _ body _ _ bindings)
  | loop varying test result commands =>
      exact .after (.single (.child machine.world frame)) (runLoopInits_moves _ _ _ varying)
  | cond clauses => exact machine.runClauses_moves frame clauses
  | conjunction tests => exact machine.runConjunction_moves frame tests
  | disjunction tests => exact machine.runDisjunction_moves frame tests

/-- Going on with a suspended evaluation. -/
theorem resume_moves (value : Value) (level : Level) :
    machine.Moves fun limit => machine.resume limit value level := by
  cases level with
  | branch consequent alternate frame =>
      refine .branch (.proceed machine consequent frame) ?_
      cases alternate with
      | some alternate => exact .proceed machine alternate frame
      | none => exact .give machine .nil
  | sequence rest frame => exact machine.runSequence_moves frame rest
  | define name frame =>
      exact .after (.single (.define machine.world frame name value)) (.give _ .nil)
  | assign name frame =>
      simp only [resume]
      cases machine.world.store.nearest? name frame with
      | some nearest =>
          exact .after (.single (.define machine.world nearest name value)) (.give _ value)
      | none => exact .fail machine _
  | operator operands tail frame => exact machine.runOperands_moves value [] tail frame operands
  | operand procedure reversed rest tail frame =>
      exact machine.runOperands_moves procedure (value :: reversed) tail frame rest
  | binding name rest body scope inner =>
      exact .after (.single (.define machine.world inner name value))
        (runBindings_moves _ body scope inner rest)
  | loopInit name rest loop frame =>
      exact .after (.single (.define machine.world frame name value))
        (runLoopInits_moves _ loop frame rest)
  | loopTest loop frame =>
      refine .branch ?_ (machine.runLoopCommands_moves loop frame loop.commands)
      cases loop.result with
      | some result => exact .proceed machine result frame
      | none => exact .give machine .nil
  | loopCommand rest loop frame => exact machine.runLoopCommands_moves loop frame rest
  | loopStep name rest loop frame next =>
      exact .after (.single (.define machine.world next name value))
        (runLoopSteps_moves _ loop frame next rest)
  | clause clause rest frame =>
      refine .branch ?_ (machine.runClauses_moves frame rest)
      cases clause with
      | test test => exact .give machine value
      | arrow test receiver tail => exact .suspend machine _ receiver frame
      | body test body => exact .proceed machine body frame
      | otherwise body => exact .proceed machine body frame
  | receiver argument tail => exact machine.call_moves value [argument] tail
  | conjunction rest frame =>
      exact .branch (machine.runConjunction_moves frame rest) (.give machine value)
  | disjunction rest frame =>
      exact .branch (.give machine value) (machine.runDisjunction_moves frame rest)
  | body => exact .give machine value

/-- A whole step: it moves, from where it stands or from where the value is wanted,
or it ends the run with a value that no level waits for. -/
theorem step_moves (control : Control) :
    (∃ base : Machine, base.world = machine.world ∧
      base.Moves fun limit => machine.step limit control) ∨
    (∃ value, ∀ limit, machine.step limit control = .ended (.ok value) machine.world) := by
  cases control with
  | run code frame =>
      refine .inl ⟨machine, rfl, ?_⟩
      exact .after (.single (.observe machine.world machine.depth code.kind))
        (execute_moves _ frame code)
  | give value =>
      simp only [step]
      cases machine.levels with
      | nil => exact .inr ⟨value, fun _ => rfl⟩
      | cons level levels =>
          exact .inl ⟨{ machine with levels := levels, depth := machine.depth - 1 }, rfl,
            resume_moves _ value level⟩

end Machine

end SmallScheme
