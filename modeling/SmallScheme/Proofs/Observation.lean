import SmallScheme.Proofs.Agreement

namespace SmallScheme

/-! # Machines that nobody observes

What is counted and recorded has no effect on a run. A machine that nobody observes takes the
same steps as one that is observed, and comes to the same outcome in the same scene. -/

/-! ## Worlds -/

namespace World

/-- The world without what is only observed of it. -/
def unobserved (world : World) : World :=
  ⟨world.store, world.output, none, .nothing, []⟩

variable (world : World)

theorem unobserved_record (record : Record) :
    (world.record record).unobserved = world.unobserved := by
  unfold World.record
  split <;> rfl

theorem unobserved_observe (depth : Nat) (kind : Kind) :
    (world.observe depth kind).unobserved = world.unobserved :=
  unobserved_record { world with tally := world.tally.map (Tally.add kind) } _

theorem observe_unobserved (depth : Nat) (kind : Kind) :
    world.unobserved.observe depth kind = world.unobserved := rfl

theorem predefine_unobserved (frame : FrameId) (bindings : List (Symbol × Node)) :
    Machine.predefine world.unobserved frame bindings =
      (Machine.predefine world frame bindings).unobserved := by
  induction bindings generalizing world with
  | nil => rfl
  | cons binding rest induction => exact induction (world.define frame binding.1 .nil)

end World

/-! ## Machines -/

def Progress.unobserved : Progress → Progress
  | .running control machine =>
      .running control { machine with world := machine.world.unobserved }
  | .ended outcome world => .ended outcome world.unobserved

namespace Machine

def unobserved (machine : Machine) : Machine :=
  { machine with world := machine.world.unobserved }

variable (limit : Nat) (machine : Machine) (frame : FrameId)

theorem suspend_unobserved (level : Level) (code : Node) :
    machine.unobserved.suspend limit level code frame =
      (machine.suspend limit level code frame).unobserved := by
  have depth : machine.unobserved.depth = machine.depth := rfl
  unfold suspend
  rw [depth]
  split <;> rfl

/-! ### Sequences and tests -/

theorem runSequence_unobserved (parts : List Node) :
    machine.unobserved.runSequence limit frame parts =
      (machine.runSequence limit frame parts).unobserved := by
  rcases parts with _ | ⟨first, _ | ⟨second, rest⟩⟩
  · rfl
  · rfl
  · exact machine.suspend_unobserved limit frame _ first

theorem runConjunction_unobserved (tests : List Node) :
    machine.unobserved.runConjunction limit frame tests =
      (machine.runConjunction limit frame tests).unobserved := by
  rcases tests with _ | ⟨first, _ | ⟨second, rest⟩⟩
  · rfl
  · rfl
  · exact machine.suspend_unobserved limit frame _ first

theorem runDisjunction_unobserved (tests : List Node) :
    machine.unobserved.runDisjunction limit frame tests =
      (machine.runDisjunction limit frame tests).unobserved := by
  rcases tests with _ | ⟨first, _ | ⟨second, rest⟩⟩
  · rfl
  · rfl
  · exact machine.suspend_unobserved limit frame _ first

theorem runClauses_unobserved (items : List Clause) :
    machine.unobserved.runClauses limit frame items =
      (machine.runClauses limit frame items).unobserved := by
  cases items with
  | nil => rfl
  | cons item rest =>
      cases item with
      | otherwise body => rfl
      | test test => exact machine.suspend_unobserved limit frame _ test
      | arrow test receiver tail => exact machine.suspend_unobserved limit frame _ test
      | body test body => exact machine.suspend_unobserved limit frame _ test

/-! ### Calls -/

theorem callPrimitive_unobserved (operation : Primitive) (arguments : List Value) :
    machine.unobserved.callPrimitive operation arguments =
      (machine.callPrimitive operation arguments).unobserved := by
  have next : machine.unobserved.world.store.next = machine.world.store.next := rfl
  simp only [callPrimitive, next]
  rcases operation.operation.answer? machine.world.store.next arguments with _ | fault | answer <;>
    rfl

theorem callCompound_unobserved (place : Place) (name : Option Symbol) (formals : Formals)
    (arguments : List Value) (tail : Bool) :
    machine.unobserved.callCompound limit place name formals arguments tail =
      (machine.callCompound limit place name formals arguments tail).unobserved := by
  have closures : machine.unobserved.world.store.closures = machine.world.store.closures := rfl
  simp only [callCompound, closures]
  cases machine.world.store.closures[place]? with
  | none => rfl
  | some closure =>
      let bound := (machine.world.bindArguments formals closure.frame arguments).2
      let frame := (machine.world.bindArguments formals closure.frame arguments).1
      dsimp only
      split
      · cases tail with
        | false =>
            exact suspend_unobserved limit { machine with world := bound } frame .body closure.body
        | true =>
            have recorded := bound.unobserved_record (.tailCall (.compound place name formals))
            exact congrArg
              (fun world => proceed { machine with world := world } closure.body frame)
              recorded.symm
      · rfl

theorem call_unobserved (procedure : Value) (arguments : List Value) (tail : Bool) :
    machine.unobserved.call limit procedure arguments tail =
      (machine.call limit procedure arguments tail).unobserved := by
  rcases procedure with _ | _ | _ | _ | _ | _ | ⟨operation | ⟨place, name, formals⟩⟩
  case procedure.primitive => exact machine.callPrimitive_unobserved operation arguments
  case procedure.compound =>
    exact machine.callCompound_unobserved limit place name formals arguments tail
  all_goals rfl

theorem runOperands_unobserved (procedure : Value) (reversed : List Value) (tail : Bool)
    (operands : List Node) :
    machine.unobserved.runOperands limit procedure reversed tail frame operands =
      (machine.runOperands limit procedure reversed tail frame operands).unobserved := by
  cases operands with
  | nil => exact machine.call_unobserved limit procedure reversed.reverse tail
  | cons operand rest => exact machine.suspend_unobserved limit frame _ operand

/-! ### Bindings and loops -/

theorem runBindings_unobserved (body : Node) (scope inner : FrameId)
    (bindings : List (Symbol × Node)) :
    machine.unobserved.runBindings limit body scope inner bindings =
      (machine.runBindings limit body scope inner bindings).unobserved := by
  rcases bindings with _ | ⟨⟨name, init⟩, rest⟩
  · rfl
  · exact machine.suspend_unobserved limit scope _ init

theorem runLoopInits_unobserved (loop : Loop) (varying : List LoopVariable) :
    machine.unobserved.runLoopInits limit loop frame varying =
      (machine.runLoopInits limit loop frame varying).unobserved := by
  rcases varying with _ | ⟨⟨name, init, step⟩, rest⟩
  · exact machine.suspend_unobserved limit frame _ loop.test
  · exact machine.suspend_unobserved limit loop.outer _ init

theorem runLoopSteps_unobserved (loop : Loop) (next : FrameId) (varying : List LoopVariable) :
    machine.unobserved.runLoopSteps limit loop frame next varying =
      (machine.runLoopSteps limit loop frame next varying).unobserved := by
  induction varying generalizing machine with
  | nil =>
      let recorded : Machine := { machine with world := machine.world.record .nextRound }
      have same : recorded.unobserved = machine.unobserved :=
        congrArg (fun world => { machine with world := world })
          (machine.world.unobserved_record .nextRound)
      have suspended := recorded.suspend_unobserved limit next (.loopTest loop next) loop.test
      rw [same] at suspended
      exact suspended
  | cons item rest induction =>
      rcases item with ⟨name, init, _ | step⟩
      · have found : machine.unobserved.world.store.get? frame name =
            machine.world.store.get? frame name := rfl
        simp only [runLoopSteps, found]
        cases machine.world.store.get? frame name with
        | none => rfl
        | some value =>
            exact induction { machine with world := machine.world.define next name value }
      · exact machine.suspend_unobserved limit frame _ step

theorem runLoopCommands_unobserved (loop : Loop) (commands : List Node) :
    machine.unobserved.runLoopCommands limit loop frame commands =
      (machine.runLoopCommands limit loop frame commands).unobserved := by
  cases commands with
  | nil =>
      exact runLoopSteps_unobserved limit
        { machine with world := (machine.world.child loop.outer).2 } frame loop _ loop.varying
  | cons command rest => exact machine.suspend_unobserved limit frame _ command

/-! ### Steps -/

theorem execute_unobserved (code : Node) :
    machine.unobserved.execute limit frame code =
      (machine.execute limit frame code).unobserved := by
  cases code with
  | literal value => rfl
  | quote value => rfl
  | «variable» name =>
      have found : machine.unobserved.world.store.get? frame name =
          machine.world.store.get? frame name := rfl
      simp only [execute, found]
      cases machine.world.store.get? frame name <;> rfl
  | branch test consequent alternate => exact machine.suspend_unobserved limit frame _ test
  | sequence parts => exact machine.runSequence_unobserved limit frame parts
  | lambda name formals body => rfl
  | define name value => exact machine.suspend_unobserved limit frame _ value
  | assign name value => exact machine.suspend_unobserved limit frame _ value
  | call operator operands tail => exact machine.suspend_unobserved limit frame _ operator
  | letIn bindings body =>
      exact runBindings_unobserved limit { machine with world := (machine.world.child frame).2 }
        body frame _ bindings
  | letrec bindings body =>
      let inner := (machine.world.child frame).1
      let world := (machine.world.child frame).2
      have predefined := world.predefine_unobserved inner bindings
      have bound := runBindings_unobserved limit
        { machine with world := predefine world inner bindings } body inner inner bindings
      rw [unobserved, ← predefined] at bound
      exact bound
  | loop varying test result commands =>
      exact runLoopInits_unobserved limit { machine with world := (machine.world.child frame).2 }
        _ ⟨varying, test, result, commands, frame⟩ varying
  | cond clauses => exact machine.runClauses_unobserved limit frame clauses
  | conjunction tests => exact machine.runConjunction_unobserved limit frame tests
  | disjunction tests => exact machine.runDisjunction_unobserved limit frame tests

theorem resume_unobserved (value : Value) (level : Level) :
    machine.unobserved.resume limit value level =
      (machine.resume limit value level).unobserved := by
  cases level with
  | branch consequent alternate frame =>
      simp only [resume]
      split
      · rfl
      · cases alternate <;> rfl
  | sequence rest frame => exact machine.runSequence_unobserved limit frame rest
  | define name frame => rfl
  | assign name frame =>
      have found : machine.unobserved.world.store.nearest? name frame =
          machine.world.store.nearest? name frame := rfl
      simp only [resume, found]
      cases machine.world.store.nearest? name frame <;> rfl
  | operator operands tail frame =>
      exact machine.runOperands_unobserved limit frame value [] tail operands
  | operand procedure reversed rest tail frame =>
      exact machine.runOperands_unobserved limit frame procedure (value :: reversed) tail rest
  | binding name rest body scope inner =>
      exact runBindings_unobserved limit
        { machine with world := machine.world.define inner name value } body scope inner rest
  | loopInit name rest loop frame =>
      exact runLoopInits_unobserved limit
        { machine with world := machine.world.define frame name value } frame loop rest
  | loopTest loop frame =>
      simp only [resume]
      split
      · cases loop.result <;> rfl
      · exact machine.runLoopCommands_unobserved limit frame loop loop.commands
  | loopCommand rest loop frame => exact machine.runLoopCommands_unobserved limit frame loop rest
  | loopStep name rest loop frame next =>
      exact runLoopSteps_unobserved limit
        { machine with world := machine.world.define next name value } frame loop next rest
  | clause clause rest frame =>
      simp only [resume]
      split
      · cases clause with
        | arrow test receiver tail => exact machine.suspend_unobserved limit frame _ receiver
        | _ => rfl
      · exact machine.runClauses_unobserved limit frame rest
  | receiver argument tail => exact machine.call_unobserved limit value [argument] tail
  | conjunction rest frame =>
      simp only [resume]
      split
      · exact machine.runConjunction_unobserved limit frame rest
      · rfl
  | disjunction rest frame =>
      simp only [resume]
      split
      · rfl
      · exact machine.runDisjunction_unobserved limit frame rest
  | body => rfl

/-- Nobody has to observe a step. -/
theorem step_unobserved (control : Control) :
    machine.unobserved.step limit control = (machine.step limit control).unobserved := by
  cases control with
  | run code frame =>
      let observed : Machine :=
        { machine with world := machine.world.observe machine.depth code.kind }
      have same : observed.unobserved = machine.unobserved :=
        congrArg (fun world => { machine with world := world })
          (machine.world.unobserved_observe machine.depth code.kind)
      have executed := observed.execute_unobserved limit frame code
      rw [same] at executed
      exact executed
  | give value =>
      rcases machine with ⟨world, _ | ⟨level, levels⟩, depth⟩
      · rfl
      · exact resume_unobserved limit ⟨world, levels, depth - 1⟩ value level

theorem run_unobserved (fuel : Nat) (control : Control) :
    machine.unobserved.run limit fuel control =
      (machine.run limit fuel control).map fun answer => (answer.1, answer.2.unobserved) := by
  induction fuel generalizing control machine with
  | zero => rfl
  | succ fuel induction =>
      rw [run_succ, run_succ, step_unobserved]
      cases machine.step limit control with
      | running control machine => exact induction machine control
      | ended outcome world => rfl

end Machine

/-- The outcome of a run and the scene that it leaves are those of a run that nobody
observes. -/
theorem World.run_unobserved (world : World) (limit fuel : Nat) (code : Node) (frame : FrameId) :
    world.unobserved.run limit fuel code frame =
      (world.run limit fuel code frame).map fun answer => (answer.1, answer.2.unobserved) := by
  unfold World.run
  split
  · exact Machine.run_unobserved limit ⟨world, [], 1⟩ fuel (.run code frame)
  · rfl

end SmallScheme
