import Mathlib
import SmallScheme.Proofs.Agreement

namespace SmallScheme

/-! # The machine computes what programs mean

A run of the machine and the evaluation by plain recursion have the same outcome and
leave the same scene. The proof is one lemma for each function of the machine, given
that the machine follows the evaluator on the parts, and one induction on the fuel. -/

namespace Machine

variable {limit : Nat} {machine : Machine}

theorem suspend_of_lt (fits : machine.depth < limit) (level : Level) (code : Node)
    (frame : FrameId) :
    machine.suspend limit level code frame =
      proceed { machine with levels := level :: machine.levels, depth := machine.depth + 1 }
        code frame :=
  if_pos fits

theorem suspend_of_not_lt (full : ¬machine.depth < limit) (level : Level) (code : Node)
    (frame : FrameId) :
    machine.suspend limit level code frame = .ended (.error .tooDeep) machine.world :=
  if_neg full

end Machine

/-- Going on with an expression, the machine follows the evaluator. -/
def Realized (fuel : Nat) (evaluate : Evaluator) : Prop :=
  ∀ code frame, Follows fuel (fun _ machine => machine.proceed code frame) (evaluate frame code)

namespace Realized

variable {fuel : Nat} {evaluate : Evaluator}

theorem of_le {less : Nat} (realized : Realized fuel evaluate) (fewer : less ≤ fuel) :
    Realized less evaluate :=
  fun code frame scene => (realized code frame scene).of_le fewer

/-- One evaluation inside another: the machine puts what is left to do on a level,
and goes on with it at the same depth as before. -/
theorem suspend (realized : Realized fuel evaluate) {rest : Nat} (enough : fuel ≤ rest + 1)
    {level : Level} {code : Node} {frame : FrameId} {next : Value → Evaluation Value}
    (resumed : ∀ value,
      Follows rest (fun limit machine => machine.resume limit value level) (next value)) :
    Follows fuel (fun limit machine => machine.suspend limit level code frame)
      (evaluate frame code >>= next) := by
  intro scene
  rcases realized code frame scene with ⟨room, inner⟩
  -- The room for the rest depends on the value, of which there is one at most.
  obtain ⟨more, outer⟩ : ∃ more, ∀ value after,
      evaluate frame code scene = some (.ok value, after) →
        ∀ limit machine, machine.world.scene = after →
          Agreement limit more rest machine (machine.resume limit value level)
            (next value after) := by
    rcases evaluate frame code scene with _ | ⟨_ | value, after⟩
    · exact ⟨0, fun _ _ same => nomatch same⟩
    · exact ⟨0, fun _ _ same => nomatch same⟩
    · rcases resumed value after with ⟨more, outer⟩
      refine ⟨more, ?_⟩
      intro _ _ same
      cases same
      exact outer
  refine ⟨max (room + 1) more, ?_⟩
  intro limit machine atScene
  dsimp only
  rw [Evaluation.bind_apply]
  by_cases fits : machine.depth < limit
  · have agreement := inner limit
      { machine with levels := level :: machine.levels, depth := machine.depth + 1 } atScene
    dsimp only at agreement
    rw [← Machine.suspend_of_lt fits] at agreement
    exact agreement.resume enough fun value after returned =>
      outer value after.scene returned limit { machine with world := after } rfl
  · rw [Machine.suspend_of_not_lt fits]
    exact .overflows (.refl limit _) (.inr (by omega))

/-! ## Sequences and tests -/

theorem sequence (realized : Realized fuel evaluate) (frame : FrameId) (parts : List Node) :
    Follows fuel (fun limit machine => machine.runSequence limit frame parts)
      (Evaluator.sequence evaluate frame parts) := by
  induction parts with
  | nil => exact .give .nil
  | cons first rest induction =>
      cases rest with
      | nil => exact realized first frame
      | cons second rest =>
          exact realized.suspend (Nat.le_succ fuel) fun value => induction

theorem conjunction (realized : Realized fuel evaluate) (frame : FrameId) (tests : List Node) :
    Follows fuel (fun limit machine => machine.runConjunction limit frame tests)
      (Evaluator.conjunction evaluate frame tests) := by
  induction tests with
  | nil => exact .give (.boolean true)
  | cons first rest induction =>
      cases rest with
      | nil => exact realized first frame
      | cons second rest =>
          exact realized.suspend (Nat.le_succ fuel) fun value => .branch induction (.give value)

theorem disjunction (realized : Realized fuel evaluate) (frame : FrameId) (tests : List Node) :
    Follows fuel (fun limit machine => machine.runDisjunction limit frame tests)
      (Evaluator.disjunction evaluate frame tests) := by
  induction tests with
  | nil => exact .give (.boolean false)
  | cons first rest induction =>
      cases rest with
      | nil => exact realized first frame
      | cons second rest =>
          exact realized.suspend (Nat.le_succ fuel) fun value => .branch (.give value) induction

/-! ## Calls -/

theorem callPrimitive (operation : Primitive) (arguments : List Value) :
    Follows fuel (fun _ machine => machine.callPrimitive operation arguments)
      (Evaluation.callPrimitive operation arguments) := by
  intro scene
  rw [Evaluation.callPrimitive_apply]
  rcases answered : operation.operation.answer? scene.store.next arguments with
    _ | fault | answer
  · apply (Follows.fail _ scene).congr
    intro limit machine atScene
    subst atScene
    have here : operation.operation.answer? machine.world.store.next arguments = _ := answered
    simp only [Machine.callPrimitive, here]
  · apply (Follows.fail _ scene).congr
    intro limit machine atScene
    subst atScene
    have here : operation.operation.answer? machine.world.store.next arguments = _ := answered
    simp only [Machine.callPrimitive, here]
  · apply (Follows.give answer.value _).after
    intro limit machine atScene
    subst atScene
    let world := machine.world
    refine ⟨{ world with
      store := { world.store with next := answer.next },
      output := world.output ++ answer.output }, rfl, ?_⟩
    have here : operation.operation.answer? machine.world.store.next arguments = _ := answered
    simp only [Machine.callPrimitive, here]
    rfl

/-- A body is entered in the place of the call or one level deeper, which makes no
difference to what it yields. -/
theorem enter (realized : Realized fuel evaluate) (callee : Procedure) (body : Node)
    (frame : FrameId) (tail : Bool) :
    Follows fuel
      (fun limit machine =>
        if tail then
          { machine with world := machine.world.record (.tailCall callee) }.proceed body frame
        else machine.suspend limit .body body frame)
      (evaluate frame body) := by
  cases tail with
  | true =>
      intro scene
      apply (realized body frame scene).after
      intro limit machine atScene
      exact ⟨machine.world.record (.tailCall callee),
        (World.scene_record _ _).trans atScene, rfl⟩
  | false =>
      rw [← bind_pure (evaluate frame body)]
      exact realized.suspend (Nat.le_succ fuel) fun value => .give value

theorem applyCompound (realized : Realized fuel evaluate) (place : Place)
    (name : Option Symbol) (formals : Formals) (arguments : List Value) (tail : Bool) :
    Follows fuel
      (fun limit machine => machine.callCompound limit place name formals arguments tail)
      (Evaluator.apply evaluate (.procedure (.compound place name formals)) arguments) := by
  intro scene
  simp only [Evaluator.apply, Evaluation.bind_apply, Evaluation.get_apply,
    Evaluation.andThen_ok]
  cases found : scene.store.closures[place]? with
  | none =>
      apply (Follows.fail _ scene).congr
      intro limit machine atScene
      subst atScene
      have here : machine.world.store.closures[place]? = none := found
      simp only [Machine.callCompound, here]
  | some closure =>
      by_cases accepted : formals.arity.accepts arguments.length
      · have entered := Follows.onStore (·.bindArguments formals closure.frame arguments)
          (fun frame => realized.enter (.compound place name formals) closure.body frame tail)
          scene
        simp only [accepted, if_true]
        apply entered.congr
        intro limit machine atScene
        subst atScene
        have here : machine.world.store.closures[place]? = some closure := found
        simp only [Machine.callCompound, accepted, if_true, here]
        rfl
      · simp only [accepted]
        apply (Follows.fail _ scene).congr
        intro limit machine atScene
        subst atScene
        have here : machine.world.store.closures[place]? = some closure := found
        simp only [Machine.callCompound, accepted, here]
        rfl

theorem apply (realized : Realized fuel evaluate) (procedure : Value) (arguments : List Value)
    (tail : Bool) :
    Follows fuel (fun limit machine => machine.call limit procedure arguments tail)
      (Evaluator.apply evaluate procedure arguments) := by
  rcases procedure with _ | _ | _ | _ | _ | _ | ⟨operation | ⟨place, name, formals⟩⟩
  case procedure.primitive => exact callPrimitive operation arguments
  case procedure.compound => exact realized.applyCompound place name formals arguments tail
  all_goals exact .fail _

theorem operands (realized : Realized fuel evaluate) (frame : FrameId) (procedure : Value)
    (tail : Bool) (reversed : List Value) (rest : List Node) :
    Follows fuel
      (fun limit machine => machine.runOperands limit procedure reversed tail frame rest)
      (rest.mapM (evaluate frame) >>= fun arguments =>
        Evaluator.apply evaluate procedure (reversed.reverse ++ arguments)) := by
  induction rest generalizing reversed with
  | nil =>
      rw [List.mapM_nil, pure_bind, List.append_nil]
      exact realized.apply procedure reversed.reverse tail
  | cons operand rest induction =>
      rw [List.mapM_cons]
      simp only [bind_assoc, pure_bind]
      refine realized.suspend (Nat.le_succ fuel) fun value => ?_
      have follows := induction (value :: reversed)
      simp only [List.reverse_cons, List.append_assoc, List.singleton_append] at follows
      exact follows

theorem clauses (realized : Realized fuel evaluate) (frame : FrameId) (items : List Clause) :
    Follows fuel (fun limit machine => machine.runClauses limit frame items)
      (Evaluator.clauses evaluate frame items) := by
  induction items with
  | nil => exact .give .nil
  | cons item rest induction =>
      cases item with
      | otherwise body => exact realized body frame
      | test test =>
          exact realized.suspend (Nat.le_succ fuel) fun value => .branch (.give value) induction
      | arrow test receiver tail =>
          refine realized.suspend (Nat.le_succ fuel) fun value => .branch ?_ induction
          exact realized.suspend (Nat.le_succ fuel) fun procedure =>
            realized.apply procedure [value] tail
      | body test body =>
          exact realized.suspend (Nat.le_succ fuel) fun value =>
            .branch (realized body frame) induction

/-! ## Bindings and loops -/

theorem bindings (realized : Realized fuel evaluate) (body : Node) (scope inner : FrameId)
    (items : List (Symbol × Node)) :
    Follows fuel (fun limit machine => machine.runBindings limit body scope inner items)
      (Evaluator.bindEach evaluate scope inner items >>= fun _ => evaluate inner body) := by
  induction items with
  | nil => exact realized body inner
  | cons item rest induction =>
      simp only [Evaluator.bindEach, bind_assoc]
      exact realized.suspend (Nat.le_succ fuel) fun value => .define induction

theorem predefine (inner : FrameId) (items : List (Symbol × Node)) {course : Course}
    {next : Evaluation Value} (follows : Follows fuel course next) :
    Follows fuel
      (fun limit machine =>
        course limit { machine with world := Machine.predefine machine.world inner items })
      (Evaluation.predefine inner items >>= fun _ => next) := by
  induction items with
  | nil => exact follows
  | cons item rest induction =>
      simp only [Evaluation.predefine, bind_assoc]
      exact .define induction

section

variable {loop : Loop} {again : FrameId → Evaluation Value}

theorem loopInits (realized : Realized fuel evaluate) (frame : FrameId)
    (follows : Follows fuel
      (fun limit machine => machine.suspend limit (.loopTest loop frame) loop.test frame)
      (again frame))
    (items : List LoopVariable) :
    Follows fuel (fun limit machine => machine.runLoopInits limit loop frame items)
      (Evaluator.bindEach evaluate loop.outer frame
        (items.map fun item => (item.name, item.init)) >>= fun _ => again frame) := by
  induction items with
  | nil => exact follows
  | cons item rest induction =>
      rcases item with ⟨name, init, step⟩
      simp only [List.map_cons, Evaluator.bindEach, bind_assoc]
      exact realized.suspend (Nat.le_succ fuel) fun value => .define induction

theorem loopSteps (realized : Realized fuel evaluate) (frame next : FrameId)
    (follows : Follows fuel
      (fun limit machine => machine.suspend limit (.loopTest loop next) loop.test next)
      (again next))
    (items : List LoopVariable) :
    Follows fuel (fun limit machine => machine.runLoopSteps limit loop frame next items)
      (Evaluator.bindSteps evaluate frame next items >>= fun _ => again next) := by
  induction items with
  | nil =>
      intro scene
      apply (follows scene).after
      intro limit machine atScene
      exact ⟨machine.world.record .nextRound, (World.scene_record _ _).trans atScene, rfl⟩
  | cons item rest induction =>
      rcases item with ⟨name, init, _ | step⟩
      · simp only [Evaluator.bindSteps, bind_assoc]
        refine .lookup (fun value => .define induction) ?_ ?_
        · intro limit machine value found
          simp only [Machine.runLoopSteps, found]
        · intro limit machine missing
          simp only [Machine.runLoopSteps, missing]
      · simp only [Evaluator.bindSteps, bind_assoc]
        exact realized.suspend (Nat.le_succ fuel) fun value => .define induction

theorem loopCommands (realized : Realized fuel evaluate)
    (follows : ∀ next, Follows fuel (fun limit machine =>
      machine.suspend limit (.loopTest loop next) loop.test next) (again next))
    (frame : FrameId) (commands : List Node) :
    Follows fuel (fun limit machine => machine.runLoopCommands limit loop frame commands)
      (Evaluator.perform evaluate frame commands >>= fun _ =>
        Evaluation.onStore (·.child loop.outer) >>= fun next =>
          Evaluator.bindSteps evaluate frame next loop.varying >>= fun _ => again next) := by
  induction commands with
  | nil =>
      exact .onStore (·.child loop.outer) fun next =>
        realized.loopSteps frame next (follows next) loop.varying
  | cons command rest induction =>
      simp only [Evaluator.perform, bind_assoc]
      exact realized.suspend (Nat.le_succ fuel) fun _ => induction

end

theorem rounds (realized : Realized fuel evaluate) (loop : Loop) (count : Nat)
    (fewer : count ≤ fuel) (frame : FrameId) :
    Follows count
      (fun limit machine => machine.suspend limit (.loopTest loop frame) loop.test frame)
      (Evaluator.rounds evaluate loop count frame) := by
  induction count generalizing frame with
  | zero =>
      -- No round is left: the machine stands before the test, or cannot get there.
      intro scene
      refine ⟨0, ?_⟩
      intro limit machine atScene
      by_cases fits : machine.depth < limit
      · dsimp only
        rw [Machine.suspend_of_lt fits]
        exact .unfinished rfl
      · dsimp only
        rw [Machine.suspend_of_not_lt fits]
        exact .overflows (.refl limit _) (.inl rfl)
  | succ count induction =>
      have atCount : Realized count evaluate := realized.of_le (by omega)
      have again := induction (by omega)
      refine (realized.of_le fewer).suspend (Nat.le_refl _) fun value => .branch ?_ ?_
      · rcases loop.result with _ | result
        · exact .give .nil
        · exact atCount result frame
      · exact atCount.loopCommands again frame loop.commands

/-! ## Expressions -/

theorem expression (realized : Realized fuel evaluate) (frame : FrameId) (code : Node) :
    Follows fuel (fun limit machine => machine.execute limit frame code)
      (Evaluator.expression evaluate fuel frame code) := by
  cases code with
  | literal value => exact .give value
  | quote value => exact .give value
  | «variable» name =>
      rw [Evaluator.expression, ← bind_pure (Evaluation.lookup frame name)]
      refine .lookup (fun value => .give value) ?_ ?_
      · intro limit machine value found
        simp only [Machine.execute, found]
      · intro limit machine missing
        simp only [Machine.execute, missing]
  | branch test consequent alternate =>
      refine realized.suspend (Nat.le_succ fuel) fun value =>
        .branch (realized consequent frame) ?_
      cases alternate with
      | none => exact .give .nil
      | some alternate => exact realized alternate frame
  | sequence parts => exact realized.sequence frame parts
  | lambda name formals body =>
      rw [Evaluator.expression, ← bind_pure (Evaluation.onStore _)]
      exact .onStore (·.close name formals body frame) fun value => .give value
  | define name value =>
      exact realized.suspend (Nat.le_succ fuel) fun value => .define (.give .nil)
  | assign name value =>
      exact realized.suspend (Nat.le_succ fuel) fun value => .assign value
  | call operator operands tail =>
      refine realized.suspend (Nat.le_succ fuel) fun procedure => ?_
      exact realized.operands frame procedure tail [] operands
  | letIn bindings body =>
      exact .onStore (·.child frame) fun inner => realized.bindings body frame inner bindings
  | letrec bindings body =>
      exact .onStore (·.child frame) fun inner =>
        predefine inner bindings (realized.bindings body inner inner bindings)
  | loop varying test result commands =>
      exact .onStore (·.child frame) fun inner =>
        realized.loopInits inner (realized.rounds _ fuel (Nat.le_refl fuel) inner) varying
  | cond items => exact realized.clauses frame items
  | conjunction tests => exact realized.conjunction frame tests
  | disjunction tests => exact realized.disjunction frame tests

/-- The machine follows the evaluator, with as many steps as that has fuel. -/
theorem within (fuel : Nat) : Realized fuel (Evaluator.within fuel) := by
  induction fuel with
  | zero => exact fun code frame scene => ⟨0, fun limit machine _ => .unfinished rfl⟩
  | succ fuel induction =>
      intro code frame scene
      rcases induction.expression frame code scene with ⟨room, agrees⟩
      refine ⟨room, ?_⟩
      intro limit machine atScene
      -- The first step starts on the node, and the rest of the fuel is for its parts.
      have observed := agrees limit
        { machine with world := machine.world.observe machine.depth code.kind }
        ((World.scene_observe _ _ _).trans atScene)
      exact .of_step (.refl limit _) (Nat.le_refl _) observed.of_world

end Realized

/-! ## Runs -/

/-- The outcome of a run that does not run out of depth is that of the evaluation. -/
theorem World.evaluates_of_run {world : World} {limit fuel : Nat} {code : Node}
    {frame : FrameId} {outcome : Except RunError Value} {after : World}
    (ended : world.run limit fuel code frame = some (outcome, after))
    (inDepth : outcome ≠ .error .tooDeep) :
    Evaluates frame code world.scene outcome after.scene := by
  rcases Realized.within fuel code frame world.scene with ⟨room, agrees⟩
  rw [World.run_eq_finish, World.start] at ended
  split at ended
  · exact ⟨fuel, (agrees limit ⟨world, [], 1⟩ rfl).eq_of_finish ended inDepth⟩
  · cases ended
    exact absurd rfl inDepth

/-- With enough room, the run ends as the evaluation does. -/
theorem World.run_of_evaluates (world : World) {code : Node} {frame : FrameId}
    {outcome : Except RunError Value} {after : Scene}
    (evaluates : Evaluates frame code world.scene outcome after) :
    ∃ least, ∀ limit, least ≤ limit →
      ∃ fuel final, world.run limit fuel code frame = some (outcome, final) ∧
        final.scene = after := by
  rcases evaluates with ⟨fuel, evaluated⟩
  rcases Realized.within fuel code frame world.scene with ⟨room, agrees⟩
  refine ⟨1 + room, ?_⟩
  intro limit enough
  have positive : 0 < limit := by omega
  simp only [World.run_eq_finish, World.start, if_pos positive]
  exact (agrees limit ⟨world, [], 1⟩ rfl).finish_of_eq evaluated enough

/-- An evaluation has one end at most, whatever fuel it is given. -/
theorem Evaluates.unique {frame : FrameId} {code : Node} {before after final : Scene}
    {outcome other : Except RunError Value} (one : Evaluates frame code before outcome after)
    (two : Evaluates frame code before other final) : outcome = other ∧ after = final := by
  let world : World := { World.ofStore before.store with output := before.output }
  rcases world.run_of_evaluates one with ⟨least, ends⟩
  rcases world.run_of_evaluates two with ⟨enough, endsToo⟩
  rcases ends (max least enough) (Nat.le_max_left least enough) with ⟨fuel, _, ended, rfl⟩
  rcases endsToo (max least enough) (Nat.le_max_right least enough) with ⟨steps, _, endedToo, rfl⟩
  rw [World.run_eq_finish] at ended endedToo
  cases Progress.finish_unique ended endedToo
  exact ⟨rfl, rfl⟩

/-- A run that ends without having run out of depth has the outcome of the
evaluation by plain recursion, and leaves the same frames and the same text. If
that evaluation ends, so do the runs under every limit that is large enough, and
it ends in one way only. -/
theorem run_adequate (world : World) (code : Node) (frame : FrameId) :
    (∀ limit fuel outcome after,
      world.run limit fuel code frame = some (outcome, after) → outcome ≠ .error .tooDeep →
        Evaluates frame code world.scene outcome after.scene) ∧
    (∀ outcome after, Evaluates frame code world.scene outcome after →
      (∃ least, ∀ limit, least ≤ limit →
        ∃ fuel final, world.run limit fuel code frame = some (outcome, final) ∧
          final.scene = after) ∧
      ∀ other final, Evaluates frame code world.scene other final →
        outcome = other ∧ after = final) := by
  constructor
  · intro limit fuel outcome after ended inDepth
    exact World.evaluates_of_run ended inDepth
  · intro outcome after evaluates
    exact ⟨world.run_of_evaluates evaluates, fun other final => evaluates.unique⟩

/-- `((lambda (x) (display x)) #t)` -/
def showTrue : Node :=
  .call (.lambda none ⟨[⟨"x"⟩], none⟩ (.call (.variable ⟨"display"⟩) [.variable ⟨"x"⟩] true))
    [.literal (.boolean true)] true

/-- The run under the limit 2 ends, so the evaluation does, and so do the runs under
all limits that are large enough. -/
theorem run_adequate_showTrue :
    ∃ after, Evaluates 0 showTrue (World.ofStore .standard).scene (.ok .nil) after ∧
      after.output = "#t" ∧
      ∃ least, ∀ limit, least ≤ limit → ∃ fuel final,
        (World.ofStore .standard).run limit fuel showTrue 0 = some (.ok .nil, final) ∧
          final.scene = after := by
  have short : ((World.ofStore .standard).run 2 20 showTrue 0).map
      (fun answer => (answer.1, answer.2.output)) = some (.ok .nil, "#t") := by
    cbv
  rcases Option.map_eq_some_iff.mp short with ⟨⟨_, after⟩, ended, equal⟩
  rcases Prod.mk.inj equal with ⟨rfl, written⟩
  have adequate := run_adequate (World.ofStore .standard) showTrue 0
  have evaluates := adequate.1 2 20 _ after ended (by simp)
  exact ⟨after.scene, evaluates, written, (adequate.2 _ _ evaluates).1⟩

end SmallScheme
