import Mathlib
import SmallScheme.Proofs.Observation
import SmallScheme.Proofs.Turns

namespace SmallScheme

/-! # Counts of steps

The counts of a run tell on which nodes its steps were executed, neither more nor less, also
if the run fails somewhere deep down; and whether steps are counted or recorded makes no
difference to what the run does. -/

/-! ## Tallies -/

namespace Tally

/-- One more step on a node of each kind, one after the other. -/
def addAll (kinds : List Kind) (tally : Tally) : Tally :=
  kinds.foldl (fun tally kind => tally.add kind) tally

theorem addAll_cons (kind : Kind) (kinds : List Kind) (tally : Tally) :
    addAll (kind :: kinds) tally = addAll kinds (tally.add kind) := rfl

theorem addAll_append (kinds more : List Kind) (tally : Tally) :
    addAll (kinds ++ more) tally = addAll more (addAll kinds tally) :=
  List.foldl_append

theorem count_add (kind other : Kind) (tally : Tally) :
    (tally.add kind).count other = tally.count other + [kind].count other := by
  by_cases same : other = kind
  · rw [same, count_add_self, List.count_singleton_self]
  · rw [count_add_of_ne same, List.count_singleton, if_neg (by simpa using Ne.symm same),
      Nat.add_zero]

theorem count_addAll (kinds : List Kind) (tally : Tally) (kind : Kind) :
    (addAll kinds tally).count kind = tally.count kind + kinds.count kind := by
  induction kinds generalizing tally with
  | nil => rfl
  | cons first rest induction =>
      rw [addAll_cons, induction, count_add, Nat.add_assoc, ← List.count_append,
        List.singleton_append]

theorem total_addAll (kinds : List Kind) (tally : Tally) :
    (addAll kinds tally).total = tally.total + kinds.length := by
  induction kinds generalizing tally with
  | nil => rfl
  | cons first rest induction =>
      rw [addAll_cons, induction, total_add, List.length_cons]
      omega

end Tally

/-! ## Steps on nodes -/

/-- The kind of the node on which a step is executed, or none if a value is handed on. -/
def Control.kinds : Control → List Kind
  | .run code _ => [code.kind]
  | .give _ => []

/-- The kinds of the nodes on which a run executes its steps, in the order of the steps. -/
def Machine.executed (limit fuel : Nat) (control : Control) (machine : Machine) : List Kind :=
  match fuel with
  | 0 => []
  | fuel + 1 =>
      control.kinds ++
        match machine.step limit control with
        | .running control machine => executed limit fuel control machine
        | .ended _ _ => []

def World.executed (world : World) (limit fuel : Nat) (code : Node) (frame : FrameId) :
    List Kind :=
  if 0 < limit then Machine.executed limit fuel (.run code frame) ⟨world, [], 1⟩ else []

/-! ## What is noted of a run -/

/-- From one world to another, steps on nodes of the given kinds are counted and recorded,
as far as that is asked for, and no others. -/
structure World.Notes (before : World) (kinds : List Kind) (after : World) : Prop where
  watch : after.watch = before.watch
  tally : after.tally = before.tally.map (Tally.addAll kinds)
  kinds : before.watch = .steps → after.kinds = before.kinds ++ kinds

namespace World

theorem Quiet.notes {before after : World} (quiet : before.Quiet after) :
    before.Notes [] after where
  watch := quiet.watch
  tally := by
    rw [quiet.tally]
    cases before.tally <;> rfl
  kinds _ := by rw [quiet.kinds, List.append_nil]

theorem observe_notes (world : World) (depth : Nat) (kind : Kind) :
    world.Notes [kind] (world.observe depth kind) where
  watch := world.watch_observe depth kind
  tally := world.tally_observe depth kind
  kinds watching := kinds_observe watching depth kind

theorem Notes.trans {first second third : World} {kinds more : List Kind}
    (one : first.Notes kinds second) (two : second.Notes more third) :
    first.Notes (kinds ++ more) third where
  watch := two.watch.trans one.watch
  tally := by
    rw [two.tally, one.tally, Option.map_map]
    congr 1
    funext tally
    exact (Tally.addAll_append kinds more tally).symm
  kinds watching := by
    rw [two.kinds (one.watch.trans watching), one.kinds watching, List.append_assoc]

end World

/-- In a turn no step on a node is noted. -/
theorem World.Turns.quiet {world : World} {depth : Nat} {course : Nat → List Level → Progress}
    (turns : world.Turns depth course) (limit : Nat) (levels : List Level) :
    world.Quiet (course limit levels).world := by
  rcases turns with ⟨after, move, quiet, _, makes⟩
  rw [makes, Move.world_make]
  exact quiet

namespace Machine

/-- A step on a node is noted once, and handing on a value is not. -/
theorem step_notes (limit : Nat) (machine : Machine) (control : Control) :
    machine.world.Notes control.kinds (machine.step limit control).world := by
  rcases machine with ⟨world, levels, depth⟩
  cases control with
  | run code frame =>
      have observed := world.observe_notes depth code.kind
      have executed := (execute_turns (world.observe depth code.kind) depth frame code).quiet
        limit levels
      exact observed.trans executed.notes
  | give value =>
      cases levels with
      | nil => exact (World.Quiet.refl world).notes
      | cons level levels =>
          exact ((resume_turns world (depth - 1) value level).quiet limit levels).notes

/-- What is noted of a whole run, however it ends. -/
theorem run_notes {limit fuel : Nat} {control : Control} {machine : Machine}
    {outcome : Except RunError Value} {after : World}
    (ended : machine.run limit fuel control = some (outcome, after)) :
    machine.world.Notes (machine.executed limit fuel control) after := by
  induction fuel generalizing control machine with
  | zero => cases ended
  | succ fuel induction =>
      have notes := machine.step_notes limit control
      rw [run] at ended
      rw [executed]
      cases stepped : machine.step limit control with
      | running next reached =>
          rw [stepped] at ended notes
          exact notes.trans (induction ended)
      | ended result world =>
          rw [stepped] at ended notes
          cases ended
          rwa [List.append_nil]

/-- On which nodes steps are executed does not depend on who observes them. -/
theorem executed_unobserved (limit fuel : Nat) (control : Control) (machine : Machine) :
    machine.unobserved.executed limit fuel control = machine.executed limit fuel control := by
  induction fuel generalizing control machine with
  | zero => rfl
  | succ fuel induction =>
      rw [executed, executed, step_unobserved]
      cases machine.step limit control with
      | running next reached => exact congrArg (control.kinds ++ ·) (induction next reached)
      | ended outcome world => rfl

end Machine

namespace World

variable {world other : World}

theorem unobserved_eq_of_scene_eq (same : world.scene = other.scene) :
    world.unobserved = other.unobserved := by
  rcases world with ⟨store, output, _, _, _⟩
  rcases other with ⟨otherStore, otherOutput, _, _, _⟩
  cases same
  rfl

theorem run_notes {limit fuel : Nat} {code : Node} {frame : FrameId}
    {outcome : Except RunError Value} {after : World}
    (ended : world.run limit fuel code frame = some (outcome, after)) :
    world.Notes (world.executed limit fuel code frame) after := by
  unfold World.run at ended
  unfold World.executed
  split at ended
  · rename_i positive
    rw [if_pos positive]
    exact Machine.run_notes ended
  · rename_i none
    cases ended
    rw [if_neg none]
    exact (Quiet.refl world).notes

/-- What a run comes to is read off the run that nobody observes. -/
theorem scene_run (world : World) (limit fuel : Nat) (code : Node) (frame : FrameId) :
    (world.run limit fuel code frame).map (fun answer => (answer.1, answer.2.scene)) =
      (world.unobserved.run limit fuel code frame).map
        fun answer => (answer.1, answer.2.scene) := by
  rw [run_unobserved, Option.map_map]
  rfl

theorem executed_unobserved (world : World) (limit fuel : Nat) (code : Node) (frame : FrameId) :
    world.unobserved.executed limit fuel code frame =
      world.executed limit fuel code frame := by
  unfold World.executed
  split
  · exact Machine.executed_unobserved limit fuel (.run code frame) ⟨world, [], 1⟩
  · rfl

end World

/-- What a run comes to, the store and the output that it leaves, and the nodes on which it
executes its steps do not depend on what is counted and recorded, nor on what has been before.
If steps are counted, then however the run ends the count of each kind has grown by the number
of steps on nodes of that kind, and the total by the number of all steps; if steps are
recorded, these are the steps that the records have gained. -/
theorem counts_tell_every_step (world : World) (limit fuel : Nat) (code : Node)
    (frame : FrameId) :
    (∀ other : World, other.scene = world.scene →
      (other.run limit fuel code frame).map (fun answer => (answer.1, answer.2.scene)) =
        (world.run limit fuel code frame).map (fun answer => (answer.1, answer.2.scene)) ∧
      other.executed limit fuel code frame = world.executed limit fuel code frame) ∧
    ∀ outcome after, world.run limit fuel code frame = some (outcome, after) →
      (world.tally = none → after.tally = none) ∧
      (∀ tally, world.tally = some tally → ∃ final, after.tally = some final ∧
        (∀ kind, final.count kind =
          tally.count kind + (world.executed limit fuel code frame).count kind) ∧
        final.total = tally.total + (world.executed limit fuel code frame).length) ∧
      (world.watch = .steps →
        after.kinds = world.kinds ++ world.executed limit fuel code frame) := by
  constructor
  · intro other same
    have unobserved := World.unobserved_eq_of_scene_eq same
    constructor
    · rw [other.scene_run, world.scene_run, unobserved]
    · rw [← other.executed_unobserved, ← world.executed_unobserved, unobserved]
  · intro outcome after ended
    have notes := World.run_notes ended
    refine ⟨?_, ?_, notes.kinds⟩
    · intro uncounted
      rw [notes.tally, uncounted, Option.map_none]
    · intro tally counted
      refine ⟨Tally.addAll (world.executed limit fuel code frame) tally, ?_, ?_, ?_⟩
      · rw [notes.tally, counted, Option.map_some]
      · exact Tally.count_addAll _ tally
      · exact Tally.total_addAll _ tally

/-- `(begin #t (if (if (if #t #t) #t) #t))` -/
def testInTest : Node :=
  let yes : Node := .literal (.boolean true)
  .sequence [yes, .branch (.branch (.branch yes yes none) yes none) yes none]

/-- With room for three levels the innermost test fails. The five steps before it are added to
the two that had been counted, and a run that nobody observes fails in the same way. -/
theorem counts_tell_every_step_testInTest :
    let world := { World.ofStore .standard with tally := some [(.literal, 2)], watch := .steps }
    ∃ (after plain : World) (final : Tally),
      world.run 3 20 testInTest 0 = some (.error .tooDeep, after) ∧
      after.tally = some final ∧ final.count .literal = 3 ∧ final.count .branch = 3 ∧
      final.total = 7 ∧ after.kinds = [.sequence, .literal, .branch, .branch, .branch] ∧
      (World.ofStore .standard).run 3 20 testInTest 0 = some (.error .tooDeep, plain) ∧
      plain.scene = after.scene := by
  intro world
  have failed : (world.run 3 20 testInTest 0).map (·.1) = some (.error .tooDeep) := by cbv
  have steps : world.executed 3 20 testInTest 0 =
      [.sequence, .literal, .branch, .branch, .branch] := by cbv
  rcases Option.map_eq_some_iff.mp failed with ⟨⟨_, after⟩, ended, rfl⟩
  rcases counts_tell_every_step world 3 20 testInTest 0 with ⟨passive, complete⟩
  rcases complete _ after ended with ⟨_, counts, records⟩
  rcases counts _ rfl with ⟨final, tallied, each, total⟩
  rcases passive (World.ofStore .standard) rfl with ⟨same, _⟩
  rw [ended] at same
  rcases Option.map_eq_some_iff.mp same with ⟨⟨_, plain⟩, plainEnded, equal⟩
  rcases Prod.mk.inj equal with ⟨rfl, scene⟩
  refine ⟨after, plain, final, ended, tallied, ?_, ?_, ?_, ?_, plainEnded, scene⟩
  · rw [each, steps]
    rfl
  · rw [each, steps]
    rfl
  · rw [total, steps]
    rfl
  · rw [records rfl, steps]
    rfl

end SmallScheme
