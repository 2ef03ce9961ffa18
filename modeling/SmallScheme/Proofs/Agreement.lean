import SmallScheme.Proofs.Evaluator
import SmallScheme.Proofs.Runs

namespace SmallScheme

/-! # Machines that follow evaluations

How a machine under a limit and an evaluation by recursion can go together. From a
common scene, the machine comes to where it hands on the value of the evaluation, or
it fails as the evaluation fails, or neither gets to an end; or the machine runs out
of depth. The last is excused only if the evaluation does not end or if there is not
enough room under the limit, so that one relation serves for both directions: what a
run ends with, and that it ends.

The machine stands anywhere, under whatever levels; what is said of it holds for
each of them. -/

namespace World

/-! Records and counts are no part of the scene. -/

@[simp] theorem scene_record (world : World) (record : Record) :
    (world.record record).scene = world.scene := by
  unfold World.record
  split <;> rfl

@[simp] theorem scene_observe (world : World) (depth : Nat) (kind : Kind) :
    (world.observe depth kind).scene = world.scene :=
  scene_record _ _

end World

open Progress

/-- What the machine does next, when it is known where it stands. -/
abbrev Course := (limit : Nat) → Machine → Progress

/-- From a progress of the machine, under a limit, things go as with the result of an
evaluation. `room` bounds how many levels the machine needs beside those it has, and
`fuel` counts steps that are certain to be too few if there is no result. -/
inductive Agreement (limit room fuel : Nat) (machine : Machine) (progress : Progress) :
    Option (Except RunError Value × Scene) → Prop
  /-- The value is handed to the levels that were there before. -/
  | returns {value : Value} {after : World} :
      Leads limit progress (Machine.give { machine with world := after } value) →
      Agreement limit room fuel machine progress (some (.ok value, after.scene))
  | fails {error : RunError} {after : World} :
      Leads limit progress (.ended (.error error) after) →
      Agreement limit room fuel machine progress (some (.error error, after.scene))
  | unfinished :
      progress.finish limit fuel = none → Agreement limit room fuel machine progress none
  | overflows {result : Option (Except RunError Value × Scene)} {after : World} :
      Leads limit progress (.ended (.error .tooDeep) after) →
      result = none ∨ limit < machine.depth + room →
      Agreement limit room fuel machine progress result

/-- Wherever the machine stands in the scene `before`, the course agrees with the result.
The room does not depend on the limit. -/
def Agrees (fuel : Nat) (course : Course) (before : Scene)
    (result : Option (Except RunError Value × Scene)) : Prop :=
  ∃ room, ∀ limit machine, machine.world.scene = before →
    Agreement limit room fuel machine (course limit machine) result

/-- The machine follows an evaluation, from whatever scene both start. -/
def Follows (fuel : Nat) (course : Course) (action : Evaluation Value) : Prop :=
  ∀ scene, Agrees fuel course scene (action scene)

variable {fuel : Nat}

namespace Agreement

variable {limit room less more rest : Nat} {machine : Machine} {progress : Progress}
  {result : Option (Except RunError Value × Scene)}

theorem weaken (agreement : Agreement limit room fuel machine progress result)
    (wider : room ≤ more) (fewer : less ≤ fuel) :
    Agreement limit more less machine progress result := by
  cases agreement with
  | returns reached => exact .returns reached
  | fails reached => exact .fails reached
  | unfinished notYet => exact .unfinished (finish_none_of_le notYet fewer)
  | overflows reached excuse =>
      exact .overflows reached (excuse.imp_right fun narrow => by omega)

theorem of_world {world : World}
    (agreement : Agreement limit room fuel { machine with world := world } progress result) :
    Agreement limit room fuel machine progress result := by
  cases agreement with
  | returns reached => exact .returns reached
  | fails reached => exact .fails reached
  | unfinished notYet => exact .unfinished notYet
  | overflows reached excuse => exact .overflows reached excuse

/-- A step on the way counts for the fuel. -/
theorem of_step {control : Control} {reached : Machine}
    (leads : Leads limit progress (.running control reached)) (enough : fuel ≤ rest + 1)
    (agreement : Agreement limit room rest machine (reached.step limit control) result) :
    Agreement limit room fuel machine progress result := by
  have later := leads.trans (.step limit control reached)
  cases agreement with
  | returns again => exact .returns (later.trans again)
  | fails again => exact .fails (later.trans again)
  | unfinished notYet =>
      refine .unfinished (finish_none_of_le (leads.unfinished ?_) enough)
      rw [finish_running, Machine.run_succ]
      exact notYet
  | overflows again excuse => exact .overflows (later.trans again) excuse

/-- A value that a level waits for is handed to that level. -/
theorem resume {level : Level} {next : Value → Evaluation Value}
    (agreement : Agreement limit room fuel
      { machine with levels := level :: machine.levels, depth := machine.depth + 1 }
      progress result)
    (enough : fuel ≤ rest + 1)
    (resumed : ∀ value after, result = some (.ok value, after.scene) →
      Agreement limit more rest { machine with world := after }
        (Machine.resume limit { machine with world := after } value level)
        (next value after.scene)) :
    Agreement limit (max (room + 1) more) fuel machine progress
      (Evaluation.andThen next result) := by
  cases agreement with
  | returns reached =>
      have outer := (resumed _ _ rfl).of_world.weaken (Nat.le_max_right (room + 1) more)
        (Nat.le_refl rest)
      exact of_step reached enough outer
  | fails reached => exact .fails reached
  | unfinished notYet => exact .unfinished notYet
  | overflows reached excuse =>
      -- The level itself takes one place of the room.
      refine .overflows reached ?_
      rcases excuse with same | narrow
      · subst same
        exact .inl rfl
      · refine .inr ?_
        dsimp only at narrow
        omega

/-! With no level left, a value that is handed on is the outcome of the run. -/

theorem eq_of_finish {world after : World} {depth : Nat} {outcome : Except RunError Value}
    (agreement : Agreement limit room fuel ⟨world, [], depth⟩ progress result)
    (finished : progress.finish limit fuel = some (outcome, after))
    (inDepth : outcome ≠ .error .tooDeep) : result = some (outcome, after.scene) := by
  cases agreement with
  | returns reached =>
      rcases (reached.trans (.step limit _ _)).finish_ended with ⟨_, other⟩
      cases finish_unique finished other
      rfl
  | fails reached =>
      rcases reached.finish_ended with ⟨_, other⟩
      cases finish_unique finished other
      rfl
  | unfinished notYet =>
      rw [notYet] at finished
      cases finished
  | overflows reached =>
      rcases reached.finish_ended with ⟨_, other⟩
      cases finish_unique finished other
      exact absurd rfl inDepth

theorem finish_of_eq {world : World} {after : Scene} {depth : Nat}
    {outcome : Except RunError Value}
    (agreement : Agreement limit room fuel ⟨world, [], depth⟩ progress result)
    (evaluated : result = some (outcome, after)) (wide : depth + room ≤ limit) :
    ∃ steps final, progress.finish limit steps = some (outcome, final) ∧
      final.scene = after := by
  cases agreement with
  | returns reached =>
      cases evaluated
      rcases (reached.trans (.step limit _ _)).finish_ended with ⟨steps, finished⟩
      exact ⟨steps, _, finished, rfl⟩
  | fails reached =>
      cases evaluated
      rcases reached.finish_ended with ⟨steps, finished⟩
      exact ⟨steps, _, finished, rfl⟩
  | unfinished => cases evaluated
  | overflows reached excuse =>
      rcases excuse with none | narrow
      · rw [none] at evaluated
        cases evaluated
      · exact absurd wide (Nat.not_le_of_lt narrow)

end Agreement

namespace Agrees

variable {course : Course} {before middle : Scene}
  {result : Option (Except RunError Value × Scene)}

theorem of_le {less : Nat} (agrees : Agrees fuel course before result) (fewer : less ≤ fuel) :
    Agrees less course before result := by
  rcases agrees with ⟨room, agrees⟩
  exact ⟨room, fun limit machine atScene =>
    (agrees limit machine atScene).weaken (Nat.le_refl room) fewer⟩

/-- A course that may change the world before it goes on as another one. -/
theorem after {other : Course} (agrees : Agrees fuel course middle result)
    (same : ∀ limit machine, machine.world.scene = before →
      ∃ world : World, world.scene = middle ∧
        other limit machine = course limit { machine with world := world }) :
    Agrees fuel other before result := by
  rcases agrees with ⟨room, agrees⟩
  refine ⟨room, ?_⟩
  intro limit machine atScene
  rcases same limit machine atScene with ⟨world, atMiddle, equal⟩
  rw [equal]
  exact (agrees limit { machine with world := world } atMiddle).of_world

theorem congr {other : Course} (agrees : Agrees fuel course before result)
    (same : ∀ limit machine, machine.world.scene = before →
      other limit machine = course limit machine) :
    Agrees fuel other before result :=
  agrees.after fun limit machine atScene => ⟨machine.world, atScene, same limit machine atScene⟩

end Agrees

/-! ## One action after the other -/

namespace Follows

variable {α : Type} {course : Course}

theorem give (value : Value) :
    Follows fuel (fun _ machine => machine.give value) (pure value) := by
  intro scene
  refine ⟨0, ?_⟩
  intro limit machine atScene
  subst atScene
  exact .returns (.refl limit _)

theorem fail (error : RunError) :
    Follows fuel (fun _ machine => machine.fail error) (throw error) := by
  intro scene
  refine ⟨0, ?_⟩
  intro limit machine atScene
  subst atScene
  exact .fails (.refl limit _)

theorem onStore (action : Store → α × Store) {courses : α → Course}
    {next : α → Evaluation Value}
    (follows : ∀ result, Follows fuel (courses result) (next result)) :
    Follows fuel
      (fun limit machine =>
        courses (action machine.world.store).1 limit
          { machine with world :=
            { machine.world with store := (action machine.world.store).2 } })
      (Evaluation.onStore action >>= next) := by
  intro scene
  rw [Evaluation.bind_apply, Evaluation.onStore_apply, Evaluation.andThen_ok]
  apply (follows (action scene.store).1 _).after
  intro limit machine atScene
  subst atScene
  exact ⟨{ machine.world with store := (action machine.world.store).2 }, rfl, rfl⟩

theorem define {frame : FrameId} {name : Symbol} {value : Value} {next : Evaluation Value}
    (follows : Follows fuel course next) :
    Follows fuel
      (fun limit machine =>
        course limit { machine with world := machine.world.define frame name value })
      (Evaluation.define frame name value >>= fun _ => next) :=
  onStore (fun store => ((), store.define frame name value)) fun _ => follows

theorem branch {condition : Bool} {yes no : Course} {ifTrue ifFalse : Evaluation Value}
    (followsYes : Follows fuel yes ifTrue) (followsNo : Follows fuel no ifFalse) :
    Follows fuel (fun limit machine => if condition then yes limit machine else no limit machine)
      (if condition then ifTrue else ifFalse) := by
  cases condition with
  | false => exact followsNo
  | true => exact followsYes

theorem lookup {frame : FrameId} {name : Symbol} {courses : Value → Course}
    {next : Value → Evaluation Value}
    (follows : ∀ value, Follows fuel (courses value) (next value))
    (bound : ∀ limit machine value, machine.world.store.get? frame name = some value →
      course limit machine = courses value limit machine)
    (unbound : ∀ limit machine, machine.world.store.get? frame name = none →
      course limit machine = machine.fail (.unbound name)) :
    Follows fuel course (Evaluation.lookup frame name >>= next) := by
  intro scene
  rw [Evaluation.bind_apply, Evaluation.lookup_apply]
  cases found : scene.store.get? frame name with
  | some value =>
      apply (follows value scene).congr
      intro limit machine atScene
      subst atScene
      exact bound limit machine value found
  | none =>
      apply (fail (.unbound name) scene).congr
      intro limit machine atScene
      subst atScene
      exact unbound limit machine found

theorem assign {frame : FrameId} {name : Symbol} (value : Value) :
    Follows fuel (fun limit machine => machine.resume limit value (.assign name frame))
      (Evaluation.assign frame name value >>= fun _ => pure value) := by
  intro scene
  rw [Evaluation.bind_apply, Evaluation.assign_apply, Store.assign?]
  cases found : scene.store.nearest? name frame with
  | some nearest =>
      apply (give value _).after
      intro limit machine atScene
      subst atScene
      refine ⟨machine.world.define nearest name value, rfl, ?_⟩
      have here : machine.world.store.nearest? name frame = some nearest := found
      simp only [Machine.resume, here]
  | none =>
      apply (fail (.unbound name) scene).congr
      intro limit machine atScene
      subst atScene
      have here : machine.world.store.nearest? name frame = none := found
      simp only [Machine.resume, here]

end Follows

end SmallScheme
