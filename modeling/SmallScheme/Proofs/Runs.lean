import Mathlib.Logic.Relation
import SmallScheme.Machine.Run

namespace SmallScheme

/-! # Runs and their fuel

A run that ends does not depend on how much fuel is left over, and steps compose:
what a progress leads to has the same end as the progress itself. -/

/-- Steps from a progress until the run ends, `fuel` steps at most. -/
def Progress.finish (limit fuel : Nat) : Progress → Option (Except RunError Value × World)
  | .running control machine => machine.run limit fuel control
  | .ended outcome world => some (outcome, world)

@[simp] theorem Machine.run_zero (limit : Nat) (control : Control) (machine : Machine) :
    machine.run limit 0 control = none := rfl

theorem Machine.run_succ (limit fuel : Nat) (control : Control) (machine : Machine) :
    machine.run limit (fuel + 1) control = (machine.step limit control).finish limit fuel := by
  rw [Machine.run]
  cases machine.step limit control <;> rfl

namespace Progress

@[simp] theorem finish_running (limit fuel : Nat) (control : Control) (machine : Machine) :
    (running control machine).finish limit fuel = machine.run limit fuel control := rfl

@[simp] theorem finish_ended (limit fuel : Nat) (outcome : Except RunError Value)
    (world : World) : (ended outcome world).finish limit fuel = some (outcome, world) := rfl

/-- More fuel keeps an answer. -/
theorem finish_of_le {limit fuel more : Nat} {progress : Progress}
    {answer : Except RunError Value × World}
    (finished : progress.finish limit fuel = some answer) (enough : fuel ≤ more) :
    progress.finish limit more = some answer := by
  induction fuel generalizing progress more with
  | zero =>
      cases progress with
      | running control machine => simp at finished
      | ended outcome world => exact finished
  | succ fuel induction =>
      cases progress with
      | running control machine =>
          obtain ⟨more, rfl⟩ : ∃ less, more = less + 1 := ⟨more - 1, by omega⟩
          rw [finish_running, Machine.run_succ] at finished ⊢
          exact induction finished (by omega)
      | ended outcome world => exact finished

theorem finish_none_of_le {limit fuel less : Nat} {progress : Progress}
    (unfinished : progress.finish limit fuel = none) (fewer : less ≤ fuel) :
    progress.finish limit less = none := by
  cases finished : progress.finish limit less with
  | none => rfl
  | some answer =>
      rw [finish_of_le finished fewer] at unfinished
      exact absurd unfinished (Option.some_ne_none answer)

/-- Two answers of one progress are the same. -/
theorem finish_unique {limit first second : Nat} {progress : Progress}
    {answer other : Except RunError Value × World}
    (one : progress.finish limit first = some answer)
    (two : progress.finish limit second = some other) : answer = other := by
  have left := finish_of_le one (Nat.le_max_left first second)
  have right := finish_of_le two (Nat.le_max_right first second)
  exact Option.some.inj (left.symm.trans right)

/-- The machine gets from one progress to another. -/
def Leads (limit : Nat) (start stop : Progress) : Prop :=
  ∃ count, ∀ fuel, start.finish limit (fuel + count) = stop.finish limit fuel

namespace Leads

theorem refl (limit : Nat) (progress : Progress) : Leads limit progress progress :=
  ⟨0, fun _ => rfl⟩

theorem trans {limit : Nat} {start middle stop : Progress}
    (first : Leads limit start middle) (second : Leads limit middle stop) :
    Leads limit start stop := by
  rcases first with ⟨count, first⟩
  rcases second with ⟨more, second⟩
  refine ⟨more + count, ?_⟩
  intro fuel
  rw [← Nat.add_assoc, first, second]

theorem step (limit : Nat) (control : Control) (machine : Machine) :
    Leads limit (.running control machine) (machine.step limit control) :=
  ⟨1, fun fuel => Machine.run_succ limit fuel control machine⟩

/-- A run that has not ended where it leads to had not ended before. -/
theorem unfinished {limit fuel : Nat} {start stop : Progress}
    (leads : Leads limit start stop) (unfinished : stop.finish limit fuel = none) :
    start.finish limit fuel = none := by
  rcases leads with ⟨count, leads⟩
  exact finish_none_of_le ((leads fuel).trans unfinished) (Nat.le_add_right fuel count)

theorem finish_ended {limit : Nat} {start : Progress} {outcome : Except RunError Value}
    {world : World} (leads : Leads limit start (.ended outcome world)) :
    ∃ fuel, start.finish limit fuel = some (outcome, world) := by
  rcases leads with ⟨count, leads⟩
  exact ⟨0 + count, leads 0⟩

end Leads

/-- What a step makes of a progress. -/
def Steps (limit : Nat) : Progress → Progress → Prop
  | .running control machine, after => after = machine.step limit control
  | .ended .., _ => False

/-- A run gets from one progress to another. -/
abbrev Reaches (limit : Nat) : Progress → Progress → Prop :=
  Relation.ReflTransGen (Steps limit)

theorem reaches_of_finish {limit fuel : Nat} {start : Progress} {outcome : Except RunError Value}
    {world : World} (finished : start.finish limit fuel = some (outcome, world)) :
    Reaches limit start (.ended outcome world) := by
  induction fuel generalizing start with
  | zero =>
      cases start with
      | running control machine => cases finished
      | ended outcome world =>
          cases finished
          exact .refl
  | succ fuel induction =>
      cases start with
      | running control machine =>
          rw [finish_running, Machine.run_succ] at finished
          exact .head rfl (induction finished)
      | ended outcome world =>
          cases finished
          exact .refl

end Progress

/-- Where the run of a program starts. -/
def World.start (world : World) (limit : Nat) (code : Node) (frame : FrameId) : Progress :=
  if 0 < limit then Machine.proceed ⟨world, [], 1⟩ code frame
  else .ended (.error .tooDeep) world

theorem World.run_eq_finish (world : World) (limit fuel : Nat) (code : Node)
    (frame : FrameId) :
    world.run limit fuel code frame = (world.start limit code frame).finish limit fuel := by
  rw [World.run, World.start]
  split <;> rfl

end SmallScheme
