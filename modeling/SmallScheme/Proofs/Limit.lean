import Mathlib
import SmallScheme.Proofs.Moves

namespace SmallScheme

/-! # What the limit does

The limit can only end a run early. A step under a smaller limit is the step under
a larger one, or it ends the run where that step goes on; and what has been written
by then is never taken back. -/

/-! ## Output -/

namespace World

/-- Everything that was written before still is. -/
def Extends (before after : World) : Prop :=
  ∃ text, after.output = before.output ++ text

namespace Extends

theorem of_eq {before after : World} (equal : after.output = before.output) :
    before.Extends after :=
  ⟨"", by rw [equal, String.append_empty]⟩

theorem trans {first second third : World} (one : first.Extends second)
    (two : second.Extends third) : first.Extends third := by
  rcases one with ⟨text, one⟩
  rcases two with ⟨more, two⟩
  exact ⟨text ++ more, by rw [two, one, String.append_assoc]⟩

end Extends

theorem output_record (world : World) (record : Record) :
    (world.record record).output = world.output := by
  unfold World.record
  split <;> rfl

theorem Change.extends {before after : World} (change : Change before after) :
    before.Extends after := by
  cases change with
  | record record => exact .of_eq (output_record _ record)
  | observe depth kind => exact .of_eq (output_record _ _)
  | child parent => exact .of_eq rfl
  | define frame name value => exact .of_eq rfl
  | close name formals body frame => exact .of_eq rfl
  | bindArguments formals parent arguments => exact .of_eq rfl
  | answer answer => exact ⟨answer.output, rfl⟩

theorem Changes.extends {before after : World} (changes : before.Changes after) :
    before.Extends after := by
  induction changes with
  | refl => exact .of_eq rfl
  | tail _ change induction => exact induction.trans change.extends

end World

/-! ## Moves under two limits -/

namespace Progress

/-- The shorter progress is the longer one, or runs out of depth where the longer
one goes on. -/
def Cuts (short long : Progress) : Prop :=
  short = long ∨ short = .ended (.error .tooDeep) long.world

end Progress

open Progress

theorem Move.cuts_make {limit wider : Nat} (le : limit ≤ wider) (machine : Machine)
    (move : Move) : (move.make limit machine).Cuts (move.make wider machine) := by
  cases move with
  | suspend level code frame =>
      by_cases fits : machine.depth < limit
      · have fitsWider : machine.depth < wider := Nat.lt_of_lt_of_le fits le
        simp only [Move.make, Machine.suspend, fits, fitsWider, if_true]
        exact .inl rfl
      · refine .inr ?_
        rw [world_make]
        exact if_neg fits
  | give value => exact .inl rfl
  | proceed code frame => exact .inl rfl
  | fail error => exact .inl rfl

namespace Machine

theorem Moves.extends {machine : Machine} {course : Nat → Progress}
    (moves : machine.Moves course) (limit : Nat) :
    machine.world.Extends (course limit).world := by
  rcases moves with ⟨world, move, changes, same⟩
  rw [same, Move.world_make]
  exact changes.extends

theorem Moves.cuts {machine : Machine} {course : Nat → Progress}
    (moves : machine.Moves course) {limit wider : Nat} (le : limit ≤ wider) :
    (course limit).Cuts (course wider) := by
  rcases moves with ⟨world, move, _, same⟩
  rw [same, same]
  exact move.cuts_make le _

theorem step_extends (limit : Nat) (machine : Machine) (control : Control) :
    machine.world.Extends (machine.step limit control).world := by
  rcases machine.step_moves control with ⟨base, same, moves⟩ | ⟨value, ended⟩
  · rw [← same]
    exact moves.extends limit
  · rw [ended limit]
    exact .of_eq rfl

theorem step_cuts {limit wider : Nat} (le : limit ≤ wider) (machine : Machine)
    (control : Control) : (machine.step limit control).Cuts (machine.step wider control) := by
  rcases machine.step_moves control with ⟨base, same, moves⟩ | ⟨value, ended⟩
  · exact moves.cuts le
  · exact .inl ((ended limit).trans (ended wider).symm)

end Machine

/-! ## Runs under two limits -/

namespace Progress

theorem finish_extends {limit fuel : Nat} {progress : Progress}
    {outcome : Except RunError Value} {after : World}
    (finished : progress.finish limit fuel = some (outcome, after)) :
    progress.world.Extends after := by
  induction fuel generalizing progress with
  | zero =>
      cases progress with
      | running control machine => cases finished
      | ended =>
          cases finished
          exact .of_eq rfl
  | succ fuel induction =>
      cases progress with
      | running control machine =>
          rw [finish_running, Machine.run_succ] at finished
          exact (machine.step_extends limit control).trans (induction finished)
      | ended =>
          cases finished
          exact .of_eq rfl

/-- Two runs that were the same so far stay the same, until the one under the
smaller limit runs out of depth. -/
theorem finish_cuts {limit wider fuel : Nat} (le : limit ≤ wider) {short long : Progress}
    (cuts : short.Cuts long) {outcome : Except RunError Value} {after : World}
    (finished : short.finish limit fuel = some (outcome, after)) :
    long.finish wider fuel = some (outcome, after) ∨
      outcome = .error .tooDeep ∧
        ∀ {steps other final}, long.finish wider steps = some (other, final) →
          after.Extends final := by
  -- Both runs take their steps together, until the shorter one is cut.
  induction fuel generalizing short long with
  | zero =>
      rcases cuts with rfl | rfl
      · cases short with
        | running control machine => cases finished
        | ended => exact .inl finished
      · cases finished
        exact .inr ⟨rfl, finish_extends⟩
  | succ fuel induction =>
      rcases cuts with rfl | rfl
      · cases short with
        | running control machine =>
            rw [finish_running, Machine.run_succ] at finished
            rcases induction (machine.step_cuts le control) finished with same | ⟨full, writes⟩
            · refine .inl ?_
              rw [finish_running, Machine.run_succ]
              exact same
            · refine .inr ⟨full, fun {steps other final} longer => ?_⟩
              have further := finish_of_le longer (Nat.le_succ steps)
              rw [finish_running, Machine.run_succ] at further
              exact writes further
        | ended => exact .inl finished
      · cases finished
        exact .inr ⟨rfl, finish_extends⟩

end Progress

theorem World.start_cuts (world : World) {limit wider : Nat} (le : limit ≤ wider)
    (code : Node) (frame : FrameId) :
    (world.start limit code frame).Cuts (world.start wider code frame) := by
  by_cases positive : 0 < limit
  · have positiveWider : 0 < wider := Nat.lt_of_lt_of_le positive le
    refine .inl ?_
    rw [World.start, World.start, if_pos positive, if_pos positiveWider]
  · refine .inr ?_
    rw [World.start, if_neg positive, World.start]
    split <;> rfl

theorem World.finish_start_of_le (world : World) {limit wider : Nat} (le : limit ≤ wider)
    (code : Node) (frame : FrameId) {fuel : Nat} {outcome : Except RunError Value}
    {after : World}
    (ended : (world.start limit code frame).finish limit fuel = some (outcome, after))
    (inDepth : outcome ≠ .error .tooDeep) :
    (world.start wider code frame).finish wider fuel = some (outcome, after) :=
  (finish_cuts le (world.start_cuts le code frame) ended).resolve_right fun full => inDepth full.1

/-- A run that ends without running out of depth is the same run under every larger
limit: it has the same outcome and leaves the same world, with its frames, its
output and its counts. A run that does run out of depth has written a first part of
what a run under a larger limit writes, if that ends. -/
theorem run_limit_mono (world : World) (code : Node) (frame : FrameId) {limit wider : Nat}
    (le : limit ≤ wider) {fuel : Nat} {outcome : Except RunError Value} {after : World}
    (ended : world.run limit fuel code frame = some (outcome, after)) :
    (outcome ≠ .error .tooDeep →
      world.run wider fuel code frame = some (outcome, after)) ∧
    (outcome = .error .tooDeep → ∀ steps other final,
      world.run wider steps code frame = some (other, final) →
        ∃ text, final.output = after.output ++ text) := by
  simp only [World.run_eq_finish] at ended ⊢
  rcases finish_cuts le (world.start_cuts le code frame) ended with same | ⟨full, writes⟩
  · refine ⟨fun _ => same, ?_⟩
    intro _ steps other final longer
    cases finish_unique same longer
    exact World.Extends.of_eq rfl
  · exact ⟨fun inDepth => absurd full inDepth, fun _ steps other final longer => writes longer⟩

/-- `(begin (display #t) (display (display (display #t))))` -/
def nestedDisplay : Node :=
  let display (argument : Node) (tail : Bool) : Node :=
    .call (.variable ⟨"display"⟩) [argument] tail
  .sequence [display (.literal (.boolean true)) false,
    display (display (display (.literal (.boolean true)) false) false) true]

/-- Three levels are too few for the inner call, and four are enough. -/
theorem run_limit_mono_nestedDisplay :
    ∃ after final : World,
      (World.ofStore .standard).run 3 60 nestedDisplay 0 = some (.error .tooDeep, after) ∧
      (World.ofStore .standard).run 4 60 nestedDisplay 0 = some (.ok .nil, final) ∧
      (World.ofStore .standard).run 9 60 nestedDisplay 0 = some (.ok .nil, final) ∧
      after.output = "#t" ∧ ∃ text, final.output = after.output ++ text := by
  have short : ((World.ofStore .standard).run 3 60 nestedDisplay 0).map
      (fun answer => (answer.1, answer.2.output)) = some (.error .tooDeep, "#t") := by
    cbv
  have long : ((World.ofStore .standard).run 4 60 nestedDisplay 0).map (·.1) =
      some (.ok .nil) := by
    cbv
  rcases Option.map_eq_some_iff.mp short with ⟨⟨_, after⟩, shortEnded, equal⟩
  rcases Prod.mk.inj equal with ⟨rfl, written⟩
  rcases Option.map_eq_some_iff.mp long with ⟨⟨_, final⟩, longEnded, rfl⟩
  refine ⟨after, final, shortEnded, longEnded, ?_, written, ?_⟩
  · exact (run_limit_mono _ _ _ (by decide) longEnded).1 (by simp)
  · exact (run_limit_mono _ _ _ (by decide) shortEnded).2 rfl _ _ _ longEnded

end SmallScheme
