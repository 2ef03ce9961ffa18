import SmallScheme.Machine.Step

namespace SmallScheme

/-! Whole runs of the machine. -/

/-- Steps until the run ends, `fuel` steps at most. -/
def Machine.run (limit fuel : Nat) (control : Control) (machine : Machine) :
    Option (Except RunError Value × World) :=
  match fuel with
  | 0 => none
  | fuel + 1 =>
      match machine.step limit control with
      | .running control machine => run limit fuel control machine
      | .ended outcome world => some (outcome, world)

/-- Evaluates a program in a frame. The result is the outcome and the world after
it, or nothing if the run does not end within `fuel` steps. -/
def World.run (world : World) (limit fuel : Nat) (code : Node) (frame : FrameId) :
    Option (Except RunError Value × World) :=
  if 0 < limit then Machine.run limit fuel (.run code frame) ⟨world, [], 1⟩
  else some (.error .tooDeep, world)

end SmallScheme
