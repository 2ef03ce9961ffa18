import SmallScheme.Proofs.Turns

namespace SmallScheme

/-! # Metered evaluation

The machine as a recursion with a counter: an evaluation counts one level up, executes steps
until it has a value or fails, and counts one level down again. A step in tail position
follows in the place of the step before it; every other expression that a step needs is
evaluated on the way, by an evaluation of its own.

A log tells of all that happens to the counter. Every run of the machine is such an
evaluation from depth 0, and every such evaluation is a run. -/

/-- The world during an evaluation, and the counter of its depth. -/
structure Meter where
  world : World
  depth : Nat

inductive Event where
  /-- An evaluation is asked for. -/
  | request (depth : Nat)
  /-- A step on a node is executed. -/
  | step (depth : Nat)
  deriving DecidableEq

/-- The depths of the steps in a log. -/
def Event.depths (log : List Event) : List Nat :=
  log.filterMap fun
    | .step depth => some depth
    | .request _ => none

/-! ## Turns and moves -/

/-- What the machine can do in one turn. -/
inductive Turn where
  | start (code : Node) (frame : FrameId)
  | resume (value : Value) (level : Level)

namespace Turn

def take (limit : Nat) (machine : Machine) : Turn → Progress
  | .start code frame => machine.execute limit frame code
  | .resume value level => machine.resume limit value level

/-- The turn comes to the move, in the world `after`. -/
def Makes (turn : Turn) (meter : Meter) (move : Move) (after : World) : Prop :=
  ∀ limit levels, turn.take limit ⟨meter.world, levels, meter.depth⟩ =
    move.make limit ⟨after, levels, meter.depth⟩

theorem exists_makes (turn : Turn) (meter : Meter) :
    ∃ move after, turn.Makes meter move after ∧ meter.world.Quiet after ∧
      move ≠ .fail .tooDeep := by
  have turns : meter.world.Turns meter.depth fun limit levels =>
      turn.take limit ⟨meter.world, levels, meter.depth⟩ := by
    cases turn with
    | start code frame => exact Machine.execute_turns meter.world meter.depth frame code
    | resume value level => exact Machine.resume_turns meter.world meter.depth value level
  obtain ⟨after, move, quiet, inDepth, makes⟩ := turns
  exact ⟨move, after, makes, quiet, inDepth⟩

end Turn

/-- With room for a level, different moves from different worlds do not look alike. -/
theorem Move.make_inj {move other : Move} {world after : World} {depth : Nat}
    (same : move.make (depth + 1) ⟨world, [], depth⟩ =
      other.make (depth + 1) ⟨after, [], depth⟩) :
    move = other ∧ world = after := by
  cases move <;> cases other <;>
    simp_all [Move.make, Machine.give, Machine.proceed, Machine.suspend, Machine.fail]

namespace Turn

variable {turn : Turn} {meter : Meter} {move other : Move} {world after : World}

theorem Makes.unique (one : turn.Makes meter move world) (two : turn.Makes meter other after) :
    move = other ∧ world = after :=
  Move.make_inj ((one _ _).symm.trans (two _ _))

theorem Makes.quiet (makes : turn.Makes meter move world) : meter.world.Quiet world := by
  obtain ⟨_, _, made, quiet, _⟩ := turn.exists_makes meter
  rwa [(makes.unique made).2]

theorem Makes.inDepth (makes : turn.Makes meter move world) : move ≠ .fail .tooDeep := by
  obtain ⟨_, _, made, _, inDepth⟩ := turn.exists_makes meter
  rwa [(makes.unique made).1]

end Turn

/-! ## Evaluations -/

/-- How a step ends: with an outcome, or with an expression in its place. -/
inductive Ending where
  | done (outcome : Except RunError Value)
  | bounce (code : Node) (frame : FrameId)

namespace Meter

def enter (meter : Meter) : Meter :=
  { meter with depth := meter.depth + 1 }

def leave (meter : Meter) : Meter :=
  { meter with depth := meter.depth - 1 }

def observe (meter : Meter) (kind : Kind) : Meter :=
  { meter with world := meter.world.observe meter.depth kind }

mutual

/-- An evaluation. If the limit leaves room for it, the counter goes up before its steps and
down again behind them, whatever they come to. -/
inductive Evaluates (limit : Nat) :
    Meter → Node → FrameId → List Event → Except RunError Value → Meter → Prop
  | refused {meter : Meter} {code : Node} {frame : FrameId} :
      ¬ meter.depth < limit →
      Evaluates limit meter code frame [.request meter.depth] (.error .tooDeep) meter
  | made {meter after : Meter} {code : Node} {frame : FrameId} {steps : List Nat}
      {log : List Event} {outcome : Except RunError Value} :
      meter.depth < limit → Bounces limit meter.enter code frame steps log outcome after →
      Evaluates limit meter code frame (.request meter.depth :: log) outcome after.leave

/-- The steps of one evaluation, each in the place of the one before. The depths at which
they are executed are in `steps`, without those of the evaluations in between. -/
inductive Bounces (limit : Nat) :
    Meter → Node → FrameId → List Nat → List Event → Except RunError Value → Meter → Prop
  | last {meter after : Meter} {code : Node} {frame : FrameId} {log : List Event}
      {outcome : Except RunError Value} :
      Acts limit (meter.observe code.kind) (.start code frame) log (.done outcome) after →
      Bounces limit meter code frame [meter.depth] (.step meter.depth :: log) outcome after
  | next {meter middle after : Meter} {code next : Node} {frame place : FrameId}
      {steps : List Nat} {log more : List Event} {outcome : Except RunError Value} :
      Acts limit (meter.observe code.kind) (.start code frame) log (.bounce next place) middle →
      Bounces limit middle next place steps more outcome after →
      Bounces limit meter code frame (meter.depth :: steps)
        (.step meter.depth :: (log ++ more)) outcome after

/-- One step from some turn on, with the evaluations that it needs. The first of them that
fails ends the step. -/
inductive Acts (limit : Nat) : Meter → Turn → List Event → Ending → Meter → Prop
  | gives {meter : Meter} {turn : Turn} {world : World} {value : Value} :
      turn.Makes meter (.give value) world →
      Acts limit meter turn [] (.done (.ok value)) ⟨world, meter.depth⟩
  | fails {meter : Meter} {turn : Turn} {world : World} {error : RunError} :
      turn.Makes meter (.fail error) world →
      Acts limit meter turn [] (.done (.error error)) ⟨world, meter.depth⟩
  | proceeds {meter : Meter} {turn : Turn} {world : World} {code : Node} {frame : FrameId} :
      turn.Makes meter (.proceed code frame) world →
      Acts limit meter turn [] (.bounce code frame) ⟨world, meter.depth⟩
  | resumes {meter middle after : Meter} {turn : Turn} {world : World} {level : Level}
      {code : Node} {frame : FrameId} {value : Value} {log more : List Event} {ending : Ending} :
      turn.Makes meter (.suspend level code frame) world →
      Evaluates limit ⟨world, meter.depth⟩ code frame log (.ok value) middle →
      Acts limit middle (.resume value level) more ending after →
      Acts limit meter turn (log ++ more) ending after
  | stops {meter after : Meter} {turn : Turn} {world : World} {level : Level} {code : Node}
      {frame : FrameId} {error : RunError} {log : List Event} :
      turn.Makes meter (.suspend level code frame) world →
      Evaluates limit ⟨world, meter.depth⟩ code frame log (.error error) after →
      Acts limit meter turn log (.done (.error error)) after

end

variable {limit : Nat}

/-! ## The counter -/

mutual

/-- An evaluation leaves the counter as it was, whether it has a value or fails. -/
theorem Evaluates.depth_eq {meter after : Meter} {code : Node} {frame : FrameId}
    {log : List Event} {outcome : Except RunError Value} :
    Evaluates limit meter code frame log outcome after → after.depth = meter.depth
  | .refused _ => rfl
  | .made _ bounces => congrArg (· - 1) bounces.depth_eq

theorem Bounces.depth_eq {meter after : Meter} {code : Node} {frame : FrameId}
    {steps : List Nat} {log : List Event} {outcome : Except RunError Value} :
    Bounces limit meter code frame steps log outcome after → after.depth = meter.depth
  | .last acts => acts.depth_eq
  | .next acts bounces => bounces.depth_eq.trans acts.depth_eq

theorem Acts.depth_eq {meter after : Meter} {turn : Turn} {log : List Event} {ending : Ending} :
    Acts limit meter turn log ending after → after.depth = meter.depth
  | .gives _ => rfl
  | .fails _ => rfl
  | .proceeds _ => rfl
  | .resumes _ evaluates acts => acts.depth_eq.trans evaluates.depth_eq
  | .stops _ evaluates => evaluates.depth_eq

end

theorem Bounces.enter_leave {meter after : Meter} {code : Node} {frame : FrameId}
    {steps : List Nat} {log : List Event} {outcome : Except RunError Value}
    (bounces : Bounces limit meter.enter code frame steps log outcome after) :
    after.leave.enter = after := by
  have depth : after.depth = meter.depth + 1 := bounces.depth_eq
  rcases after with ⟨world, _⟩
  cases depth
  rfl

/-- All steps of one evaluation are executed at the same depth. -/
theorem Bounces.steps_eq {meter after : Meter} {code : Node} {frame : FrameId}
    {steps : List Nat} {log : List Event} {outcome : Except RunError Value} :
    Bounces limit meter code frame steps log outcome after →
      ∀ depth ∈ steps, depth = meter.depth
  | .last _ => by simp
  | .next acts bounces => by
      have others := bounces.steps_eq
      rw [acts.depth_eq] at others
      exact List.forall_mem_cons.mpr ⟨rfl, others⟩

/-! ## Evaluations and runs -/

end Meter

/-- Where the machine stands behind a step, above the given levels. -/
def Ending.progress (meter : Meter) (levels : List Level) : Ending → Progress
  | .done (.ok value) => Machine.give ⟨meter.world, levels, meter.depth⟩ value
  | .done (.error error) => .ended (.error error) meter.world
  | .bounce code frame => Machine.proceed ⟨meter.world, levels, meter.depth⟩ code frame

namespace Meter

open Progress (Leads)

variable {limit : Nat}

/-- A step on a node is observed, and then the node is started on. -/
theorem proceed_leads (limit : Nat) (meter : Meter) (levels : List Level) (code : Node)
    (frame : FrameId) :
    Leads limit (Machine.proceed ⟨meter.world, levels, meter.depth⟩ code frame)
      (Turn.take limit ⟨(meter.observe code.kind).world, levels, meter.depth⟩
        (.start code frame)) :=
  .step limit (.run code frame) ⟨meter.world, levels, meter.depth⟩

/-- With no level waiting, what an evaluation comes to is what the run comes to. -/
theorem done_leads (limit : Nat) (meter : Meter) (outcome : Except RunError Value) :
    Leads limit ((Ending.done outcome).progress meter []) (.ended outcome meter.world) := by
  cases outcome with
  | error error => exact .refl limit _
  | ok value => exact .step limit (.give value) ⟨meter.world, [], meter.depth⟩

/-- A value is handed to the level that waits for it. -/
theorem give_leads (limit : Nat) (meter : Meter) (level : Level) (levels : List Level)
    (value : Value) :
    Leads limit ((Ending.done (.ok value)).progress meter.enter (level :: levels))
      (Turn.take limit ⟨meter.world, levels, meter.depth⟩ (.resume value level)) :=
  .step limit (.give value) ⟨meter.world, level :: levels, meter.depth + 1⟩

mutual

/-- The machine comes to what an evaluation comes to, from where it is asked for. -/
theorem Evaluates.leads {meter after : Meter} {code : Node} {frame : FrameId}
    {log : List Event} {outcome : Except RunError Value} (level : Level) (levels : List Level) :
    Evaluates limit meter code frame log outcome after →
    Leads limit (Machine.suspend limit ⟨meter.world, levels, meter.depth⟩ level code frame)
      ((Ending.done outcome).progress after.enter (level :: levels))
  | .refused full => by
      rw [Machine.suspend, if_neg full]
      exact .refl limit _
  | .made fits bounces => by
      rw [Machine.suspend, if_pos fits, bounces.enter_leave]
      exact bounces.leads (level :: levels)

theorem Bounces.leads {meter after : Meter} {code : Node} {frame : FrameId}
    {steps : List Nat} {log : List Event} {outcome : Except RunError Value}
    (levels : List Level) :
    Bounces limit meter code frame steps log outcome after →
    Leads limit (Machine.proceed ⟨meter.world, levels, meter.depth⟩ code frame)
      ((Ending.done outcome).progress after levels)
  | .last acts => (proceed_leads limit meter levels code frame).trans (acts.leads levels)
  | .next acts bounces =>
      ((proceed_leads limit meter levels code frame).trans (acts.leads levels)).trans
        (bounces.leads levels)

theorem Acts.leads {meter after : Meter} {turn : Turn} {log : List Event} {ending : Ending}
    (levels : List Level) :
    Acts limit meter turn log ending after →
    Leads limit (turn.take limit ⟨meter.world, levels, meter.depth⟩)
      (ending.progress after levels)
  | .gives makes => by
      rw [makes]
      exact .refl limit _
  | .fails makes => by
      rw [makes]
      exact .refl limit _
  | .proceeds makes => by
      rw [makes]
      exact .refl limit _
  | @Acts.resumes _ _ middle _ _ _ level _ _ value _ _ _ makes evaluates acts => by
      rw [makes]
      have returned := evaluates.leads level levels
      have resumed := returned.trans (give_leads limit middle level levels value)
      exact resumed.trans (acts.leads levels)
  | .stops makes evaluates => by
      rw [makes]
      exact evaluates.leads _ levels

end

/-! The other way round, a run that ends within some fuel is taken apart: into the steps of
an evaluation and what the run does with their outcome. -/

/-- Runs from an expression that end within the fuel start with an evaluation of it. -/
def BouncesWithin (limit fuel : Nat) : Prop :=
  ∀ (meter : Meter) {code : Node} {frame : FrameId} {levels : List Level}
    {answer : Except RunError Value × World},
    (Machine.proceed ⟨meter.world, levels, meter.depth⟩ code frame).finish limit fuel =
      some answer →
    ∃ steps log outcome after, Bounces limit meter code frame steps log outcome after ∧
      ∃ less < fuel, ((Ending.done outcome).progress after levels).finish limit less = some answer

/-- Runs from a turn that end within the fuel start with the rest of a step. -/
def ActsWithin (limit fuel : Nat) : Prop :=
  ∀ (meter : Meter) {turn : Turn} {levels : List Level}
    {answer : Except RunError Value × World},
    (turn.take limit ⟨meter.world, levels, meter.depth⟩).finish limit fuel = some answer →
    ∃ log ending after, Acts limit meter turn log ending after ∧
      ∃ less ≤ fuel, (ending.progress after levels).finish limit less = some answer

theorem BouncesWithin.of_less {fuel : Nat} (bounces : ∀ less < fuel, BouncesWithin limit less)
    (acts : ∀ less < fuel, ActsWithin limit less) : BouncesWithin limit fuel := by
  intro meter code frame levels answer finished
  cases fuel with
  | zero => cases finished
  | succ fuel =>
      have stepped : (Turn.take limit ⟨(meter.observe code.kind).world, levels, meter.depth⟩
          (.start code frame)).finish limit fuel = some answer := by
        rw [← finished, Machine.proceed, Progress.finish_running, Machine.run_succ]
        rfl
      obtain ⟨log, ending, middle, acted, less, fewer, left⟩ :=
        acts fuel (Nat.lt_succ_self fuel) (meter.observe code.kind) stepped
      cases ending with
      | done outcome =>
          exact ⟨_, _, outcome, middle, .last acted, less, Nat.lt_succ_of_le fewer, left⟩
      | bounce next place =>
          obtain ⟨steps, more, outcome, after, bounced, least, fewest, final⟩ :=
            bounces less (Nat.lt_succ_of_le fewer) middle left
          exact ⟨_, _, outcome, after, .next acted bounced, least, by omega, final⟩

theorem ActsWithin.of_less {fuel : Nat} (bounces : BouncesWithin limit fuel)
    (acts : ∀ less < fuel, ActsWithin limit less) : ActsWithin limit fuel := by
  intro meter turn levels answer finished
  obtain ⟨move, world, makes, _, _⟩ := turn.exists_makes meter
  rw [makes] at finished
  cases move with
  | give value => exact ⟨_, _, _, .gives makes, fuel, Nat.le_refl fuel, finished⟩
  | proceed code frame => exact ⟨_, _, _, .proceeds makes, fuel, Nat.le_refl fuel, finished⟩
  | fail error => exact ⟨_, _, _, .fails makes, fuel, Nat.le_refl fuel, finished⟩
  | suspend level code frame =>
      by_cases fits : meter.depth < limit
      · rw [Move.make, Machine.suspend, if_pos fits] at finished
        obtain ⟨steps, log, outcome, after, bounced, less, fewer, left⟩ :=
          bounces (enter ⟨world, meter.depth⟩) finished
        have evaluates : Evaluates limit ⟨world, meter.depth⟩ code frame
            (.request meter.depth :: log) outcome after.leave := .made fits bounced
        cases outcome with
        | error error =>
            exact ⟨_, _, after.leave, .stops makes evaluates, less, Nat.le_of_lt fewer, left⟩
        | ok value =>
            -- The level that was put on the stack takes the value and goes on.
            rw [← bounced.enter_leave] at left
            cases less with
            | zero => cases left
            | succ less =>
                have resumed : (Turn.take limit ⟨after.leave.world, levels, after.leave.depth⟩
                    (.resume value level)).finish limit less = some answer := by
                  rw [← left, Ending.progress, Machine.give, Progress.finish_running,
                    Machine.run_succ]
                  rfl
                obtain ⟨more, ending, last, acted, least, fewest, final⟩ :=
                  acts less (by omega) after.leave resumed
                exact ⟨_, ending, last, .resumes makes evaluates acted, least, by omega, final⟩
      · rw [Move.make, Machine.suspend, if_neg fits] at finished
        have refused : Evaluates limit ⟨world, meter.depth⟩ code frame [.request meter.depth]
            (.error .tooDeep) ⟨world, meter.depth⟩ := .refused fits
        exact ⟨_, _, _, .stops makes refused, fuel, Nat.le_refl fuel, finished⟩

theorem bouncesWithin_and_actsWithin (limit fuel : Nat) :
    BouncesWithin limit fuel ∧ ActsWithin limit fuel := by
  induction fuel using Nat.strongRecOn with
  | ind fuel induction =>
      have bounces := BouncesWithin.of_less (fun less fewer => (induction less fewer).1)
        fun less fewer => (induction less fewer).2
      exact ⟨bounces, .of_less bounces fun less fewer => (induction less fewer).2⟩

end Meter

/-- A run of the machine is a metered evaluation from depth 0. -/
theorem World.exists_run_iff (world : World) (limit : Nat) (code : Node) (frame : FrameId)
    (outcome : Except RunError Value) (after : World) :
    (∃ fuel, world.run limit fuel code frame = some (outcome, after)) ↔
      ∃ log, Meter.Evaluates limit ⟨world, 0⟩ code frame log outcome ⟨after, 0⟩ := by
  simp only [World.run_eq_finish, World.start]
  constructor
  · rintro ⟨fuel, ended⟩
    split at ended
    · rename_i fits
      obtain ⟨steps, log, result, last, bounced, less, _, final⟩ :=
        (Meter.bouncesWithin_and_actsWithin limit fuel).1 ⟨world, 1⟩ ended
      obtain ⟨more, finished⟩ := (Meter.done_leads limit last result).finish_ended
      cases Progress.finish_unique final finished
      have depth : last.leave = ⟨last.world, 0⟩ :=
        congrArg (Meter.mk last.world) (congrArg (· - 1) bounced.depth_eq)
      have made : Meter.Evaluates limit ⟨world, 0⟩ code frame (.request 0 :: log) outcome
          last.leave := .made fits bounced
      rw [depth] at made
      exact ⟨_, made⟩
    · rename_i full
      cases ended
      exact ⟨_, .refused full⟩
  · rintro ⟨log, evaluates⟩
    generalize ended : (⟨after, 0⟩ : Meter) = final at evaluates
    cases evaluates with
    | refused full =>
        cases ended
        rw [if_neg full]
        exact ⟨0, rfl⟩
    | @made _ last _ _ _ _ _ fits bounces =>
        have same : last.world = after := congrArg Meter.world ended.symm
        have leads := (bounces.leads []).trans (Meter.done_leads limit last outcome)
        rw [if_pos fits, ← same]
        exact leads.finish_ended

end SmallScheme
