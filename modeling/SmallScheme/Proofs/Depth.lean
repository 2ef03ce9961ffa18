import Mathlib
import SmallScheme.Proofs.Metered

namespace SmallScheme

/-! # Depths of steps

The depths at which the steps of a run are executed start at 1, go up by at most one level
from step to step and stay within the limit; the run fails for want of depth only where an
evaluation is asked for at the limit itself. -/

/-! ## Climbing -/

/-- Depths that start at the floor, go up by at most one level at a time, and neither come
below the floor nor above the limit. -/
structure Climbs (floor limit : Nat) (depths : List Nat) : Prop where
  first : ∀ depth ∈ depths.head?, depth = floor
  within : ∀ depth ∈ depths, floor ≤ depth ∧ depth ≤ limit
  rises : depths.IsChain fun before after => after ≤ before + 1

namespace Climbs

variable {floor limit : Nat} {depths more : List Nat}

theorem nil (floor limit : Nat) : Climbs floor limit [] :=
  ⟨by simp, by simp, .nil⟩

theorem append (one : Climbs floor limit depths) (two : Climbs floor limit more) :
    Climbs floor limit (depths ++ more) where
  first := by
    cases depths with
    | nil => exact two.first
    | cons depth rest => exact one.first
  within depth inBoth := by
    rcases List.mem_append.mp inBoth with member | member
    · exact one.within depth member
    · exact two.within depth member
  rises := by
    refine List.isChain_append.mpr ⟨one.rises, two.rises, ?_⟩
    intro before isLast after isFirst
    have above := (one.within before (List.mem_of_getLast? isLast)).1
    have bottom := two.first after isFirst
    omega

/-- The floor itself, and what starts one level above it. -/
theorem above (fits : floor ≤ limit) (climbs : Climbs (floor + 1) limit depths) :
    Climbs floor limit (floor :: depths) where
  first := by simp
  within := by
    refine List.forall_mem_cons.mpr ⟨⟨Nat.le_refl floor, fits⟩, ?_⟩
    intro depth member
    have ⟨low, high⟩ := climbs.within depth member
    exact ⟨by omega, high⟩
  rises := by
    refine List.isChain_cons.mpr ⟨?_, climbs.rises⟩
    intro depth isFirst
    exact Nat.le_of_eq (climbs.first depth isFirst)

end Climbs

namespace Event

@[simp] theorem depths_nil : depths [] = [] := rfl

@[simp] theorem depths_step (depth : Nat) (log : List Event) :
    depths (.step depth :: log) = depth :: depths log := rfl

@[simp] theorem depths_append (log more : List Event) :
    depths (log ++ more) = depths log ++ depths more :=
  List.filterMap_append

end Event

namespace Meter

variable {limit : Nat}

mutual

theorem Evaluates.climbs {meter after : Meter} {code : Node} {frame : FrameId}
    {log : List Event} {outcome : Except RunError Value} :
    Evaluates limit meter code frame log outcome after →
      Climbs (meter.depth + 1) limit (Event.depths log)
  | .refused _ => .nil _ _
  | .made fits bounces => bounces.climbs fits

theorem Bounces.climbs {meter after : Meter} {code : Node} {frame : FrameId}
    {steps : List Nat} {log : List Event} {outcome : Except RunError Value} :
    Bounces limit meter code frame steps log outcome after → meter.depth ≤ limit →
      Climbs meter.depth limit (Event.depths log)
  | .last acts, fits => acts.climbs.above fits
  | .next acts bounces, fits => by
      have others := bounces.climbs (acts.depth_eq ▸ fits)
      rw [acts.depth_eq] at others
      rw [Event.depths_step, Event.depths_append]
      exact (acts.climbs.above fits).append others

theorem Acts.climbs {meter after : Meter} {turn : Turn} {log : List Event} {ending : Ending} :
    Acts limit meter turn log ending after →
      Climbs (meter.depth + 1) limit (Event.depths log)
  | .gives _ => .nil _ _
  | .fails _ => .nil _ _
  | .proceeds _ => .nil _ _
  | .resumes _ evaluates acts => by
      have others := acts.climbs
      rw [evaluates.depth_eq] at others
      rw [Event.depths_append]
      exact evaluates.climbs.append others
  | .stops _ evaluates => evaluates.climbs

end

/-- The steps of an evaluation start at its own depth. -/
theorem Bounces.head?_depths {meter after : Meter} {code : Node} {frame : FrameId}
    {steps : List Nat} {log : List Event} {outcome : Except RunError Value}
    (bounces : Bounces limit meter code frame steps log outcome after) :
    (Event.depths log).head? = some meter.depth := by
  cases bounces <;> rfl

/-! ## Running out of depth -/

mutual

/-- Where the depth is used up, an evaluation at the limit is the last that was asked for. -/
theorem Evaluates.getLast?_of_tooDeep {meter after : Meter} {code : Node} {frame : FrameId}
    {log : List Event} {outcome : Except RunError Value} :
    Evaluates limit meter code frame log outcome after → meter.depth ≤ limit →
      outcome = .error .tooDeep → log.getLast? = some (.request limit)
  | .refused full, fits, _ => by
      have atLimit : meter.depth = limit := by omega
      rw [atLimit]
      rfl
  | .made below bounces, _, failed => by
      rw [List.getLast?_cons, bounces.getLast?_of_tooDeep below failed]
      rfl

theorem Bounces.getLast?_of_tooDeep {meter after : Meter} {code : Node} {frame : FrameId}
    {steps : List Nat} {log : List Event} {outcome : Except RunError Value} :
    Bounces limit meter code frame steps log outcome after → meter.depth ≤ limit →
      outcome = .error .tooDeep → log.getLast? = some (.request limit)
  | .last acts, fits, failed => by
      rw [List.getLast?_cons, acts.getLast?_of_tooDeep fits (congrArg Ending.done failed)]
      rfl
  | .next acts bounces, fits, failed => by
      have refused := bounces.getLast?_of_tooDeep (acts.depth_eq ▸ fits) failed
      rw [List.getLast?_cons, List.getLast?_append, refused]
      rfl

theorem Acts.getLast?_of_tooDeep {meter after : Meter} {turn : Turn} {log : List Event}
    {ending : Ending} :
    Acts limit meter turn log ending after → meter.depth ≤ limit →
      ending = .done (.error .tooDeep) → log.getLast? = some (.request limit)
  | .gives _, _, failed => by cases failed
  | .fails makes, _, failed => by
      cases failed
      exact absurd rfl makes.inDepth
  | .proceeds _, _, failed => by cases failed
  | .resumes _ evaluates acts, fits, failed => by
      have refused := acts.getLast?_of_tooDeep (evaluates.depth_eq ▸ fits) failed
      rw [List.getLast?_append, refused]
      rfl
  | .stops _ evaluates, fits, failed =>
      evaluates.getLast?_of_tooDeep fits (Ending.done.inj failed)

end

/-! ## Records -/

/-- The records grow by the steps in the log, if steps are recorded. -/
structure Logs (before : Meter) (log : List Event) (after : Meter) : Prop where
  watch : after.world.watch = before.world.watch
  depths : before.world.watch = .steps →
    after.world.depths = before.world.depths ++ Event.depths log

namespace Logs

theorem of_quiet {meter : Meter} {world : World} (quiet : meter.world.Quiet world)
    (depth : Nat) : Logs meter [] ⟨world, depth⟩ where
  watch := quiet.watch
  depths _ := by rw [quiet.depths, Event.depths_nil, List.append_nil]

theorem trans {first second third : Meter} {log more : List Event} (one : Logs first log second)
    (two : Logs second more third) : Logs first (log ++ more) third where
  watch := two.watch.trans one.watch
  depths watching := by
    rw [two.depths (one.watch.trans watching), one.depths watching, Event.depths_append,
      List.append_assoc]

/-- A step, and what it and those behind it write. -/
theorem observe {meter after : Meter} {kind : Kind} {log : List Event}
    (logs : Logs (meter.observe kind) log after) : Logs meter (.step meter.depth :: log) after where
  watch := logs.watch.trans (meter.world.watch_observe meter.depth kind)
  depths watching := by
    have still : (meter.observe kind).world.watch = .steps :=
      (meter.world.watch_observe meter.depth kind).trans watching
    have observed : (meter.observe kind).world.depths = meter.world.depths ++ [meter.depth] :=
      World.depths_observe watching meter.depth kind
    rw [logs.depths still, observed, Event.depths_step, List.append_assoc, List.singleton_append]

end Logs

mutual

theorem Evaluates.logs {meter after : Meter} {code : Node} {frame : FrameId}
    {log : List Event} {outcome : Except RunError Value} :
    Evaluates limit meter code frame log outcome after → Logs meter log after
  | .refused _ => ⟨rfl, fun _ => (List.append_nil _).symm⟩
  | .made _ bounces => ⟨bounces.logs.watch, bounces.logs.depths⟩

theorem Bounces.logs {meter after : Meter} {code : Node} {frame : FrameId}
    {steps : List Nat} {log : List Event} {outcome : Except RunError Value} :
    Bounces limit meter code frame steps log outcome after → Logs meter log after
  | .last acts => acts.logs.observe
  | .next acts bounces => (acts.logs.trans bounces.logs).observe

theorem Acts.logs {meter after : Meter} {turn : Turn} {log : List Event} {ending : Ending} :
    Acts limit meter turn log ending after → Logs meter log after
  | .gives makes => .of_quiet makes.quiet meter.depth
  | .fails makes => .of_quiet makes.quiet meter.depth
  | .proceeds makes => .of_quiet makes.quiet meter.depth
  | .resumes makes evaluates acts =>
      (Logs.of_quiet makes.quiet meter.depth).trans (evaluates.logs.trans acts.logs)
  | .stops makes evaluates => (Logs.of_quiet makes.quiet meter.depth).trans evaluates.logs

end

end Meter

/-- Every run is an evaluation that is metered from depth 0, and the other way round. The
depths of its steps, which are those in the records, start at 1 if the limit leaves room for
a step at all, rise by at most one from step to step and keep to the limit, and a run that
uses up its depth ends where an evaluation is asked for at the limit. In whatever
evaluation, inside a run or not, the depth behind it is the depth before it, and all its own
steps are executed at one depth. -/
theorem run_depths (world : World) (limit : Nat) (code : Node) (frame : FrameId) :
    (∀ outcome after,
      (∃ fuel, world.run limit fuel code frame = some (outcome, after)) ↔
        ∃ log, Meter.Evaluates limit ⟨world, 0⟩ code frame log outcome ⟨after, 0⟩) ∧
    (∀ log outcome after, Meter.Evaluates limit ⟨world, 0⟩ code frame log outcome after →
      (limit = 0 → Event.depths log = []) ∧
      (0 < limit → (Event.depths log).head? = some 1) ∧
      (∀ depth ∈ Event.depths log, depth ≤ limit) ∧
      (Event.depths log).IsChain (fun before after => after ≤ before + 1) ∧
      (world.watch = .steps → after.world.depths = world.depths ++ Event.depths log) ∧
      (outcome = .error .tooDeep → log.getLast? = some (.request limit))) ∧
    (∀ meter code frame log outcome after,
      Meter.Evaluates limit meter code frame log outcome after → after.depth = meter.depth) ∧
    (∀ meter code frame steps log outcome after,
      Meter.Bounces limit meter code frame steps log outcome after →
        ∀ depth ∈ steps, depth = meter.depth) := by
  refine ⟨world.exists_run_iff limit code frame, ?_, fun _ _ _ _ _ _ => (·.depth_eq),
    fun _ _ _ _ _ _ _ => (·.steps_eq)⟩
  intro log outcome after evaluates
  have climbs := evaluates.climbs
  refine ⟨?_, ?_, fun depth member => (climbs.within depth member).2, climbs.rises,
    evaluates.logs.depths, evaluates.getLast?_of_tooDeep (Nat.zero_le limit)⟩
  · rintro rfl
    apply List.eq_nil_iff_forall_not_mem.mpr
    intro depth member
    have ⟨low, high⟩ := climbs.within depth member
    omega
  · intro positive
    cases evaluates with
    | refused full => exact absurd positive full
    | made _ bounces => exact bounces.head?_depths

/-- `(begin #t (if (if (if #t #t) #t) #t))` -/
def nested : Node :=
  let yes : Node := .literal (.boolean true)
  .sequence [yes, .branch (.branch (.branch yes yes none) yes none) yes none]

/-- The steps go up, down to the tail of the sequence and up again, until there is no room
for the innermost test. -/
theorem run_depths_nested :
    let world := { World.ofStore .standard with watch := .steps }
    ∃ (after : World) (log : List Event),
      (∃ fuel, world.run 3 fuel nested 0 = some (.error .tooDeep, after)) ∧
      Meter.Evaluates 3 ⟨world, 0⟩ nested 0 log (.error .tooDeep) ⟨after, 0⟩ ∧
      Event.depths log = [1, 2, 1, 2, 3] ∧ log.getLast? = some (.request 3) := by
  intro world
  have ran : (world.run 3 20 nested 0).map (fun answer => (answer.1, answer.2.depths)) =
      some (.error .tooDeep, [1, 2, 1, 2, 3]) := by
    cbv
  rcases Option.map_eq_some_iff.mp ran with ⟨⟨outcome, after⟩, ended, equal⟩
  rcases Prod.mk.inj equal with ⟨rfl, depths⟩
  rcases run_depths world 3 nested 0 with ⟨iff, every, _⟩
  rcases (iff _ _).mp ⟨20, ended⟩ with ⟨log, evaluates⟩
  rcases every _ _ _ evaluates with ⟨_, _, _, _, records, overflow⟩
  have recorded : after.depths = Event.depths log := records rfl
  exact ⟨after, log, ⟨20, ended⟩, evaluates, recorded.symm.trans depths, overflow rfl⟩

end SmallScheme
