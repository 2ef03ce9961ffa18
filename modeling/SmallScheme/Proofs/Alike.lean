import SmallScheme.Proofs.Metered
import SmallScheme.Proofs.Observation

namespace SmallScheme

/-! # Expressions that do the same

Two expressions are alike if one can take the place of the other: started on in the same
scene, at the same depth and under any limit, both end with the same outcome in the same
scene, or neither ends. How many steps they take, and on which nodes, is left open; so they
are compared where nobody observes the steps. -/

/-! ## Evaluations that nobody observes -/

theorem Move.make_unobserved (limit : Nat) (machine : Machine) (move : Move) :
    move.make limit machine.unobserved = (move.make limit machine).unobserved := by
  cases move with
  | give value => rfl
  | proceed code frame => rfl
  | suspend level code frame => exact machine.suspend_unobserved limit frame level code
  | fail error => rfl

def Meter.Unobserved (meter : Meter) : Prop :=
  meter.world.unobserved = meter.world

theorem Meter.Unobserved.observe {meter : Meter} (unobserved : meter.Unobserved) (kind : Kind) :
    meter.observe kind = meter := by
  have same : meter.world.observe meter.depth kind = meter.world := by
    rw [← unobserved]
    exact meter.world.observe_unobserved meter.depth kind
  exact congrArg (fun world => Meter.mk world meter.depth) same

theorem Meter.Unobserved.observed {meter : Meter} (unobserved : meter.Unobserved) (kind : Kind) :
    (meter.observe kind).Unobserved := by
  rw [unobserved.observe]
  exact unobserved

namespace Turn

variable {turn : Turn} {meter : Meter} {move : Move} {world : World}

theorem take_unobserved (limit : Nat) (machine : Machine) (turn : Turn) :
    turn.take limit machine.unobserved = (turn.take limit machine).unobserved := by
  cases turn with
  | start code frame => exact machine.execute_unobserved limit frame code
  | resume value level => exact machine.resume_unobserved limit value level

/-- Nobody starts to observe during a turn. -/
theorem Makes.unobserved (makes : turn.Makes meter move world) (unobserved : meter.Unobserved) :
    Meter.Unobserved ⟨world, meter.depth⟩ := by
  have taken := turn.take_unobserved (meter.depth + 1) ⟨meter.world, [], meter.depth⟩
  have same : Machine.unobserved ⟨meter.world, [], meter.depth⟩ =
      ⟨meter.world, [], meter.depth⟩ :=
    congrArg (fun world => Machine.mk world [] meter.depth) unobserved
  rw [same, makes, ← Move.make_unobserved] at taken
  exact (Move.make_inj taken).2.symm

end Turn

namespace Meter

variable {limit : Nat}

mutual

/-- Nor does anybody during an evaluation. -/
theorem Evaluates.unobserved {meter after : Meter} {code : Node} {frame : FrameId}
    {log : List Event} {outcome : Except RunError Value} (unobserved : meter.Unobserved) :
    Evaluates limit meter code frame log outcome after → after.Unobserved
  | .refused _ => unobserved
  | .made _ bounces => by
      have entered : meter.enter.Unobserved := unobserved
      have left := bounces.unobserved entered
      exact left

theorem Bounces.unobserved {meter after : Meter} {code : Node} {frame : FrameId}
    {steps : List Nat} {log : List Event} {outcome : Except RunError Value}
    (unobserved : meter.Unobserved) :
    Bounces limit meter code frame steps log outcome after → after.Unobserved
  | .last acts => acts.unobserved (unobserved.observed code.kind)
  | .next acts bounces => bounces.unobserved (acts.unobserved (unobserved.observed code.kind))

theorem Acts.unobserved {meter after : Meter} {turn : Turn} {log : List Event} {ending : Ending}
    (unobserved : meter.Unobserved) : Acts limit meter turn log ending after → after.Unobserved
  | .gives makes => makes.unobserved unobserved
  | .fails makes => makes.unobserved unobserved
  | .proceeds makes => makes.unobserved unobserved
  | .resumes makes evaluates acts =>
      acts.unobserved (evaluates.unobserved (makes.unobserved unobserved))
  | .stops makes evaluates => evaluates.unobserved (makes.unobserved unobserved)

end

end Meter

/-! ## Turns -/

/-- What an evaluation ends with from a turn on, with all steps that follow in its place. -/
def Turn.Ends (limit : Nat) (meter : Meter) (turn : Turn) (outcome : Except RunError Value)
    (after : Meter) : Prop :=
  (∃ log, Meter.Acts limit meter turn log (.done outcome) after) ∨
    ∃ code frame middle log steps more,
      Meter.Acts limit meter turn log (.bounce code frame) middle ∧
        Meter.Bounces limit middle code frame steps more outcome after

/-- What an evaluation ends with from a move on. -/
def Move.Ends (limit : Nat) (meter : Meter) (outcome : Except RunError Value) (after : Meter) :
    Move → Prop
  | .give value => outcome = .ok value ∧ after = meter
  | .fail error => outcome = .error error ∧ after = meter
  | .proceed code frame =>
      ∃ steps log, Meter.Bounces limit meter code frame steps log outcome after
  | .suspend level code frame =>
      (∃ value middle log, Meter.Evaluates limit meter code frame log (.ok value) middle ∧
        Turn.Ends limit middle (.resume value level) outcome after) ∨
      ∃ error log, outcome = .error error ∧
        Meter.Evaluates limit meter code frame log (.error error) after

namespace Turn

variable {limit : Nat} {meter after : Meter} {turn : Turn} {move : Move} {world : World}
  {outcome : Except RunError Value}

/-- The move of a turn decides what the turn ends with. -/
theorem ends_iff (makes : turn.Makes meter move world) :
    turn.Ends limit meter outcome after ↔ move.Ends limit ⟨world, meter.depth⟩ outcome after := by
  constructor
  · rintro (⟨log, acts⟩ | ⟨code, frame, middle, log, steps, more, acts, bounces⟩)
    · cases acts with
      | gives made =>
          rcases makes.unique made with ⟨rfl, rfl⟩
          exact ⟨rfl, rfl⟩
      | fails made =>
          rcases makes.unique made with ⟨rfl, rfl⟩
          exact ⟨rfl, rfl⟩
      | resumes made evaluates acts =>
          rcases makes.unique made with ⟨rfl, rfl⟩
          exact .inl ⟨_, _, _, evaluates, .inl ⟨_, acts⟩⟩
      | stops made evaluates =>
          rcases makes.unique made with ⟨rfl, rfl⟩
          exact .inr ⟨_, _, rfl, evaluates⟩
    · cases acts with
      | proceeds made =>
          rcases makes.unique made with ⟨rfl, rfl⟩
          exact ⟨_, _, bounces⟩
      | resumes made evaluates acts =>
          rcases makes.unique made with ⟨rfl, rfl⟩
          exact .inl ⟨_, _, _, evaluates, .inr ⟨_, _, _, _, _, _, acts, bounces⟩⟩
  · intro ends
    cases move with
    | give value =>
        rcases ends with ⟨rfl, rfl⟩
        exact .inl ⟨_, .gives makes⟩
    | fail error =>
        rcases ends with ⟨rfl, rfl⟩
        exact .inl ⟨_, .fails makes⟩
    | proceed code frame =>
        rcases ends with ⟨_, _, bounces⟩
        exact .inr ⟨_, _, _, _, _, _, .proceeds makes, bounces⟩
    | suspend level code frame =>
        rcases ends with ⟨value, middle, log, evaluates, resumed⟩ | ⟨error, log, rfl, evaluates⟩
        · rcases resumed with
              ⟨more, acts⟩ | ⟨next, place, between, more, steps, last, acts, bounces⟩
          · exact .inl ⟨_, .resumes makes evaluates acts⟩
          · exact .inr ⟨_, _, _, _, _, _, .resumes makes evaluates acts, bounces⟩
        · exact .inl ⟨_, .stops makes evaluates⟩

/-- To go on with an expression is to start on it, where nobody observes. -/
theorem start_ends_iff (unobserved : meter.Unobserved) (code : Node) (frame : FrameId) :
    (start code frame).Ends limit meter outcome after ↔
      ∃ steps log, Meter.Bounces limit meter code frame steps log outcome after := by
  have observed := unobserved.observe code.kind
  constructor
  · rintro (⟨log, acts⟩ | ⟨next, place, middle, log, steps, more, acts, bounces⟩)
    · exact ⟨_, _, .last (observed.symm ▸ acts)⟩
    · exact ⟨_, _, .next (observed.symm ▸ acts) bounces⟩
  · rintro ⟨steps, log, bounces⟩
    cases bounces with
    | last acts => exact .inl ⟨_, observed ▸ acts⟩
    | next acts bounces => exact .inr ⟨_, _, _, _, _, _, observed ▸ acts, bounces⟩

/-- From the meter on, two turns end with the same. -/
def Alike (meter : Meter) (one two : Turn) : Prop :=
  ∀ limit outcome after, one.Ends limit meter outcome after ↔ two.Ends limit meter outcome after

namespace Alike

variable {one two three : Turn}

theorem symm (alike : Alike meter one two) : Alike meter two one :=
  fun limit outcome after => (alike limit outcome after).symm

theorem trans (first : Alike meter one two) (second : Alike meter two three) :
    Alike meter one three :=
  fun limit outcome after => (first limit outcome after).trans (second limit outcome after)

theorem of_makes (makes : one.Makes meter move world) (makesToo : two.Makes meter move world) :
    Alike meter one two :=
  fun _ _ _ => (ends_iff makes).trans (ends_iff makesToo).symm

/-- Turns that are taken in the same way are alike. -/
theorem of_take (same : ∀ limit machine, one.take limit machine = two.take limit machine) :
    Alike meter one two := by
  rcases two.exists_makes meter with ⟨move, world, makes, _, _⟩
  exact .of_makes (fun limit levels => (same limit _).trans (makes limit levels)) makes

theorem proceed (unobserved : meter.Unobserved) {code : Node} {frame : FrameId}
    (makes : one.Makes meter (.proceed code frame) meter.world) :
    Alike meter one (.start code frame) :=
  fun _ _ _ => (ends_iff makes).trans (start_ends_iff unobserved code frame).symm

/-- Turns that wait for the same expression are alike, if they are so with its value. -/
theorem suspend (unobserved : meter.Unobserved) {first second : Level} {code : Node}
    {frame : FrameId} (makes : one.Makes meter (.suspend first code frame) meter.world)
    (makesToo : two.Makes meter (.suspend second code frame) meter.world)
    (resumed : ∀ value middle, middle.Unobserved →
      Alike middle (.resume value first) (.resume value second)) :
    Alike meter one two := by
  intro limit outcome after
  rw [ends_iff makes, ends_iff makesToo]
  apply or_congr_left
  constructor
  · rintro ⟨value, middle, log, evaluates, ends⟩
    have alike := resumed value middle (evaluates.unobserved unobserved)
    exact ⟨value, middle, log, evaluates, (alike limit outcome after).mp ends⟩
  · rintro ⟨value, middle, log, evaluates, ends⟩
    have alike := resumed value middle (evaluates.unobserved unobserved)
    exact ⟨value, middle, log, evaluates, (alike limit outcome after).mpr ends⟩

end Alike

end Turn

/-! ## Expressions -/

/-- In every frame and in every scene the expressions do the same. -/
def Node.Alike (one two : Node) : Prop :=
  ∀ frame meter, meter.Unobserved → Turn.Alike meter (.start one frame) (.start two frame)

namespace Node.Alike

variable {one two : Node}

theorem symm (alike : one.Alike two) : two.Alike one :=
  fun frame meter unobserved => (alike frame meter unobserved).symm

theorem evaluates (alike : one.Alike two) {limit : Nat} {meter after : Meter} {frame : FrameId}
    {log : List Event} {outcome : Except RunError Value} (unobserved : meter.Unobserved)
    (evaluates : Meter.Evaluates limit meter one frame log outcome after) :
    ∃ log, Meter.Evaluates limit meter two frame log outcome after := by
  cases evaluates with
  | refused full => exact ⟨_, .refused full⟩
  | @made _ last _ _ _ _ _ fits bounces =>
      have entered : meter.enter.Unobserved := unobserved
      have ends := (Turn.start_ends_iff entered one frame).mpr ⟨_, _, bounces⟩
      have endsToo := (alike frame meter.enter entered limit outcome last).mp ends
      rcases (Turn.start_ends_iff entered two frame).mp endsToo with ⟨_, _, bouncesToo⟩
      exact ⟨_, .made fits bouncesToo⟩

end Node.Alike

/-- A run ends with the outcome and leaves the scene. -/
def World.EndsIn (world : World) (limit : Nat) (code : Node) (frame : FrameId)
    (outcome : Except RunError Value) (scene : Scene) : Prop :=
  ∃ fuel after, world.run limit fuel code frame = some (outcome, after) ∧ after.scene = scene

/-- Runs can be told from evaluations that nobody observes. -/
theorem World.endsIn_iff (world : World) (limit : Nat) (code : Node) (frame : FrameId)
    (outcome : Except RunError Value) (scene : Scene) :
    world.EndsIn limit code frame outcome scene ↔
      ∃ after, (∃ log, Meter.Evaluates limit ⟨world.unobserved, 0⟩ code frame log outcome
        ⟨after, 0⟩) ∧ after.scene = scene := by
  simp only [← exists_run_iff]
  constructor
  · rintro ⟨fuel, after, ended, left⟩
    refine ⟨after.unobserved, ⟨fuel, ?_⟩, left⟩
    rw [run_unobserved, ended]
    rfl
  · rintro ⟨after, ⟨fuel, ended⟩, left⟩
    rw [run_unobserved] at ended
    rcases Option.map_eq_some_iff.mp ended with ⟨answer, found, same⟩
    cases same
    exact ⟨fuel, answer.2, found, left⟩

/-- Whatever is observed of them, runs of expressions that are alike end alike. -/
theorem Node.Alike.endsIn_iff {one two : Node} (alike : one.Alike two) (world : World)
    (limit : Nat) (frame : FrameId) (outcome : Except RunError Value) (scene : Scene) :
    world.EndsIn limit one frame outcome scene ↔ world.EndsIn limit two frame outcome scene := by
  have unobserved : Meter.Unobserved ⟨world.unobserved, 0⟩ := rfl
  rw [World.endsIn_iff, World.endsIn_iff]
  constructor
  · rintro ⟨after, ⟨log, evaluates⟩, left⟩
    exact ⟨after, alike.evaluates unobserved evaluates, left⟩
  · rintro ⟨after, ⟨log, evaluates⟩, left⟩
    exact ⟨after, alike.symm.evaluates unobserved evaluates, left⟩

end SmallScheme
