import SmallScheme.Proofs.Counting
import SmallScheme.Proofs.Sessions

namespace SmallScheme

/-! # The exact number of levels

How many levels a course takes, and that it runs out of depth with fewer of them. Whether
there are enough or not, frames that were there before are left as they were; so this is
about programs that assign nothing. -/

open Progress

/-! ## Frames that stay -/

/-- All frames of one store are in the other one, with the same bindings. -/
def Store.Retains (before after : Store) : Prop :=
  before.frames.toList <+: after.frames.toList

namespace Store.Retains

variable {before middle after : Store}

theorem refl (store : Store) : store.Retains store :=
  List.prefix_refl _

theorem trans (first : before.Retains middle) (second : middle.Retains after) :
    before.Retains after :=
  List.IsPrefix.trans first second

theorem enter (store : Store) (parent : FrameId) (bindings : Bindings) :
    store.Retains (store.enter parent bindings).2 := by
  rw [Retains, Store.enter, Array.toList_push]
  exact List.prefix_append _ _

theorem getElem? (retains : before.Retains after) {frame : FrameId}
    (inStore : frame < before.frames.size) : after.frames[frame]? = before.frames[frame]? := by
  rcases retains with ⟨more, same⟩
  rw [← Array.getElem?_toList, ← Array.getElem?_toList, ← same]
  exact List.getElem?_append_left inStore

end Store.Retains

/-! ## Costs -/

/-- A course of the machine leads to another one if there is room for so many levels more,
and runs out of depth if there is not. -/
structure Costs (room : Nat) (before : Scene) (start : Course) (after : Scene) (stop : Course) :
    Prop where
  passes : Passes room before start after stop
  retains : before.store.Retains after.store
  fails : ∀ {limit machine}, machine.world.scene = before → machine.depth ≤ limit →
    limit < machine.depth + room →
      ∃ world : World, before.store.Retains world.store ∧
        Leads limit (start limit machine) (.ended (.error .tooDeep) world)

namespace Costs

variable {room less more : Nat} {before middle after scene : Scene} {start between stop : Course}
  {frame : FrameId} {code : Node} {value : Value}

/-- What takes no level cannot run out of depth. -/
theorem of_passes (passes : Passes 0 before start after stop)
    (retains : before.store.Retains after.store) : Costs 0 before start after stop where
  passes := passes
  retains := retains
  fails _ inDepth full := absurd full (Nat.not_lt_of_le inDepth)

/-- Levels are given back, so that of two courses the one counts that takes more of them. -/
theorem trans (first : Costs less before start middle between)
    (second : Costs more middle between after stop) (most : max less more = room) :
    Costs room before start after stop where
  passes := (first.passes.mono (by omega)).trans (second.passes.mono (by omega))
  retains := first.retains.trans second.retains
  fails {limit machine} atScene inDepth full := by
    by_cases early : limit < machine.depth + less
    · exact first.fails atScene inDepth early
    · rcases first.passes limit machine atScene (by omega) with ⟨world, atMiddle, leads⟩
      have late : limit < machine.depth + more := by omega
      rcases @second.fails limit { machine with world := world } atMiddle inDepth late with
        ⟨final, retains, further⟩
      exact ⟨final, first.retains.trans retains, leads.trans further⟩

/-- A value that a level waits for takes one level more. -/
theorem suspend (inner : Costs room before (.run code frame) after (.give value))
    (level : Level) :
    Costs (room + 1) before
      (fun limit machine => machine.suspend limit level code frame) after
      (fun limit machine => machine.resume limit value level) where
  passes := inner.passes.suspend level
  retains := inner.retains
  fails {limit machine} atScene inDepth full := by
    by_cases lower : machine.depth < limit
    · let inside : Machine :=
        { machine with levels := level :: machine.levels, depth := machine.depth + 1 }
      have insideFull : limit < inside.depth + room := by
        dsimp only [inside]
        omega
      rcases @inner.fails limit inside atScene lower insideFull with ⟨world, retains, leads⟩
      refine ⟨world, retains, ?_⟩
      rw [Machine.suspend_of_lt lower]
      exact leads
    · refine ⟨machine.world, ?_, ?_⟩
      · rw [← atScene]
        exact .refl _
      · rw [Machine.suspend_of_not_lt lower]
        exact .refl limit _

theorem run (scene : Scene) (code : Node) (frame : FrameId) :
    Costs 0 scene (.run code frame) scene
      (fun limit machine => machine.execute limit frame code) :=
  of_passes (Passes.run 0 scene code frame) (.refl _)

/-- What takes no level and changes nothing. -/
theorem of_computes (computes : Computes 0 scene frame code value) :
    Costs 0 scene (.run code frame) scene (.give value) :=
  of_passes computes (.refl _)

/-! ## Tests -/

section

variable {test consequent : Node}

theorem branch_true {alternate : Option Node}
    (tested : Costs room before (.run test frame) after (.give value))
    (isTrue : value.isTrue = true) :
    Costs (room + 1) before (.run (.branch test consequent alternate) frame) after
      (.run consequent frame) := by
  have waits := (run before (.branch test consequent alternate) frame).trans
    (tested.suspend (.branch consequent alternate frame)) (Nat.zero_max _)
  have taken := Passes.consequent_taken isTrue 0 after consequent alternate frame
  exact waits.trans (of_passes taken (.refl _)) (Nat.max_zero _)

theorem branch_false {alternate : Node}
    (tested : Costs room before (.run test frame) after (.give value))
    (isFalse : value.isTrue = false) :
    Costs (room + 1) before (.run (.branch test consequent (some alternate)) frame) after
      (.run alternate frame) := by
  have waits := (run before (.branch test consequent (some alternate)) frame).trans
    (tested.suspend (.branch consequent (some alternate) frame)) (Nat.zero_max _)
  have taken := Passes.alternate_taken isFalse 0 after consequent alternate frame
  exact waits.trans (of_passes taken (.refl _)) (Nat.max_zero _)

end

/-! ## Calls -/

section

variable {procedure : Value} {arguments : List Value}

/-- The operator comes first. -/
theorem operator (computed : Costs room before (.run code frame) after (.give procedure))
    (operands : List Node) (tail : Bool) :
    Costs (room + 1) before (.run (.call code operands tail) frame) after
      (fun limit machine => machine.runOperands limit procedure [] tail frame operands) :=
  (run before (.call code operands tail) frame).trans
    (computed.suspend (.operator operands tail frame)) (Nat.zero_max _)

theorem operand (computed : Costs room before (.run code frame) after (.give value))
    (procedure : Value) (reversed : List Value) (rest : List Node) (tail : Bool) :
    Costs (room + 1) before
      (fun limit machine => machine.runOperands limit procedure reversed tail frame (code :: rest))
      after
      (fun limit machine =>
        machine.runOperands limit procedure (value :: reversed) tail frame rest) :=
  computed.suspend (.operand procedure reversed rest tail frame)

/-- A primitive on two constants or names takes one level. -/
theorem primitive {name : String} {operation : Primitive} {first second : Node}
    {one two : Value} (tail : Bool)
    (operator : scene.store.get? frame ⟨name⟩ = some (.procedure (.primitive operation)))
    (computed : Computes 0 scene frame first one) (also : Computes 0 scene frame second two)
    (answered : operation.operation.answer? scene.store.next [one, two] =
      some (.ok (Operation.plain scene.store.next value))) :
    Costs 1 scene (.run (.named name [first, second] tail) frame) scene (.give value) := by
  have named := Costs.operator (of_computes (Passes.name 0 operator)) [first, second] tail
  have left := (of_computes computed).operand (.procedure (.primitive operation)) [] [second] tail
  have right := (of_computes also).operand (.procedure (.primitive operation)) [one] [] tail
  have called := of_passes (Passes.primitive 0 answered tail) (.refl scene.store)
  have operands := left.trans (right.trans called (Nat.max_zero 1)) (Nat.max_self 1)
  exact named.trans operands (Nat.max_self 1)

theorem tailCall {place : Place} {name : Option Symbol} {required : List Symbol} {body : Node}
    {home : FrameId} (found : scene.store.closures[place]? = some ⟨body, home⟩)
    (fits : arguments.length = required.length) :
    let entered := scene.store.enter home (.ofPairs (required.zip arguments))
    Costs 0 scene (.call (.procedure (.compound place name ⟨required, none⟩)) arguments true)
      { scene with store := entered.2 } (.run body entered.1) :=
  of_passes (Passes.tailCall 0 found fits) (.enter _ _ _)

/-- The body of a procedure takes one level more, if it is not called in tail position. -/
theorem bodyCall {place : Place} {name : Option Symbol} {required : List Symbol}
    {body : Node} {home : FrameId}
    (found : scene.store.closures[place]? = some ⟨body, home⟩)
    (fits : arguments.length = required.length)
    (returned : Costs room
      { scene with store := (scene.store.enter home (.ofPairs (required.zip arguments))).2 }
      (.run body scene.store.frames.size) after (.give value)) :
    Costs (room + 1) scene
      (.call (.procedure (.compound place name ⟨required, none⟩)) arguments false) after
      (.give value) :=
  (of_passes (Passes.bodyWaits 0 found fits) (.enter _ home _)).trans (returned.suspend .body)
    (Nat.zero_max _)

end

end Costs

/-! ## Texts -/

namespace Session

/-- The evaluation of a text ends with a value or an error and leaves a session behind, given
enough fuel. -/
def Ends (session : Session) (text : String) (outcome : Except EvalError Value)
    (after : Session) : Prop :=
  ∃ least, ∀ fuel ≥ least,
    session.eval fuel (.ofText Document.unnamed text) = some (outcome, after)

end Session

/-- A text whose code has a cost is evaluated if the limit of the session is greater than
that, and too deep if not. -/
theorem Denotes.ends {session : Session} {text : String} {code : Node}
    (denotes : Denotes text code) {room : Nat} {value : Value}
    (costs : ∀ scene : Scene, scene.store.frames = session.world.store.frames →
      scene.store.closures = session.world.store.closures →
        ∃ after, Costs room scene (.run code session.root) after (.give value)) :
    ∃ after : Session, session.world.store.Retains after.world.store ∧
      session.Ends text (if room < session.limit then .ok value else .error (.run .tooDeep))
        after := by
  rcases denotes with ⟨datum, found, compiled⟩
  let held := (session.holding datum).world
  let world := held.record (.compiled (session.placed datum) code)
  have atScene : world.scene = held.scene := World.scene_record _ _
  rcases costs held.scene rfl rfl with ⟨scene, costs⟩
  have ends : ∃ (outcome : Except RunError Value) (final : World),
      (outcome.mapError .run : Except EvalError Value) =
        (if room < session.limit then .ok value else .error (.run .tooDeep)) ∧
      held.store.Retains final.store ∧
      Leads session.limit (session.start datum code) (.ended outcome final) := by
    by_cases positive : 0 < session.limit
    · have start : session.start datum code = Machine.proceed ⟨world, [], 1⟩ code session.root :=
        if_pos positive
      rw [start]
      by_cases fits : room < session.limit
      · rcases costs.passes session.limit ⟨world, [], 1⟩ atScene (by dsimp only; omega) with
          ⟨final, rfl, leads⟩
        rw [if_pos fits]
        exact ⟨.ok value, final, rfl, costs.retains, leads.trans (.step session.limit _ _)⟩
      · rcases @costs.fails session.limit ⟨world, [], 1⟩ atScene positive
          (by dsimp only; omega) with ⟨final, retains, leads⟩
        rw [if_neg fits]
        exact ⟨.error .tooDeep, final, rfl, retains, leads⟩
    · have start : session.start datum code = .ended (.error .tooDeep) world := if_neg positive
      rw [start, if_neg (by omega)]
      refine ⟨.error .tooDeep, world, rfl, ?_, .refl _ _⟩
      rw [show world.store = held.store from congrArg Scene.store atScene]
      exact .refl _
  rcases ends with ⟨outcome, final, same, retains, leads⟩
  rcases Session.evalDatum_of_leads (compiled _) leads with ⟨least, evaluated⟩
  refine ⟨{ session with world := final.record (.finished outcome) }, ?_, least, ?_⟩
  · have stored : (final.record (.finished outcome)).store = final.store :=
      congrArg Scene.store (World.scene_record _ _)
    dsimp only
    rw [stored]
    exact retains
  · intro fuel enough
    rw [Session.eval_of_next found rfl, evaluated fuel enough, same]

end SmallScheme
