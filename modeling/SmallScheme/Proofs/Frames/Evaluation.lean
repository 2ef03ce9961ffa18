import Mathlib
import SmallScheme.Proofs.Built
import SmallScheme.Proofs.Frames.Steps

namespace SmallScheme

/-! # Frames in an evaluation

An evaluation keeps the store well formed, however it ends, and frames that existed
before get new names by definitions only. -/

/-- Where an evaluation starts that is nested `depth` deep in others. -/
def World.startAt (world : World) (limit depth : Nat) (code : Node) (frame : FrameId) :
    Progress :=
  if depth < limit then Machine.proceed ⟨world, [], depth + 1⟩ code frame
  else .ended (.error .tooDeep) world

theorem World.run_eq_startAt (world : World) (limit fuel : Nat) (code : Node) (frame : FrameId) :
    world.run limit fuel code frame = (world.startAt limit 0 code frame).finish limit fuel :=
  world.run_eq_finish limit fuel code frame

/-- A part of the code that is run, or of that of a procedure in the store. -/
def Store.HasCode (store : Store) (code node : Node) : Prop :=
  node.Within code ∨ ∃ closure ∈ store.closures, node.Within closure.body

namespace Store

variable {base : Store} {code : Node}

theorem HasCode.part {node part : Node} (has : base.HasCode code node)
    (member : part ∈ node.parts) : base.HasCode code part := by
  rcases has with within | ⟨closure, found, within⟩
  · exact .inl (within.deeper member)
  · exact .inr ⟨closure, found, within.deeper member⟩

theorem WellFormed.constant (wellFormed : base.WellFormed) (lives : code.Lives base) {node : Node}
    (has : base.HasCode code node) : ∀ value ∈ node.constants, value.Lives base := by
  rcases has with within | ⟨closure, found, within⟩
  · exact lives node within
  · exact wellFormed.closureBody closure found node within

end Store

theorem Datum.Lives.known {store : Store} {value : Value} (lives : value.Lives store) :
    value.Known (fun _ => True) store := by
  refine lives.mono fun callee here => ?_
  cases callee with
  | primitive operation => trivial
  | compound place name formals => exact ⟨here, trivial⟩

theorem Datum.Known.lives {formals : Formals → Prop} {store : Store} {value : Value}
    (known : value.Known formals store) : value.Lives store := by
  refine known.mono fun callee here => ?_
  cases callee with
  | primitive operation => trivial
  | compound place name formals => exact here.1

namespace Licence

variable {base store : Store} {code : Node}

/-- The code at hand may be run, and new frames may bind any name. -/
def ofCode (wellFormed : base.WellFormed) (lives : code.Lives base) : Licence base where
  code := base.HasCode code
  formals _ := True
  names _ := True
  part has member := has.part member
  constant has value member := (wellFormed.constant lives has value member).known
  lambda _ := trivial
  locals _ _ _ := trivial
  parameters _ _ _ := trivial

/-- What frames may bind if old ones get new names by definitions only. -/
def Extends (licence : Licence base) (frame : FrameId) (name : Symbol) : Prop :=
  base.frames.size ≤ frame ∨ base.binds frame name = true ∨ licence.Defines name

theorem ofCode_allows (wellFormed : base.WellFormed) (lives : code.Lives base) :
    (ofCode wellFormed lives).Allows (ofCode wellFormed lives).Extends base where
  fresh _ new _ _ := .inl new
  grows := .refl base
  parent := wellFormed.parent
  bound found := ⟨.inr (.inl (Store.binds_of_bound? found)), (wellFormed.value found).known⟩
  closure closure member :=
    ⟨wellFormed.closureFrame closure member, .inr ⟨closure, member, .self⟩⟩

variable {licence : Licence base} {binds : FrameId → Symbol → Prop}

theorem code_within {inner outer : Node} (licensed : licence.code outer)
    (within : inner.Within outer) : licence.code inner := by
  induction within with
  | self => exact licensed
  | part member _ induction => exact induction (licence.part licensed member)

theorem Allows.wellFormed (allows : licence.Allows binds store) : store.WellFormed where
  parent := allows.parent
  value found := (allows.bound found).2.lives
  closureFrame closure member := (allows.closure closure member).1
  closureBody closure member inner within value inConstants := by
    have licensed := code_within (allows.closure closure member).2 within
    exact (allows.constant licensed value inConstants).lives

end Licence

theorem Node.Lives.within {store : Store} {inner outer : Node} (lives : outer.Lives store)
    (within : inner.Within outer) : inner.Lives store := by
  induction within with
  | self => exact lives
  | part member _ induction => exact induction ((Node.everywhere_iff.mp lives).2 _ member)

theorem Node.compile_lives {store : Store} {tail : Bool} {datum : Value} {program : Node}
    (lives : datum.Lives store) (compiled : Node.compile tail datum = .ok program) :
    program.Lives store := by
  intro inner within value member
  have built := Node.compile_built tail lives program compiled inner within
  cases inner with
  | literal constant => exact List.mem_singleton.mp member ▸ built
  | quote constant => exact List.mem_singleton.mp member ▸ built
  | _ => cases member

theorem World.startAt_sound {base : Store} {world : World} {frame : FrameId} {code : Node}
    {licence : Licence base} {binds : FrameId → Symbol → Prop}
    (allows : licence.Allows binds world.store) (licensed : licence.code code)
    (inStore : frame < world.store.frames.size) (limit depth : Nat) :
    (world.startAt limit depth code frame).Sound licence binds := by
  unfold World.startAt
  split
  · exact ⟨⟨allows, List.forall_mem_nil _⟩, licensed, inStore⟩
  · exact ⟨allows, List.forall_mem_nil _⟩

/-- However an evaluation of compiled code ends, the store after it is well formed, with
chains of parents along which names are looked up; the values in its outcome live there;
frames that existed before keep their parents and names; a name that is new in one of
them is that of a definition in the code, or in that of a procedure that existed before;
and each step that adds a name to one of them executes a definition of it there. -/
theorem evaluation_keeps_frames {world after : World} {limit depth fuel : Nat} {tail : Bool}
    {datum : Value} {program code : Node} {frame : FrameId} {outcome : Except RunError Value}
    (wellFormed : world.store.WellFormed) (inStore : frame < world.store.frames.size)
    (lives : datum.Lives world.store) (compiled : Node.compile tail datum = .ok program)
    (within : code.Within program)
    (ended : (world.startAt limit depth code frame).finish limit fuel = some (outcome, after)) :
    after.store.WellFormed ∧
      (∀ frame < after.store.frames.size, ∃ chain, after.store.Chain frame chain ∧
        ∀ name, after.store.nearest? name frame = chain.find? (after.store.binds · name)) ∧
      (∀ value ∈ outcomeValues outcome, value.Lives after.store) ∧
      world.store.Grows after.store ∧
      (∀ old < world.store.frames.size, ∀ name,
        world.store.binds old name = false → after.store.binds old name = true →
          ∃ value, world.store.HasCode code (.define name value)) ∧
      ∀ middle next, Progress.Reaches limit (world.startAt limit depth code frame) middle →
        Progress.Steps limit middle next → ∀ old < world.store.frames.size, ∀ name,
          middle.store.binds old name = false → next.store.binds old name = true →
            middle.Defines old name := by
  have codeLives : code.Lives world.store := (Node.compile_lives lives compiled).within within
  let licence := Licence.ofCode wellFormed codeLives
  have start : (world.startAt limit depth code frame).Sound licence licence.Extends :=
    World.startAt_sound (Licence.ofCode_allows wellFormed codeLives) (.inl .self) inStore _ _
  have sound {progress : Progress}
      (reaches : Progress.Reaches limit (world.startAt limit depth code frame) progress) :
      progress.Sound licence licence.Extends :=
    reaches.sound start fun _ _ _ _ _ licensed => .inr (.inr licensed)
  have final := sound (Progress.reaches_of_finish ended)
  have formed : after.store.WellFormed := final.1.wellFormed
  refine ⟨formed, ?_, fun value member => (final.2 value member).lives, final.1.grows, ?_, ?_⟩
  · intro frame inStore
    obtain ⟨chain, isChain⟩ := formed.exists_chain inStore
    exact ⟨chain, isChain, isChain.nearest?_eq_find? formed⟩
  · intro old isOld name unbound bound
    rcases final.1.names bound with new | before | defined
    · exact absurd isOld (Nat.not_lt.mpr new)
    · rw [unbound] at before
      cases before
    · exact defined
  · intro middle next reached step old isOld name unbound bound
    cases middle with
    | running control machine =>
        cases step
        rcases machine.step_adds (sound reached) unbound bound with ⟨new, _⟩ | ⟨defines, _⟩
        · exact absurd isOld (Nat.not_lt.mpr new)
        · exact defines
    | ended outcome world => exact step.elim

/-- `(begin (define f (lambda (x) x)) (f 1))` -/
def defineAndCall : Source :=
  .pair () (.symbol ⟨"begin"⟩) (.pair ()
    (.pair () (.symbol ⟨"define"⟩) (.pair () (.symbol ⟨"f"⟩) (.pair ()
      (.pair () (.symbol ⟨"lambda"⟩) (.pair () (.pair () (.symbol ⟨"x"⟩) .nil)
        (.pair () (.symbol ⟨"x"⟩) .nil))) .nil)))
    (.pair () (.pair () (.symbol ⟨"f"⟩) (.pair () (.number (.integer 1)) .nil)) .nil))

/-- In the standard store the definition adds `f` to the root, and the call makes a frame. -/
theorem evaluation_keeps_frames_defineAndCall :
    let world := World.ofStore .standard
    ∃ program outcome after,
      Node.compile true (Value.place 0 defineAndCall).1 = .ok program ∧
      world.run 3 20 program 0 = some (outcome, after) ∧
      after.store.WellFormed ∧ world.store.Grows after.store ∧
      (∀ value ∈ outcomeValues outcome, value.Lives after.store) ∧
      after.store.frames.size = 2 ∧
      world.store.binds 0 ⟨"f"⟩ = false ∧ after.store.binds 0 ⟨"f"⟩ = true ∧
      ∃ value, world.store.HasCode program (.define ⟨"f"⟩ value) := by
  intro world
  have lives : (Value.place 0 defineAndCall).1.Lives world.store := by
    simp [defineAndCall, Value.place, Datum.Lives, Datum.Procedures]
  let program : Node :=
    .sequence [.define ⟨"f"⟩ (.lambda (some ⟨"f"⟩) ⟨[⟨"x"⟩], none⟩ (.variable ⟨"x"⟩)),
      .call (.variable ⟨"f"⟩) [.literal (.number (.integer 1))] true]
  have compiled : Node.compile true (Value.place 0 defineAndCall).1 = .ok program := by cbv
  have ends : (world.run 3 20 program 0).map
      (fun answer => (answer.2.store.frames.size, answer.2.store.binds 0 ⟨"f"⟩)) =
        some (2, true) := by cbv
  have unbound : world.store.binds 0 ⟨"f"⟩ = false := by cbv
  obtain ⟨⟨outcome, after⟩, ended, same⟩ := Option.map_eq_some_iff.mp ends
  obtain ⟨size, bound⟩ := Prod.mk.inj same
  have started := ended
  rw [World.run_eq_startAt] at started
  rcases evaluation_keeps_frames Store.standard_wellFormed (by decide) lives compiled .self
    started with ⟨formed, _, values, grows, defined, _⟩
  exact ⟨program, outcome, after, compiled, ended, formed, grows, values, size, unbound, bound,
    defined 0 (by decide) ⟨"f"⟩ unbound bound⟩

end SmallScheme
