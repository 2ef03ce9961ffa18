import SmallScheme.Proofs.Frames.Growth

namespace SmallScheme

/-! # Licences

A licence says what a run from a store may do: which code it executes, which parameter
lists its procedures have, and which names it binds in new frames. A state is sound if
all in it is licensed and refers to frames and procedures that exist, and its frames bind
no names but those of which it is said that they may. -/

/-- The names that a node binds in frames of its own. -/
def Node.locals : Node → List Symbol
  | .letIn bindings _ => bindings.map (·.1)
  | .letrec bindings _ => bindings.map (·.1)
  | .loop varying _ _ _ => varying.map (·.name)
  | _ => []

/-- The code of a procedure is in the store, and its parameter list is one of `formals`. -/
def Procedure.Known (formals : Formals → Prop) (store : Store) : Procedure → Prop
  | .primitive _ => True
  | .compound place _ parameters => place < store.closures.size ∧ formals parameters

def Datum.Known (formals : Formals → Prop) (store : Store) (value : Value) : Prop :=
  value.Procedures (Procedure.Known formals store)

structure Licence (base : Store) where
  code : Node → Prop
  formals : Formals → Prop
  /-- The names that frames made by the run can start with. -/
  names : Symbol → Prop
  part : ∀ {node part}, code node → part ∈ node.parts → code part
  constant : ∀ {node}, code node → ∀ value ∈ node.constants, value.Known formals base
  lambda : ∀ {name parameters body}, code (.lambda name parameters body) → formals parameters
  locals : ∀ {node}, code node → ∀ name ∈ node.locals, names name
  parameters : ∀ {parameters}, formals parameters → ∀ name ∈ parameters.names, names name

/-- Some definition of the name is licensed code. -/
def Licence.Defines {base : Store} (licence : Licence base) (name : Symbol) : Prop :=
  ∃ value, licence.code (.define name value)

variable {base store after : Store} {licence : Licence base} {binds : FrameId → Symbol → Prop}

theorem Store.Grows.known {formals : Formals → Prop} (grows : store.Grows after) {value : Value}
    (known : value.Known formals store) : value.Known formals after := by
  refine known.mono fun callee here => ?_
  cases callee with
  | primitive operation => trivial
  | compound place name parameters =>
      exact ⟨Nat.lt_of_lt_of_le here.1 grows.closures_le, here.2⟩

/-! ## Sound stores -/

/-- A store that licensed steps can lead to, and whose frames bind only what `binds` says.
New frames have to be free to bind all licensed names. -/
structure Licence.Allows (licence : Licence base) (binds : FrameId → Symbol → Prop)
    (store : Store) : Prop where
  fresh : ∀ frame ≥ base.frames.size, ∀ name, licence.names name → binds frame name
  grows : base.Grows store
  parent : ∀ {frame parent}, store.parent? frame = some parent → parent < frame
  bound : ∀ {frame name value}, store.bound? frame name = some value →
    binds frame name ∧ value.Known licence.formals store
  closure : ∀ closure ∈ store.closures,
    closure.frame < store.frames.size ∧ licence.code closure.body

namespace Store

theorem get?_eq (store : Store) (frame : FrameId) (name : Symbol) :
    store.get? frame name = (store.nearest? name frame).bind (store.bound? · name) := rfl

theorem binds_of_nearest? {frame nearest : FrameId} {name : Symbol}
    (found : store.nearest? name frame = some nearest) : store.binds nearest name = true := by
  fun_induction nearest? store name frame with
  | case1 => cases found
  | case2 frame here stored binds =>
      cases found
      simpa [Store.binds, bound?, stored, Bindings.binds] using binds
  | case3 => cases found
  | case4 frame here stored _ parent _ _ induction => exact induction found
  | case5 => cases found

end Store

namespace Licence.Allows

open Store

variable (allows : licence.Allows binds store)

include allows

theorem names {frame : FrameId} {name : Symbol} (bound : store.binds frame name = true) :
    binds frame name := by
  obtain ⟨value, found⟩ := Option.isSome_iff_exists.mp bound
  exact (allows.bound found).1

/-- The same store, with another bound on its names. -/
theorem rebind {others : FrameId → Symbol → Prop}
    (fresh : ∀ frame ≥ base.frames.size, ∀ name, licence.names name → others frame name)
    (bound : ∀ {frame name}, store.binds frame name = true → others frame name) :
    licence.Allows others store where
  fresh := fresh
  grows := allows.grows
  parent := allows.parent
  bound found := ⟨bound (binds_of_bound? found), (allows.bound found).2⟩
  closure := allows.closure

theorem get?_known {frame : FrameId} {name : Symbol} {value : Value}
    (found : store.get? frame name = some value) : value.Known licence.formals store := by
  rw [get?_eq, Option.bind_eq_some_iff] at found
  obtain ⟨nearest, _, found⟩ := found
  exact (allows.bound found).2

theorem constant {node : Node} (code : licence.code node) :
    ∀ value ∈ node.constants, value.Known licence.formals store :=
  fun value member => allows.grows.known (licence.constant code value member)

theorem enter {parent : FrameId} (inStore : parent < store.frames.size) {bindings : Bindings}
    (bound : ∀ {name value}, bindings.get? name = some value →
      licence.names name ∧ value.Known licence.formals store) :
    licence.Allows binds (store.enter parent bindings).2 where
  fresh := allows.fresh
  grows := allows.grows.trans (store.enter_grows parent bindings)
  parent {frame older} found := by
    rw [parent?_enter] at found
    split at found
    · rename_i same
      cases found
      rwa [same]
    · exact allows.parent found
  bound {frame name value} found := by
    rw [bound?_enter] at found
    split at found
    · rename_i same
      rw [same]
      have ⟨licensed, known⟩ := bound found
      exact ⟨allows.fresh _ allows.grows.frames name licensed, known⟩
    · exact allows.bound found
  closure closure member := by
    have ⟨older, code⟩ := allows.closure closure member
    rw [size_enter]
    exact ⟨Nat.lt_succ_of_lt older, code⟩

theorem define {frame : FrameId} {name : Symbol} (free : binds frame name) {value : Value}
    (known : value.Known licence.formals store) :
    licence.Allows binds (store.define frame name value) where
  fresh := allows.fresh
  grows := allows.grows.trans (store.define_grows frame name value)
  parent found := by
    rw [parent?_define] at found
    exact allows.parent found
  bound {other target found} here := by
    rw [bound?_define] at here
    split at here
    · rename_i same
      cases here
      rw [same.1, same.2.1]
      exact ⟨free, known⟩
    · exact allows.bound here
  closure closure member := by
    rw [size_define]
    exact allows.closure closure member

theorem close {frame : FrameId} (inStore : frame < store.frames.size) {body : Node}
    (code : licence.code body) (name : Option Symbol) (formals : Formals) :
    licence.Allows binds (store.close name formals body frame).2 := by
  have grows := store.close_grows name formals body frame
  exact {
    fresh := allows.fresh
    grows := allows.grows.trans grows
    parent := allows.parent
    bound := fun found =>
      have ⟨free, known⟩ := allows.bound found
      ⟨free, grows.known known⟩
    closure := by
      intro closure member
      rcases Array.mem_push.mp member with earlier | rfl
      · exact allows.closure closure earlier
      · exact ⟨inStore, code⟩ }

theorem next (place : Place) : licence.Allows binds { store with next := place } :=
  ⟨allows.fresh, allows.grows.trans (store.next_grows place), allows.parent, allows.bound,
    allows.closure⟩

theorem bindArguments {formals : Formals} (licensed : licence.formals formals) {parent : FrameId}
    (inStore : parent < store.frames.size) {arguments : List Value}
    (known : ∀ argument ∈ arguments, argument.Known licence.formals store) :
    licence.Allows binds (store.bindArguments formals parent arguments).2 := by
  let pairs := formals.required.zip (arguments.take formals.required.length)
  have required {name : Symbol} {value : Value}
      (found : (Bindings.ofPairs pairs).get? name = some value) :
      licence.names name ∧ value.Known licence.formals store := by
    have member := List.of_mem_zip (Bindings.mem_of_get?_ofPairs found)
    have parameter : name ∈ formals.names := List.mem_append_left _ member.1
    exact ⟨licence.parameters licensed name parameter,
      known value (List.mem_of_mem_take member.2)⟩
  unfold Store.bindArguments
  dsimp only
  split
  · exact allows.enter inStore required
  · rename_i rest same
    have placed := allows.next (Value.newList store.next (arguments.drop formals.required.length)).2
    refine placed.enter inStore fun {name value} found => ?_
    rw [Bindings.get?_insert] at found
    split at found
    · rename_i isRest
      cases found
      have parameter : name ∈ formals.names := by simp [Formals.names, same, isRest]
      refine ⟨licence.parameters licensed name parameter, ?_⟩
      exact Value.newList_procedures
        (fun argument member => known argument (List.mem_of_mem_drop member)) store.next
    · exact required found

end Licence.Allows

/-! ## Sound states -/

/-- A loop as the node that it came from. -/
def Loop.node (loop : Loop) : Node :=
  .loop loop.varying loop.test loop.result loop.commands

structure Loop.Sound (licence : Licence base) (store : Store) (loop : Loop) : Prop where
  code : licence.code loop.node
  outer : loop.outer < store.frames.size

namespace Loop.Sound

variable {loop : Loop} (sound : loop.Sound licence store)

include sound

theorem test : licence.code loop.test :=
  licence.part sound.code (by simp [node, Node.parts])

theorem result : ∀ node ∈ loop.result, licence.code node := by
  intro node member
  apply licence.part sound.code
  simp [Loop.node, Node.parts, Option.mem_toList.mpr member]

theorem commands : ∀ command ∈ loop.commands, licence.code command :=
  fun command member => licence.part sound.code (by simp [node, Node.parts, member])

theorem mono (grows : store.Grows after) : loop.Sound licence after :=
  ⟨sound.code, grows.inStore sound.outer⟩

theorem varying : ∀ item ∈ loop.varying, ∀ part ∈ item.parts, licence.code part := by
  intro item member part inItem
  have among := List.mem_flatMap.mpr ⟨item, member, inItem⟩
  apply licence.part sound.code
  simp [node, Node.parts, among]

end Loop.Sound

inductive Level.Sound (licence : Licence base) (store : Store) : Level → Prop
  | branch {consequent : Node} {alternate : Option Node} {frame : FrameId} :
      licence.code consequent → (∀ node ∈ alternate, licence.code node) →
      frame < store.frames.size → Sound licence store (.branch consequent alternate frame)
  | sequence {rest : List Node} {frame : FrameId} :
      (∀ node ∈ rest, licence.code node) → frame < store.frames.size →
      Sound licence store (.sequence rest frame)
  | define {name : Symbol} {frame : FrameId} :
      licence.Defines name → Sound licence store (.define name frame)
  | assign (name : Symbol) (frame : FrameId) : Sound licence store (.assign name frame)
  | operator {operands : List Node} {tail : Bool} {frame : FrameId} :
      (∀ node ∈ operands, licence.code node) → frame < store.frames.size →
      Sound licence store (.operator operands tail frame)
  | operand {procedure : Value} {reversed : List Value} {rest : List Node} {tail : Bool}
      {frame : FrameId} :
      procedure.Known licence.formals store →
      (∀ value ∈ reversed, value.Known licence.formals store) →
      (∀ node ∈ rest, licence.code node) → frame < store.frames.size →
      Sound licence store (.operand procedure reversed rest tail frame)
  | binding {name : Symbol} {rest : List (Symbol × Node)} {body : Node} {scope inner : FrameId} :
      licence.code body → (∀ binding ∈ rest, licence.code binding.2) →
      (∀ bound ∈ name :: rest.map (·.1), licence.names bound) → base.frames.size ≤ inner →
      scope < store.frames.size → inner < store.frames.size →
      Sound licence store (.binding name rest body scope inner)
  | loopInit {name : Symbol} {rest : List LoopVariable} {loop : Loop} {frame : FrameId} :
      loop.Sound licence store → (∀ item ∈ rest, ∀ part ∈ item.parts, licence.code part) →
      (∀ bound ∈ name :: rest.map (·.name), licence.names bound) → base.frames.size ≤ frame →
      frame < store.frames.size → Sound licence store (.loopInit name rest loop frame)
  | loopTest {loop : Loop} {frame : FrameId} :
      loop.Sound licence store → frame < store.frames.size →
      Sound licence store (.loopTest loop frame)
  | loopCommand {rest : List Node} {loop : Loop} {frame : FrameId} :
      loop.Sound licence store → (∀ node ∈ rest, licence.code node) →
      frame < store.frames.size → Sound licence store (.loopCommand rest loop frame)
  | loopStep {name : Symbol} {rest : List LoopVariable} {loop : Loop} {frame next : FrameId} :
      loop.Sound licence store → (∀ item ∈ rest, ∀ part ∈ item.parts, licence.code part) →
      (∀ bound ∈ name :: rest.map (·.name), licence.names bound) → base.frames.size ≤ next →
      frame < store.frames.size → next < store.frames.size →
      Sound licence store (.loopStep name rest loop frame next)
  | clause {clause : Clause} {rest : List Clause} {frame : FrameId} :
      (∀ item ∈ clause :: rest, ∀ part ∈ item.parts, licence.code part) →
      frame < store.frames.size → Sound licence store (.clause clause rest frame)
  | receiver {argument : Value} {tail : Bool} :
      argument.Known licence.formals store → Sound licence store (.receiver argument tail)
  | conjunction {rest : List Node} {frame : FrameId} :
      (∀ node ∈ rest, licence.code node) → frame < store.frames.size →
      Sound licence store (.conjunction rest frame)
  | disjunction {rest : List Node} {frame : FrameId} :
      (∀ node ∈ rest, licence.code node) → frame < store.frames.size →
      Sound licence store (.disjunction rest frame)
  | body : Sound licence store .body

theorem Level.Sound.mono {level : Level} (sound : level.Sound licence store)
    (grows : store.Grows after) : level.Sound licence after := by
  have frames {frame : FrameId} (inStore : frame < store.frames.size) := grows.inStore inStore
  have loops {loop : Loop} (sound : loop.Sound licence store) := sound.mono grows
  cases sound with
  | branch consequent alternate frame => exact .branch consequent alternate (frames frame)
  | sequence rest frame => exact .sequence rest (frames frame)
  | define name => exact .define name
  | assign name frame => exact .assign name frame
  | operator operands frame => exact .operator operands (frames frame)
  | operand procedure reversed rest frame =>
      exact .operand (grows.known procedure)
        (fun value member => grows.known (reversed value member)) rest (frames frame)
  | binding body rest names new scope inner =>
      exact .binding body rest names new (frames scope) (frames inner)
  | loopInit loop rest names new frame =>
      exact .loopInit (loops loop) rest names new (frames frame)
  | loopTest loop frame => exact .loopTest (loops loop) (frames frame)
  | loopCommand loop rest frame => exact .loopCommand (loops loop) rest (frames frame)
  | loopStep loop rest names new frame next =>
      exact .loopStep (loops loop) rest names new (frames frame) (frames next)
  | clause items frame => exact .clause items (frames frame)
  | receiver argument => exact .receiver (grows.known argument)
  | conjunction rest frame => exact .conjunction rest (frames frame)
  | disjunction rest frame => exact .disjunction rest (frames frame)
  | body => exact .body

structure Machine.Sound (licence : Licence base) (binds : FrameId → Symbol → Prop)
    (machine : Machine) : Prop where
  store : licence.Allows binds machine.world.store
  levels : ∀ level ∈ machine.levels, level.Sound licence machine.world.store

def Control.Sound (licence : Licence base) (store : Store) : Control → Prop
  | .run code frame => licence.code code ∧ frame < store.frames.size
  | .give value => value.Known licence.formals store

/-- The values that an error tells of. -/
def RunError.values : RunError → List Value
  | .arity callee _ => [.procedure callee]
  | .notCallable value => [value]
  | .primitive _ fault => fault.values
  | _ => []

/-- The values in the outcome of a run. -/
def outcomeValues : Except RunError Value → List Value
  | .ok value => [value]
  | .error error => error.values

def Progress.Sound (licence : Licence base) (binds : FrameId → Symbol → Prop) : Progress → Prop
  | .running control machine =>
      machine.Sound licence binds ∧ control.Sound licence machine.world.store
  | .ended outcome world =>
      licence.Allows binds world.store ∧
        ∀ value ∈ outcomeValues outcome, value.Known licence.formals world.store

theorem Progress.Sound.allows {progress : Progress} (sound : progress.Sound licence binds) :
    licence.Allows binds progress.store := by
  cases progress with
  | running control machine => exact sound.1.store
  | ended outcome world => exact sound.1

/-- The next step binds the name in the frame because of a definition. -/
def Progress.Defines (progress : Progress) (frame : FrameId) (name : Symbol) : Prop :=
  ∃ value machine levels, progress = .running (.give value) machine ∧
    machine.levels = .define name frame :: levels

end SmallScheme
