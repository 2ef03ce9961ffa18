import Mathlib
import SmallScheme.Proofs.Frames.Spare

namespace SmallScheme

/-! # Names that no code mentions

A program that mentions a name nowhere, in a store none of whose procedures does, runs the
same way whether a frame binds the name or not. Two machines take their steps together, one
with the binding and one without it, and all code that either of them comes to avoids the
name. -/

/-! ## Code that avoids a name -/

namespace Node

/-- The names that a node itself uses or binds. -/
def names : Node → List Symbol
  | .variable name => [name]
  | .lambda _ formals _ => formals.names
  | .define name _ => [name]
  | .assign name _ => [name]
  | other => other.locals

/-- A name is used or bound nowhere in a node. -/
def Avoids (spare : Symbol) : Node → Prop :=
  Node.Everywhere fun inner => spare ∉ inner.names

theorem avoids_iff {spare : Symbol} {node : Node} :
    node.Avoids spare ↔ spare ∉ node.names ∧ node.parts.Forall (Avoids spare) := by
  rw [List.forall_iff_forall_mem]
  exact everywhere_iff

theorem Avoids.part {spare : Symbol} {node : Node} (avoids : node.Avoids spare) {inner : Node}
    (member : inner ∈ node.parts) : inner.Avoids spare :=
  (everywhere_iff.mp avoids).2 inner member

end Node

/-- A binding of another name, to an expression that avoids the name. -/
def InitAvoids (spare : Symbol) (binding : Symbol × Node) : Prop :=
  binding.1 ≠ spare ∧ binding.2.Avoids spare

theorem initAvoids_of_mem {spare : Symbol} {bindings : List (Symbol × Node)}
    (names : spare ∉ bindings.map (·.1)) (inits : ∀ init ∈ bindings.map (·.2), init.Avoids spare) :
    ∀ binding ∈ bindings, InitAvoids spare binding := by
  intro binding member
  constructor
  · intro same
    exact names (List.mem_map.mpr ⟨binding, member, same⟩)
  · exact inits binding.2 (List.mem_map_of_mem member)

def LoopVariable.Avoids (spare : Symbol) (item : LoopVariable) : Prop :=
  item.name ≠ spare ∧ ∀ part ∈ item.parts, part.Avoids spare

def Clause.Avoids (spare : Symbol) (clause : Clause) : Prop :=
  ∀ part ∈ clause.parts, part.Avoids spare

structure Loop.Avoids (spare : Symbol) (loop : Loop) : Prop where
  varying : ∀ item ∈ loop.varying, item.Avoids spare
  test : loop.test.Avoids spare
  result : ∀ node ∈ loop.result, node.Avoids spare
  commands : ∀ command ∈ loop.commands, command.Avoids spare

theorem Loop.Avoids.of_node {spare : Symbol} {loop : Loop} (avoids : loop.node.Avoids spare) :
    loop.Avoids spare where
  varying item member := by
    have names := (Node.avoids_iff.mp avoids).1
    refine ⟨fun same => names (List.mem_map.mpr ⟨item, member, same⟩), fun part inItem => ?_⟩
    have among := List.mem_flatMap.mpr ⟨item, member, inItem⟩
    exact avoids.part (by simp [node, Node.parts, among])
  test := avoids.part (by simp [node, Node.parts])
  result node member :=
    avoids.part (by simp [Loop.node, Node.parts, Option.mem_toList.mpr member])
  commands command member := avoids.part (by simp [node, Node.parts, member])

/-- What a level still has to do does not mention the name. -/
inductive Level.Avoids (spare : Symbol) : Level → Prop
  | branch {consequent : Node} {alternate : Option Node} {frame : FrameId} :
      consequent.Avoids spare → (∀ node ∈ alternate, node.Avoids spare) →
      Avoids spare (.branch consequent alternate frame)
  | sequence {rest : List Node} {frame : FrameId} :
      (∀ node ∈ rest, node.Avoids spare) → Avoids spare (.sequence rest frame)
  | define {name : Symbol} {frame : FrameId} :
      name ≠ spare → Avoids spare (.define name frame)
  | assign {name : Symbol} {frame : FrameId} :
      name ≠ spare → Avoids spare (.assign name frame)
  | operator {operands : List Node} {tail : Bool} {frame : FrameId} :
      (∀ node ∈ operands, node.Avoids spare) → Avoids spare (.operator operands tail frame)
  | operand {procedure : Value} {reversed : List Value} {rest : List Node} {tail : Bool}
      {frame : FrameId} :
      (∀ node ∈ rest, node.Avoids spare) →
      Avoids spare (.operand procedure reversed rest tail frame)
  | binding {name : Symbol} {rest : List (Symbol × Node)} {body : Node} {scope inner : FrameId} :
      name ≠ spare → (∀ binding ∈ rest, InitAvoids spare binding) → body.Avoids spare →
      Avoids spare (.binding name rest body scope inner)
  | loopInit {name : Symbol} {rest : List LoopVariable} {loop : Loop} {frame : FrameId} :
      name ≠ spare → (∀ item ∈ rest, item.Avoids spare) → loop.Avoids spare →
      Avoids spare (.loopInit name rest loop frame)
  | loopTest {loop : Loop} {frame : FrameId} :
      loop.Avoids spare → Avoids spare (.loopTest loop frame)
  | loopCommand {rest : List Node} {loop : Loop} {frame : FrameId} :
      (∀ node ∈ rest, node.Avoids spare) → loop.Avoids spare →
      Avoids spare (.loopCommand rest loop frame)
  | loopStep {name : Symbol} {rest : List LoopVariable} {loop : Loop} {frame next : FrameId} :
      name ≠ spare → (∀ item ∈ rest, item.Avoids spare) → loop.Avoids spare →
      Avoids spare (.loopStep name rest loop frame next)
  | clause {clause : Clause} {rest : List Clause} {frame : FrameId} :
      clause.Avoids spare → (∀ item ∈ rest, item.Avoids spare) →
      Avoids spare (.clause clause rest frame)
  | receiver {argument : Value} {tail : Bool} : Avoids spare (.receiver argument tail)
  | conjunction {rest : List Node} {frame : FrameId} :
      (∀ node ∈ rest, node.Avoids spare) → Avoids spare (.conjunction rest frame)
  | disjunction {rest : List Node} {frame : FrameId} :
      (∀ node ∈ rest, node.Avoids spare) → Avoids spare (.disjunction rest frame)
  | body : Avoids spare .body

def Control.Avoids (spare : Symbol) : Control → Prop
  | .run code _ => code.Avoids spare
  | .give _ => True

/-! ## Stores with a binding to spare -/

variable {holder : FrameId} {spare : Symbol} {kept : Value}

/-- A frame binds the name to the value, and no procedure mentions the name. -/
structure Store.Spares (holder : FrameId) (spare : Symbol) (kept : Value) (store : Store) :
    Prop where
  bound : store.bound? holder spare = some kept
  code : ∀ closure ∈ store.closures, closure.body.Avoids spare

namespace Store.Spares

variable {store : Store} (spares : store.Spares holder spare kept)

include spares

theorem inStore : holder < store.frames.size :=
  lt_size_of_binds (binds_of_bound? spares.bound)

theorem define {name : Symbol} (different : name ≠ spare) (frame : FrameId) (value : Value) :
    (store.define frame name value).Spares holder spare kept where
  bound := by
    rw [bound?_define, if_neg fun same => different same.2.1.symm]
    exact spares.bound
  code := spares.code

theorem enter (parent : FrameId) (bindings : Bindings) :
    (store.enter parent bindings).2.Spares holder spare kept where
  bound := by
    rw [bound?_enter, if_neg (Nat.ne_of_lt spares.inStore)]
    exact spares.bound
  code := spares.code

theorem close (name : Option Symbol) (formals : Formals) {body : Node}
    (avoids : body.Avoids spare) (frame : FrameId) :
    (store.close name formals body frame).2.Spares holder spare kept where
  bound := spares.bound
  code closure member := by
    rcases Array.mem_push.mp member with earlier | rfl
    · exact spares.code closure earlier
    · exact avoids

theorem next (place : Place) : Store.Spares holder spare kept { store with next := place } :=
  ⟨spares.bound, spares.code⟩

theorem bindArguments (formals : Formals) (parent : FrameId) (arguments : List Value) :
    (store.bindArguments formals parent arguments).2.Spares holder spare kept := by
  unfold Store.bindArguments
  cases formals.rest with
  | none => exact spares.enter parent _
  | some rest => exact (spares.next _).enter parent _

end Store.Spares

/-! ## Two machines side by side -/

namespace World

def without (world : World) (holder : FrameId) (spare : Symbol) : World :=
  { world with store := world.store.without holder spare }

variable (world : World)

theorem record_without (holder : FrameId) (spare : Symbol) (record : Record) :
    (world.without holder spare).record record = (world.record record).without holder spare := by
  unfold World.record without
  dsimp only
  split <;> rfl

theorem observe_without (holder : FrameId) (spare : Symbol) (depth : Nat) (kind : Kind) :
    (world.without holder spare).observe depth kind =
      (world.observe depth kind).without holder spare :=
  record_without { world with tally := world.tally.map (Tally.add kind) } holder spare _

theorem define_without (holder : FrameId) {name : Symbol} (different : name ≠ spare)
    (frame : FrameId) (value : Value) :
    (world.without holder spare).define frame name value =
      (world.define frame name value).without holder spare := by
  simp only [World.define, without, Store.without_define _ _ different]

theorem child_without (inStore : holder < world.store.frames.size) (spare : Symbol)
    (parent : FrameId) :
    (world.without holder spare).child parent =
      ((world.child parent).1, (world.child parent).2.without holder spare) := by
  have entered : (world.store.without holder spare).child parent =
      ((world.store.child parent).1, (world.store.child parent).2.without holder spare) :=
    world.store.enter_without inStore spare parent []
  simp only [World.child, without, entered]

theorem bindArguments_without (inStore : holder < world.store.frames.size) (spare : Symbol)
    (formals : Formals) (parent : FrameId) (arguments : List Value) :
    (world.without holder spare).bindArguments formals parent arguments =
      ((world.bindArguments formals parent arguments).1,
        (world.bindArguments formals parent arguments).2.without holder spare) := by
  simp only [World.bindArguments, without, Store.bindArguments_without _ inStore]

end World

theorem Machine.predefine_without (world : World) (frame : FrameId)
    {bindings : List (Symbol × Node)} (avoids : ∀ binding ∈ bindings, InitAvoids spare binding) :
    predefine (world.without holder spare) frame bindings =
      (predefine world frame bindings).without holder spare := by
  induction bindings generalizing world with
  | nil => rfl
  | cons binding rest induction =>
      have ⟨here, others⟩ := List.forall_mem_cons.mp avoids
      have defined := world.define_without holder here.1 frame .nil
      simp only [predefine, List.foldl_cons, defined]
      exact induction _ others

def Machine.without (machine : Machine) (holder : FrameId) (spare : Symbol) : Machine :=
  { machine with world := machine.world.without holder spare }

def Progress.without (holder : FrameId) (spare : Symbol) : Progress → Progress
  | .running control machine => .running control (machine.without holder spare)
  | .ended outcome world => .ended outcome (world.without holder spare)

/-- The store has the binding to spare, and nothing that is still to be done mentions it. -/
structure Machine.Spares (holder : FrameId) (spare : Symbol) (kept : Value)
    (machine : Machine) : Prop where
  store : machine.world.store.Spares holder spare kept
  levels : ∀ level ∈ machine.levels, level.Avoids spare

def Progress.Spares (holder : FrameId) (spare : Symbol) (kept : Value) : Progress → Prop
  | .running control machine => machine.Spares holder spare kept ∧ control.Avoids spare
  | .ended _ world => world.store.Spares holder spare kept

/-- Two machines have come to the same point, the first one with the binding to spare and
the second one without it. -/
structure Progress.Twins (holder : FrameId) (spare : Symbol) (kept : Value)
    (full plain : Progress) : Prop where
  spares : full.Spares holder spare kept
  same : plain = full.without holder spare

namespace Machine.Spares

variable {limit : Nat} {frame : FrameId} {machine : Machine}
  (spares : machine.Spares holder spare kept)

include spares

theorem withWorld {world : World} (store : world.store.Spares holder spare kept) :
    Machine.Spares holder spare kept { machine with world := world } :=
  ⟨store, spares.levels⟩

theorem define {name : Symbol} (different : name ≠ spare) (frame : FrameId) (value : Value) :
    Machine.Spares holder spare kept
      { machine with world := machine.world.define frame name value } :=
  spares.withWorld (spares.store.define different frame value)

theorem child (parent : FrameId) :
    Machine.Spares holder spare kept { machine with world := (machine.world.child parent).2 } :=
  spares.withWorld (spares.store.enter parent [])

theorem record (record : Record) :
    Machine.Spares holder spare kept { machine with world := machine.world.record record } := by
  apply spares.withWorld
  rw [World.store_record]
  exact spares.store

theorem predefine (frame : FrameId) {bindings : List (Symbol × Node)}
    (avoid : ∀ binding ∈ bindings, InitAvoids spare binding) :
    Machine.Spares holder spare kept
      { machine with world := Machine.predefine machine.world frame bindings } := by
  induction bindings generalizing machine with
  | nil => exact spares
  | cons binding rest induction =>
      have ⟨here, others⟩ := List.forall_mem_cons.mp avoid
      exact induction (spares.define here.1 frame .nil) others

/-! ### Moves -/

theorem give (value : Value) :
    Progress.Twins holder spare kept (machine.give value)
      ((machine.without holder spare).give value) :=
  ⟨⟨spares, trivial⟩, rfl⟩

theorem proceed {code : Node} (avoids : code.Avoids spare) (frame : FrameId) :
    Progress.Twins holder spare kept (machine.proceed code frame)
      ((machine.without holder spare).proceed code frame) :=
  ⟨⟨spares, avoids⟩, rfl⟩

theorem fail (error : RunError) :
    Progress.Twins holder spare kept (machine.fail error)
      ((machine.without holder spare).fail error) :=
  ⟨spares.store, rfl⟩

theorem suspend {level : Level} (levelAvoids : level.Avoids spare) {code : Node}
    (avoids : code.Avoids spare) (frame : FrameId) :
    Progress.Twins holder spare kept (machine.suspend limit level code frame)
      ((machine.without holder spare).suspend limit level code frame) := by
  by_cases fits : machine.depth < limit
  · have fitsWithout : (machine.without holder spare).depth < limit := fits
    have levels := List.forall_mem_cons.mpr ⟨levelAvoids, spares.levels⟩
    rw [Machine.suspend, if_pos fits, Machine.suspend, if_pos fitsWithout]
    exact ⟨⟨⟨spares.store, levels⟩, avoids⟩, rfl⟩
  · have fullWithout : ¬ (machine.without holder spare).depth < limit := fits
    rw [Machine.suspend, if_neg fits, Machine.suspend, if_neg fullWithout]
    exact spares.fail .tooDeep

/-! ### Sequences and tests -/

theorem runSequence {parts : List Node} (avoid : ∀ part ∈ parts, part.Avoids spare) :
    Progress.Twins holder spare kept (machine.runSequence limit frame parts)
      ((machine.without holder spare).runSequence limit frame parts) := by
  rcases parts with _ | ⟨first, _ | ⟨second, rest⟩⟩
  · exact spares.give .nil
  · exact spares.proceed (avoid first (by simp)) frame
  · have ⟨here, others⟩ := List.forall_mem_cons.mp avoid
    exact spares.suspend (.sequence others) here frame

theorem runConjunction {tests : List Node} (avoid : ∀ test ∈ tests, test.Avoids spare) :
    Progress.Twins holder spare kept (machine.runConjunction limit frame tests)
      ((machine.without holder spare).runConjunction limit frame tests) := by
  rcases tests with _ | ⟨first, _ | ⟨second, rest⟩⟩
  · exact spares.give (.boolean true)
  · exact spares.proceed (avoid first (by simp)) frame
  · have ⟨here, others⟩ := List.forall_mem_cons.mp avoid
    exact spares.suspend (.conjunction others) here frame

theorem runDisjunction {tests : List Node} (avoid : ∀ test ∈ tests, test.Avoids spare) :
    Progress.Twins holder spare kept (machine.runDisjunction limit frame tests)
      ((machine.without holder spare).runDisjunction limit frame tests) := by
  rcases tests with _ | ⟨first, _ | ⟨second, rest⟩⟩
  · exact spares.give (.boolean false)
  · exact spares.proceed (avoid first (by simp)) frame
  · have ⟨here, others⟩ := List.forall_mem_cons.mp avoid
    exact spares.suspend (.disjunction others) here frame

theorem runClauses {items : List Clause} (avoid : ∀ item ∈ items, item.Avoids spare) :
    Progress.Twins holder spare kept (machine.runClauses limit frame items)
      ((machine.without holder spare).runClauses limit frame items) := by
  rcases items with _ | ⟨item, rest⟩
  · exact spares.give .nil
  · have ⟨here, others⟩ := List.forall_mem_cons.mp avoid
    cases item with
    | otherwise body => exact spares.proceed (here body (.head _)) frame
    | _ => exact spares.suspend (.clause here others) (here _ (.head _)) frame

/-! ### Calls -/

theorem callPrimitive (operation : Primitive) (arguments : List Value) :
    Progress.Twins holder spare kept (machine.callPrimitive operation arguments)
      ((machine.without holder spare).callPrimitive operation arguments) := by
  have next : (machine.without holder spare).world.store.next = machine.world.store.next := rfl
  simp only [Machine.callPrimitive, next]
  rcases operation.operation.answer? machine.world.store.next arguments with _ | fault | answer
  · exact spares.fail _
  · exact spares.fail _
  · exact (spares.withWorld (spares.store.next answer.next)).give answer.value

theorem callCompound (place : Place) (name : Option Symbol) (formals : Formals)
    (arguments : List Value) (tail : Bool) :
    Progress.Twins holder spare kept
      (machine.callCompound limit place name formals arguments tail)
      ((machine.without holder spare).callCompound limit place name formals arguments tail) := by
  have closures :
      (machine.without holder spare).world.store.closures = machine.world.store.closures := rfl
  simp only [Machine.callCompound, closures]
  cases found : machine.world.store.closures[place]? with
  | none => exact spares.fail _
  | some closure =>
      have avoids := spares.store.code closure (Array.mem_of_getElem? found)
      have bound := spares.store.bindArguments formals closure.frame arguments
      have without := machine.world.bindArguments_without spares.store.inStore spare formals
        closure.frame arguments
      simp only [Machine.without, without, World.record_without]
      split
      · cases tail with
        | false => exact (spares.withWorld bound).suspend .body avoids _
        | true => exact ((spares.withWorld bound).record _).proceed avoids _
      · exact spares.fail _

theorem call (procedure : Value) (arguments : List Value) (tail : Bool) :
    Progress.Twins holder spare kept (machine.call limit procedure arguments tail)
      ((machine.without holder spare).call limit procedure arguments tail) := by
  rcases procedure with _ | _ | _ | _ | _ | _ | ⟨operation | ⟨place, name, formals⟩⟩
  case procedure.primitive => exact spares.callPrimitive operation arguments
  case procedure.compound => exact spares.callCompound place name formals arguments tail
  all_goals exact spares.fail _

theorem runOperands (procedure : Value) (reversed : List Value) (tail : Bool)
    {operands : List Node} (avoid : ∀ operand ∈ operands, operand.Avoids spare) :
    Progress.Twins holder spare kept
      (machine.runOperands limit procedure reversed tail frame operands)
      ((machine.without holder spare).runOperands limit procedure reversed tail frame
        operands) := by
  cases operands with
  | nil => exact spares.call procedure reversed.reverse tail
  | cons operand rest =>
      have ⟨here, others⟩ := List.forall_mem_cons.mp avoid
      exact spares.suspend (.operand others) here frame

/-! ### Bindings and loops -/

theorem runBindings {body : Node} (bodyAvoids : body.Avoids spare) (scope inner : FrameId)
    {bindings : List (Symbol × Node)} (avoid : ∀ binding ∈ bindings, InitAvoids spare binding) :
    Progress.Twins holder spare kept (machine.runBindings limit body scope inner bindings)
      ((machine.without holder spare).runBindings limit body scope inner bindings) := by
  cases bindings with
  | nil => exact spares.proceed bodyAvoids inner
  | cons binding rest =>
      have ⟨here, others⟩ := List.forall_mem_cons.mp avoid
      exact spares.suspend (.binding here.1 others bodyAvoids) here.2 scope

theorem runLoopInits {loop : Loop} (loopAvoids : loop.Avoids spare)
    {varying : List LoopVariable} (avoid : ∀ item ∈ varying, item.Avoids spare) :
    Progress.Twins holder spare kept (machine.runLoopInits limit loop frame varying)
      ((machine.without holder spare).runLoopInits limit loop frame varying) := by
  rcases varying with _ | ⟨⟨name, init, step⟩, rest⟩
  · exact spares.suspend (.loopTest loopAvoids) loopAvoids.test frame
  · have ⟨here, others⟩ := List.forall_mem_cons.mp avoid
    exact spares.suspend (.loopInit here.1 others loopAvoids) (here.2 init (.head _)) loop.outer

theorem runLoopSteps {loop : Loop} (loopAvoids : loop.Avoids spare) (next : FrameId)
    {varying : List LoopVariable} (avoid : ∀ item ∈ varying, item.Avoids spare) :
    Progress.Twins holder spare kept (machine.runLoopSteps limit loop frame next varying)
      ((machine.without holder spare).runLoopSteps limit loop frame next varying) := by
  induction varying generalizing machine with
  | nil =>
      simp only [Machine.runLoopSteps, Machine.without, World.record_without]
      exact (spares.record _).suspend (.loopTest loopAvoids) loopAvoids.test next
  | cons item rest induction =>
      have ⟨here, others⟩ := List.forall_mem_cons.mp avoid
      rcases item with ⟨name, init, _ | step⟩
      · have different : name ≠ spare := here.1
        have seen : (machine.without holder spare).world.store.get? frame name =
            machine.world.store.get? frame name :=
          machine.world.store.get?_without holder different frame
        simp only [Machine.runLoopSteps, seen]
        cases machine.world.store.get? frame name with
        | none => exact spares.fail _
        | some value =>
            simp only [Machine.without, World.define_without _ _ different]
            exact induction (spares.define different next value) others
      · have avoids := here.2 step (by simp [LoopVariable.parts])
        exact spares.suspend (.loopStep here.1 others loopAvoids) avoids frame

theorem runLoopCommands {loop : Loop} (loopAvoids : loop.Avoids spare) {commands : List Node}
    (avoid : ∀ command ∈ commands, command.Avoids spare) :
    Progress.Twins holder spare kept (machine.runLoopCommands limit loop frame commands)
      ((machine.without holder spare).runLoopCommands limit loop frame commands) := by
  cases commands with
  | nil =>
      simp only [Machine.runLoopCommands, Machine.without,
        World.child_without _ spares.store.inStore]
      exact (spares.child loop.outer).runLoopSteps loopAvoids _ loopAvoids.varying
  | cons command rest =>
      have ⟨here, others⟩ := List.forall_mem_cons.mp avoid
      exact spares.suspend (.loopCommand others loopAvoids) here frame

/-! ### Steps -/

theorem execute {code : Node} (avoids : code.Avoids spare) :
    Progress.Twins holder spare kept (machine.execute limit frame code)
      ((machine.without holder spare).execute limit frame code) := by
  have part {inner : Node} (member : inner ∈ code.parts) : inner.Avoids spare :=
    avoids.part member
  have names := (Node.avoids_iff.mp avoids).1
  cases code with
  | literal value => exact spares.give value
  | quote value => exact spares.give value
  | «variable» name =>
      have different : name ≠ spare := fun same => names (by simp [Node.names, same])
      have seen : (machine.without holder spare).world.store.get? frame name =
          machine.world.store.get? frame name :=
        machine.world.store.get?_without holder different frame
      simp only [Machine.execute, seen]
      cases machine.world.store.get? frame name with
      | some value => exact spares.give value
      | none => exact spares.fail _
  | branch test consequent alternate =>
      have alternates : ∀ node ∈ alternate, node.Avoids spare :=
        fun node member => part (.tail _ (.tail _ (Option.mem_toList.mpr member)))
      exact spares.suspend (.branch (part (.tail _ (.head _))) alternates) (part (.head _)) frame
  | sequence parts => exact spares.runSequence fun _ => part
  | lambda name formals body =>
      exact (spares.withWorld (spares.store.close name formals (part (.head _)) frame)).give _
  | define name value =>
      have different : name ≠ spare := fun same => names (by simp [Node.names, same])
      exact spares.suspend (.define different) (part (.head _)) frame
  | assign name value =>
      have different : name ≠ spare := fun same => names (by simp [Node.names, same])
      exact spares.suspend (.assign different) (part (.head _)) frame
  | call operator operands tail =>
      have others : ∀ operand ∈ operands, operand.Avoids spare :=
        fun operand member => part (.tail _ member)
      exact spares.suspend (.operator others) (part (.head _)) frame
  | letIn bindings body =>
      have inits := initAvoids_of_mem names fun init member => part (.tail _ member)
      simp only [Machine.execute, Machine.without, World.child_without _ spares.store.inStore]
      exact (spares.child frame).runBindings (part (.head _)) frame _ inits
  | letrec bindings body =>
      have inits := initAvoids_of_mem names fun init member => part (.tail _ member)
      simp only [Machine.execute, Machine.without, World.child_without _ spares.store.inStore,
        predefine_without _ _ inits]
      exact ((spares.child frame).predefine _ inits).runBindings (part (.head _)) _ _ inits
  | loop varying test result commands =>
      have loopAvoids : Loop.Avoids spare ⟨varying, test, result, commands, frame⟩ :=
        .of_node avoids
      simp only [Machine.execute, Machine.without, World.child_without _ spares.store.inStore]
      exact (spares.child frame).runLoopInits loopAvoids loopAvoids.varying
  | cond clauses =>
      refine spares.runClauses fun item member inner inItem => part ?_
      exact List.mem_flatMap.mpr ⟨item, member, inItem⟩
  | conjunction tests => exact spares.runConjunction fun _ => part
  | disjunction tests => exact spares.runDisjunction fun _ => part

theorem resume (value : Value) {level : Level} (avoids : level.Avoids spare) :
    Progress.Twins holder spare kept (machine.resume limit value level)
      ((machine.without holder spare).resume limit value level) := by
  cases avoids with
  | @branch consequent alternate frame consequentAvoids alternateAvoids =>
      simp only [Machine.resume]
      split
      · exact spares.proceed consequentAvoids frame
      · cases alternate with
        | some alternate => exact spares.proceed (alternateAvoids alternate rfl) frame
        | none => exact spares.give .nil
  | sequence rest => exact spares.runSequence rest
  | @define name frame different =>
      simp only [Machine.resume, Machine.without, World.define_without _ _ different]
      exact (spares.define different frame value).give .nil
  | @assign name frame different =>
      have found : (machine.without holder spare).world.store.nearest? name frame =
          machine.world.store.nearest? name frame :=
        machine.world.store.nearest?_without holder different frame
      simp only [Machine.resume, found]
      cases machine.world.store.nearest? name frame with
      | some nearest =>
          simp only [Machine.without, World.define_without _ _ different]
          exact (spares.define different nearest value).give value
      | none => exact spares.fail _
  | operator operands => exact spares.runOperands value [] _ operands
  | @operand procedure reversed _ tail _ rest =>
      exact spares.runOperands procedure (value :: reversed) tail rest
  | @binding name rest body scope inner different others bodyAvoids =>
      simp only [Machine.resume, Machine.without, World.define_without _ _ different]
      exact (spares.define different inner value).runBindings bodyAvoids scope inner others
  | @loopInit name rest loop frame different others loopAvoids =>
      simp only [Machine.resume, Machine.without, World.define_without _ _ different]
      exact (spares.define different frame value).runLoopInits loopAvoids others
  | @loopTest loop frame loopAvoids =>
      simp only [Machine.resume]
      split
      · cases found : loop.result with
        | some result => exact spares.proceed (loopAvoids.result result found) frame
        | none => exact spares.give .nil
      · exact spares.runLoopCommands loopAvoids loopAvoids.commands
  | loopCommand rest loopAvoids => exact spares.runLoopCommands loopAvoids rest
  | @loopStep name rest loop frame next different others loopAvoids =>
      simp only [Machine.resume, Machine.without, World.define_without _ _ different]
      exact (spares.define different next value).runLoopSteps loopAvoids next others
  | @clause item rest frame here others =>
      simp only [Machine.resume]
      split
      · cases item with
        | test test => exact spares.give value
        | arrow test receiver tail =>
            exact spares.suspend .receiver (here receiver (.tail _ (.head _))) frame
        | body test body => exact spares.proceed (here body (.tail _ (.head _))) frame
        | otherwise body => exact spares.proceed (here body (.head _)) frame
      · exact spares.runClauses others
  | @receiver argument tail => exact spares.call value [argument] tail
  | conjunction rest =>
      simp only [Machine.resume]
      split
      · exact spares.runConjunction rest
      · exact spares.give value
  | disjunction rest =>
      simp only [Machine.resume]
      split
      · exact spares.give value
      · exact spares.runDisjunction rest
  | body => exact spares.give value

theorem step {control : Control} (avoids : control.Avoids spare) :
    Progress.Twins holder spare kept (machine.step limit control)
      ((machine.without holder spare).step limit control) := by
  cases control with
  | run code frame =>
      have observed : machine.world.store.Spares holder spare kept := spares.store
      rw [← World.store_observe machine.world machine.depth code.kind] at observed
      simp only [Machine.step, Machine.without, World.observe_without]
      exact (spares.withWorld observed).execute avoids
  | give value =>
      have levels : (machine.without holder spare).levels = machine.levels := rfl
      simp only [Machine.step, levels]
      cases found : machine.levels with
      | nil => exact ⟨spares.store, rfl⟩
      | cons level rest =>
          have ⟨here, others⟩ := List.forall_mem_cons.mp (found ▸ spares.levels)
          have outer : Machine.Spares holder spare kept
              { machine with levels := rest, depth := machine.depth - 1 } :=
            ⟨spares.store, others⟩
          exact outer.resume value here

end Machine.Spares

/-! ## Whole runs -/

namespace Progress

variable {limit fuel : Nat} {full : Progress}

/-- Without the binding a run comes to the same end, but for the binding. -/
theorem finish_without (spares : full.Spares holder spare kept) :
    (full.without holder spare).finish limit fuel =
      (full.finish limit fuel).map fun (outcome, final) =>
        (outcome, final.without holder spare) := by
  induction fuel generalizing full with
  | zero => cases full <;> rfl
  | succ fuel induction =>
      cases full with
      | running control machine =>
          have twins : Twins holder spare kept (machine.step limit control)
              ((machine.without holder spare).step limit control) := spares.1.step spares.2
          rw [without, finish_running, Machine.run_succ, finish_running, Machine.run_succ,
            twins.same]
          exact induction twins.spares
      | ended outcome world => rfl

/-- The binding is there in the end. -/
theorem Spares.of_finish (spares : full.Spares holder spare kept)
    {outcome : Except RunError Value} {final : World}
    (finished : full.finish limit fuel = some (outcome, final)) :
    final.store.Spares holder spare kept := by
  induction fuel generalizing full with
  | zero =>
      cases full with
      | running control machine => cases finished
      | ended outcome world =>
          cases finished
          exact spares
  | succ fuel induction =>
      cases full with
      | running control machine =>
          have twins : Twins holder spare kept (machine.step limit control)
              ((machine.without holder spare).step limit control) := spares.1.step spares.2
          rw [finish_running, Machine.run_succ] at finished
          exact induction twins.spares finished
      | ended outcome world =>
          cases finished
          exact spares

end Progress

namespace World

variable (world : World) (limit : Nat) {code : Node} (frame : FrameId)

theorem start_without (holder : FrameId) (spare : Symbol) (code : Node) :
    (world.without holder spare).start limit code frame =
      (world.start limit code frame).without holder spare := by
  rw [World.start, World.start]
  split <;> rfl

theorem start_spares {world : World} (store : world.store.Spares holder spare kept)
    (avoids : code.Avoids spare) :
    (world.start limit code frame).Spares holder spare kept := by
  rw [World.start]
  split
  · exact ⟨⟨store, List.forall_mem_nil _⟩, avoids⟩
  · exact store

end World

/-- If a frame does not bind a name, and neither a program nor any procedure in the store
mentions it, then a binding of the name in that frame makes no difference to the program,
whatever its value is: under every limit the run has the same outcome and the same output
with it as without it, its final store is the same but for the binding, and the binding is
still there. -/
theorem run_unmentioned (world : World) (holder : FrameId) (spare : Symbol) (kept : Value)
    (inStore : holder < world.store.frames.size)
    (unbound : world.store.binds holder spare = false)
    (procedures : ∀ closure ∈ world.store.closures, closure.body.Avoids spare)
    {code : Node} (avoids : code.Avoids spare) (frame : FrameId) (limit fuel : Nat) :
    (world.run limit fuel code frame =
      ((world.define holder spare kept).run limit fuel code frame).map fun (outcome, final) =>
        (outcome, final.without holder spare)) ∧
    ∀ outcome final, (world.define holder spare kept).run limit fuel code frame =
        some (outcome, final) → final.store.bound? holder spare = some kept := by
  have without : (world.define holder spare kept).without holder spare = world := by
    simp only [World.without, World.define, Store.without_define_self _ _ unbound]
  have store : (world.define holder spare kept).store.Spares holder spare kept := by
    refine ⟨?_, procedures⟩
    rw [World.define, Store.bound?_define, if_pos ⟨rfl, rfl, inStore⟩]
  have spares := World.start_spares limit frame store avoids
  rw [World.run_eq_finish, World.run_eq_finish]
  constructor
  · have start := World.start_without (world.define holder spare kept) limit frame holder spare code
    rw [without] at start
    rw [start]
    exact Progress.finish_without spares
  · intro outcome final finished
    exact (spares.of_finish finished).bound

/-- `(begin (define y #t) (display y) (set! y #f) (car y))` -/
def reassigned : Node :=
  let y : Symbol := ⟨"y"⟩
  .sequence [.define y (.literal (.boolean true)),
    .call (.variable ⟨"display"⟩) [.variable y] false,
    .assign y (.literal (.boolean false)),
    .call (.variable ⟨"car"⟩) [.variable y] true]

/-- The program binds a name of its own beside `x`, and fails in the end. -/
theorem run_unmentioned_reassigned :
    let world := World.ofStore .standard
    let x : Symbol := ⟨"x"⟩
    let error : RunError := .primitive .car (.wrongType .pair (.boolean false))
    ∃ final : World, world.store.binds 0 x = false ∧
      (world.define 0 x .nil).run 9 60 reassigned 0 = some (.error error, final) ∧
      world.run 9 60 reassigned 0 = some (.error error, final.without 0 x) ∧
      final.output = "#t" ∧ final.store.bound? 0 x = some .nil ∧
      final.store.bound? 0 ⟨"y"⟩ = some (.boolean false) := by
  intro world x error
  have unbound : world.store.binds 0 x = false := by decide
  have procedures : ∀ closure ∈ world.store.closures, closure.body.Avoids x := by
    simp [world, World.ofStore, Store.standard, Store.empty]
  have avoids : reassigned.Avoids x := by
    simp [reassigned, Node.avoids_iff, Node.names, Node.locals, Node.parts, x]
  rcases run_unmentioned world 0 x .nil (by decide) unbound procedures avoids 0 9 60 with
    ⟨same, still⟩
  have ran : ((world.define 0 x .nil).run 9 60 reassigned 0).map
      (fun answer => (answer.1, answer.2.output, answer.2.store.bound? 0 ⟨"y"⟩)) =
        some (.error error, "#t", some (.boolean false)) := by
    cbv
  rcases Option.map_eq_some_iff.mp ran with ⟨⟨outcome, final⟩, ended, equal⟩
  rcases Prod.mk.inj equal with ⟨rfl, rest⟩
  rcases Prod.mk.inj rest with ⟨written, y⟩
  rw [ended] at same
  exact ⟨final, unbound, ended, same, written, still _ _ ended, y⟩

end SmallScheme
