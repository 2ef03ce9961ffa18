import Mathlib
import SmallScheme.Proofs.Frames.Evaluation
import SmallScheme.Proofs.Sessions

namespace SmallScheme

/-! # Reserved names

Compiled code binds variables only, and so do the frames that it makes: in a session that
starts without reserved names no frame ever binds one, whatever texts are evaluated and
however that ends. -/

open Grammar

/-- A parameter list whose names can be bound together. -/
def Formals.Free (formals : Formals) : Prop :=
  AreVariables formals.names

theorem Node.AllBuilt.mono {known other : Procedure → Prop} {node : Node}
    (built : node.AllBuilt known) (implies : ∀ callee, known callee → other callee) :
    node.AllBuilt other := by
  intro inner within
  have here := built inner within
  cases inner with
  | literal value => exact here.mono implies
  | quote value => exact here.mono implies
  | _ => exact here

/-! ## Stores without reserved names -/

/-- Frames bind variables only, and all code in the store is as the compiler builds it. -/
structure Store.Unreserved (store : Store) : Prop where
  parent : ∀ {frame parent}, store.parent? frame = some parent → parent < frame
  bound : ∀ {frame name value}, store.bound? frame name = some value →
    IsVariable name ∧ value.Known Formals.Free store
  closure : ∀ closure ∈ store.closures,
    closure.frame < store.frames.size ∧
      closure.body.AllBuilt (Procedure.Known Formals.Free store)

namespace Store

theorem Unreserved.isVariable {store : Store} (unreserved : store.Unreserved) {frame : FrameId}
    {name : Symbol} (binds : store.binds frame name = true) : IsVariable name := by
  rcases Option.isSome_iff_exists.mp binds with ⟨value, found⟩
  exact (unreserved.bound found).1

/-- A store without compound procedures has no code in it. -/
theorem WellFormed.unreserved {store : Store} (wellFormed : store.WellFormed)
    (noCode : store.closures = #[])
    (names : ∀ frame name, store.binds frame name = true → IsVariable name) :
    store.Unreserved where
  parent := wellFormed.parent
  bound found := by
    refine ⟨names _ _ (binds_of_bound? found), (wellFormed.value found).mono fun callee lives => ?_⟩
    cases callee with
    | primitive operation => trivial
    | compound place name formals => simp [Procedure.Lives, noCode] at lives
  closure closure member := by simp [noCode] at member

theorem standard_isVariable (frame : FrameId) (name : Symbol)
    (binds : standard.binds frame name = true) : IsVariable name := by
  rcases Option.isSome_iff_exists.mp binds with ⟨value, found⟩
  cases frame with
  | zero =>
      have member := Bindings.mem_of_get? found
      rcases List.mem_map.mp member with ⟨operation, _, same⟩
      cases same
      cases operation <;> decide
  | succ frame => cases found

end Store

namespace Licence

/-- Code as the compiler builds it may be run, and new frames may bind variables. -/
def ofBuilt (base : Store) : Licence base where
  code := Node.AllBuilt (Procedure.Known Formals.Free base)
  formals := Formals.Free
  names := IsVariable
  part built member := (Node.everywhere_iff.mp built).2 _ member
  constant {node} built := by
    have here := built node .self
    cases node with
    | literal value => exact List.forall_mem_singleton.mpr here
    | quote value => exact List.forall_mem_singleton.mpr here
    | _ => exact List.forall_mem_nil _
  lambda built := (built _ .self).2
  locals {node} built := by
    have here := built node .self
    cases node with
    | letIn bindings body => exact here.2
    | letrec bindings body => exact here.2
    | loop varying test result commands => exact here.2
    | _ => exact List.forall_mem_nil _
  parameters free := free.2

/-- Every frame binds variables only. -/
def OnlyVariables (_ : FrameId) (name : Symbol) : Prop :=
  IsVariable name

variable {base store : Store}

theorem ofBuilt_allows (unreserved : base.Unreserved) :
    (ofBuilt base).Allows OnlyVariables base where
  fresh _ _ _ isVariable := isVariable
  grows := .refl base
  parent := unreserved.parent
  bound := unreserved.bound
  closure := unreserved.closure

theorem ofBuilt_defines {name : Symbol} (defines : (ofBuilt base).Defines name) :
    IsVariable name := by
  rcases defines with ⟨value, built⟩
  exact built _ .self

theorem Allows.unreserved (allows : (ofBuilt base).Allows OnlyVariables store) :
    store.Unreserved where
  parent := allows.parent
  bound := allows.bound
  closure closure member := by
    have ⟨inStore, built⟩ := allows.closure closure member
    refine ⟨inStore, Node.AllBuilt.mono built fun callee known => ?_⟩
    have value : Datum.Known Formals.Free base (.procedure callee) := known
    exact allows.grows.known value

end Licence

/-! ## Sessions without reserved names -/

namespace Session

structure Unreserved (session : Session) : Prop where
  store : session.world.store.Unreserved
  root : session.root < session.world.store.frames.size

variable {session next : Session} {datum : Source} {fuel : Nat}

theorem Unreserved.holding (unreserved : session.Unreserved) (datum : Source) :
    (session.holding datum).Unreserved :=
  ⟨((Licence.ofBuilt_allows unreserved.store).next _).unreserved, unreserved.root⟩

/-- Whatever the run of a datum reaches has no reserved names. -/
theorem Unreserved.run (unreserved : session.Unreserved) (readable : datum.Readable) {code : Node}
    (compiled : Node.ofDatum (session.placed datum) = .ok code) {progress : Progress}
    (reaches : Progress.Reaches session.limit (session.start datum code) progress) :
    progress.Sound (Licence.ofBuilt (session.holding datum).world.store)
      Licence.OnlyVariables := by
  have held := unreserved.holding datum
  have built : (Licence.ofBuilt (session.holding datum).world.store).code code :=
    Node.compile_built true (readable.procedures _ _) code compiled
  have same := World.store_record (session.holding datum).world
    (.compiled (session.placed datum) code)
  refine reaches.sound ?_ fun _ _ _ _ _ => Licence.ofBuilt_defines
  refine World.startAt_sound ?_ built ?_ session.limit 0
  · rw [same]
    exact Licence.ofBuilt_allows held.store
  · rw [same]
    exact held.root

theorem Unreserved.evalDatum (unreserved : session.Unreserved) (readable : datum.Readable)
    {result : Except EvalError Value}
    (evaluated : session.evalDatum fuel datum = some (result, next)) : next.Unreserved := by
  cases compiled : Node.ofDatum (session.placed datum) with
  | error failure =>
      rw [evalDatum_of_error compiled] at evaluated
      cases evaluated
      exact unreserved.holding datum
  | ok code =>
      rw [evalDatum_of_ok compiled, Option.map_eq_some_iff] at evaluated
      rcases evaluated with ⟨⟨outcome, world⟩, finished, same⟩
      cases same
      have sound := unreserved.run readable compiled (Progress.reaches_of_finish finished)
      constructor
      · rw [World.store_record]
        exact sound.1.unreserved
      · rw [World.store_record]
        exact sound.1.grows.inStore unreserved.root

theorem Unreserved.evalData (unreserved : session.Unreserved) {data : List Source}
    (readable : ∀ datum ∈ data, datum.Readable) {value : Value} {result : Except EvalError Value}
    (evaluated : session.evalData fuel value data = some (result, next)) : next.Unreserved := by
  induction data generalizing session value with
  | nil =>
      cases evaluated
      exact unreserved
  | cons datum data induction =>
      have ⟨first, others⟩ := List.forall_mem_cons.mp readable
      rw [Session.evalData] at evaluated
      split at evaluated
      · cases evaluated
      · rename_i failed
        cases evaluated
        exact unreserved.evalDatum first failed
      · rename_i done
        exact induction (unreserved.evalDatum first done) others evaluated

theorem Unreserved.eval (unreserved : session.Unreserved) {source text : String}
    {result : Except EvalError Value}
    (evaluated : session.eval fuel (Document.ofText source text) = some (result, next)) :
    next.Unreserved := by
  have readable := Document.read_readable (Cursor.start source text)
  unfold Session.eval at evaluated
  split at evaluated
  · rename_i done _
    cases evaluated
    exact unreserved.evalData readable done
  · exact unreserved.evalData readable evaluated

/-- The stores that a session comes to while texts are evaluated in it: the one at hand,
those that the run of a datum reaches after the data before it have been evaluated, and
those that it comes to after a text, whatever the result was. -/
inductive Visits : Session → Store → Prop
  | here (session : Session) : Visits session session.world.store
  | running {session middle : Session} {source text : String} {earlier later : List Source}
      {datum : Source} {fuel : Nat} {value : Value} {code : Node} {progress : Progress} :
      (Document.ofText source text).data = earlier ++ datum :: later →
      session.evalData fuel .nil earlier = some (.ok value, middle) →
      Node.ofDatum (middle.placed datum) = .ok code →
      Progress.Reaches middle.limit (middle.start datum code) progress →
      Visits session progress.store
  | after {session next : Session} {source text : String} {fuel : Nat}
      {result : Except EvalError Value} {store : Store} :
      session.eval fuel (Document.ofText source text) = some (result, next) →
      Visits next store → Visits session store

theorem Unreserved.visits (unreserved : session.Unreserved) {store : Store}
    (visits : session.Visits store) : store.Unreserved := by
  induction visits with
  | here session => exact unreserved.store
  | @running session middle source text earlier later datum _ _ code progress read evaluated
      compiled reaches =>
      have readable := Document.read_readable (Cursor.start source text)
      have split : (Document.read (Cursor.start source text)).data = _ := read
      rw [split, List.forall_mem_append, List.forall_mem_cons] at readable
      have reached := unreserved.evalData readable.1 evaluated
      exact (reached.run readable.2.1 compiled reaches).allows.unreserved
  | after evaluated _ induction => exact induction (unreserved.eval evaluated)

end Session

/-- Everywhere in compiled code the names that are bound together differ, no variable has a
reserved name, a `cond` has clauses of which only the last may have no test, and no sequence
is that of a single expression. So in a session no frame ever binds a reserved name, if it
starts from frames that bind none; those of a store without compound procedures are such. -/
theorem reserved_names_stay_unbound :
    (∀ tail datum node, Node.compile tail datum = .ok node →
      ∀ inner : Node, inner.Within node → inner.Built fun _ => True) ∧
    (∀ store : Store, store.WellFormed → store.closures = #[] →
      (∀ frame name, store.binds frame name = true → IsVariable name) → store.Unreserved) ∧
    ∀ session : Session, session.Unreserved → ∀ store, session.Visits store →
      ∀ frame name, store.binds frame name = true → IsVariable name := by
  refine ⟨?_, ?_, ?_⟩
  · intro tail datum node compiled
    exact Node.compile_built tail datum.procedures_true node compiled
  · intro store wellFormed noCode names
    exact wellFormed.unreserved noCode names
  · intro session unreserved store visits frame name
    exact (unreserved.visits visits).isVariable

/-- A definition of `else` is refused, and the session goes on to define a procedure. -/
theorem reserved_names_stay_unbound_defineElse :
    ∃ middle last : Session,
      Session.standard.eval 9 (.ofText Document.unnamed "(define else 1)") =
        some (.error (.compile (.reservedName ⟨"else"⟩)), middle) ∧
      middle.eval 9 (.ofText Document.unnamed "(define (f x) x)") = some (.ok .nil, last) ∧
      last.world.store.binds 0 ⟨"f"⟩ = true ∧
      ∀ frame name, last.world.store.binds frame name = true → IsVariable name := by
  rcases reserved_names_stay_unbound with ⟨_, noCode, ofSessions⟩
  have unreserved : Session.standard.Unreserved :=
    ⟨noCode _ Store.standard_wellFormed rfl Store.standard_isVariable, by decide⟩
  let wrong : Source := .pair () (.symbol ⟨"define"⟩) (.pair () (.symbol ⟨"else"⟩)
    (.pair () (.number (.integer 1)) .nil))
  let right : Source := .pair () (.symbol ⟨"define"⟩)
    (.pair () (.pair () (.symbol ⟨"f"⟩) (.pair () (.symbol ⟨"x"⟩) .nil))
      (.pair () (.symbol ⟨"x"⟩) .nil))
  have readWrong : (Cursor.start Document.unnamed "(define else 1)").next =
      (.ok (some wrong), ⟨Document.unnamed, 1, []⟩) := by cbv
  have readRight : (Cursor.start Document.unnamed "(define (f x) x)").next =
      (.ok (some right), ⟨Document.unnamed, 1, []⟩) := by cbv
  have refused : Node.ofDatum (Session.standard.placed wrong) =
      .error (.reservedName ⟨"else"⟩) := by cbv
  have ran : ((Session.standard.holding wrong).evalDatum 9 right).map
      (fun answer => (answer.1, answer.2.world.store.binds 0 ⟨"f"⟩)) =
        some (.ok .nil, true) := by cbv
  rcases Option.map_eq_some_iff.mp ran with ⟨⟨_, last⟩, defined, same⟩
  rcases Prod.mk.inj same with ⟨rfl, binds⟩
  have failed := (Session.eval_of_next readWrong rfl Session.standard 9).trans
    (Session.evalDatum_of_error refused)
  have done := (Session.eval_of_next readRight rfl (Session.standard.holding wrong) 9).trans
    defined
  refine ⟨Session.standard.holding wrong, last, failed, done, binds, ?_⟩
  exact ofSessions Session.standard unreserved _ (.after failed (.after done (.here last)))

end SmallScheme
