import SmallScheme.Machine.Call
import SmallScheme.Proofs.Parts
import SmallScheme.Proofs.Procedures

namespace SmallScheme

/-! # Frames and their chains

What a frame binds and which frame it extends, after each operation on a store. In a
well-formed store every frame is younger than its parent, so that from each one a finite
chain leads to a root, and looking up a name is a search along that chain. -/

/-! ## Bindings -/

namespace Bindings

theorem get?_cons (bound : Symbol) (old : Value) (bindings : Bindings) (name : Symbol) :
    get? ((bound, old) :: bindings) name =
      if name = bound then some old else bindings.get? name := by
  by_cases same : name = bound
  · simp [get?, same]
  · have different : (name == bound) = false := by simpa using same
    simp [get?, List.lookup_cons, same, different]

theorem mem_of_get? {bindings : Bindings} {name : Symbol} {value : Value}
    (found : bindings.get? name = some value) : (name, value) ∈ bindings := by
  induction bindings with
  | nil => cases found
  | cons binding bindings induction =>
      rw [get?_cons] at found
      split at found
      · rename_i same
        cases found
        simp [same]
      · exact List.mem_cons_of_mem _ (induction found)

/-- A new value for a name that may be bound. -/
theorem get?_map (bindings : Bindings) (name other : Symbol) (value : Value) :
    get? (bindings.map fun (bound, old) => if bound = name then (bound, value) else (bound, old))
        other =
      if other = name then (bindings.get? name).map fun _ => value else bindings.get? other := by
  induction bindings with
  | nil => simp [get?]
  | cons binding bindings induction =>
      obtain ⟨bound, old⟩ := binding
      rw [List.map_cons, get?_cons bound old, get?_cons bound old]
      dsimp only
      by_cases same : bound = name
      · subst same
        rw [if_pos rfl, get?_cons, induction]
        by_cases target : other = bound <;> simp [target]
      · rw [if_neg same, get?_cons, induction]
        by_cases target : other = name
        · subst target
          have different : other ≠ bound := fun equal => same equal.symm
          simp [different]
        · simp [target]

theorem get?_insert (bindings : Bindings) (name other : Symbol) (value : Value) :
    (bindings.insert name value).get? other =
      if other = name then some value else bindings.get? other := by
  unfold insert
  split
  · rename_i bound
    obtain ⟨old, found⟩ := Option.isSome_iff_exists.mp bound
    rw [get?_map, found]
    rfl
  · exact get?_cons name value bindings other

/-- What is bound behind some pairs stands in one of them, or was bound before. -/
theorem mem_of_get?_foldl {pairs : List (Symbol × Value)} {bindings : Bindings} {name : Symbol}
    {value : Value}
    (found : get? (pairs.foldl (fun bindings (name, value) => bindings.insert name value) bindings)
      name = some value) :
    (name, value) ∈ pairs ∨ bindings.get? name = some value := by
  induction pairs generalizing bindings with
  | nil => exact .inr found
  | cons pair pairs induction =>
      rcases induction found with member | earlier
      · exact .inl (List.mem_cons_of_mem pair member)
      · rw [get?_insert] at earlier
        split at earlier
        · rename_i same
          cases earlier
          exact .inl (by simp [same])
        · exact .inr earlier

theorem mem_of_get?_ofPairs {pairs : List (Symbol × Value)} {name : Symbol} {value : Value}
    (found : (ofPairs pairs).get? name = some value) : (name, value) ∈ pairs := by
  rcases mem_of_get?_foldl found with member | earlier
  · exact member
  · cases earlier

end Bindings

/-! ## Operations on frames -/

namespace Store

/-- The frame that a frame extends. -/
def parent? (store : Store) (frame : FrameId) : Option FrameId :=
  store.frames[frame]?.bind Frame.parent

/-- The value that a frame itself gives to a name. -/
def bound? (store : Store) (frame : FrameId) (name : Symbol) : Option Value :=
  store.frames[frame]?.bind fun found => found.bindings.get? name

def binds (store : Store) (frame : FrameId) (name : Symbol) : Bool :=
  (store.bound? frame name).isSome

variable (store : Store)

theorem binds_of_bound? {store : Store} {frame : FrameId} {name : Symbol} {value : Value}
    (found : store.bound? frame name = some value) : store.binds frame name = true := by
  simp [binds, found]

theorem lt_size_of_binds {store : Store} {frame : FrameId} {name : Symbol}
    (binds : store.binds frame name = true) : frame < store.frames.size := by
  apply Decidable.by_contra
  intro outside
  simp [Store.binds, bound?, Nat.le_of_not_lt outside] at binds

theorem parent?_enter (parent : FrameId) (bindings : Bindings) (frame : FrameId) :
    (store.enter parent bindings).2.parent? frame =
      if frame = store.frames.size then some parent else store.parent? frame := by
  simp only [parent?, enter, Array.getElem?_push]
  split <;> rfl

theorem bound?_enter (parent : FrameId) (bindings : Bindings) (frame : FrameId) (name : Symbol) :
    (store.enter parent bindings).2.bound? frame name =
      if frame = store.frames.size then bindings.get? name else store.bound? frame name := by
  simp only [bound?, enter, Array.getElem?_push]
  split <;> rfl

theorem size_enter (parent : FrameId) (bindings : Bindings) :
    (store.enter parent bindings).2.frames.size = store.frames.size + 1 :=
  Array.size_push _

theorem child_lt_size (parent : FrameId) :
    (store.child parent).1 < (store.child parent).2.frames.size := by
  have size := store.size_enter parent []
  exact Nat.lt_of_lt_of_eq (Nat.lt_succ_self _) size.symm

/-- The new frame of a call is in the store. -/
theorem bindArguments_lt_size (formals : Formals) (parent : FrameId) (arguments : List Value) :
    (store.bindArguments formals parent arguments).1 <
      (store.bindArguments formals parent arguments).2.frames.size := by
  unfold bindArguments
  dsimp only
  split
  · rw [size_enter]
    exact Nat.lt_succ_self _
  · rw [size_enter]
    exact Nat.lt_succ_self _

theorem parent?_define (frame : FrameId) (name : Symbol) (value : Value) (other : FrameId) :
    (store.define frame name value).parent? other = store.parent? other := by
  simp only [parent?, define, Array.getElem?_modify]
  split
  · cases store.frames[other]? <;> rfl
  · rfl

theorem bound?_define (frame : FrameId) (name : Symbol) (value : Value) (other : FrameId)
    (target : Symbol) :
    (store.define frame name value).bound? other target =
      if other = frame ∧ target = name ∧ frame < store.frames.size then some value
      else store.bound? other target := by
  simp only [bound?, define, Array.getElem?_modify]
  by_cases same : frame = other
  · subst same
    by_cases inStore : frame < store.frames.size
    · simp [inStore, Bindings.get?_insert]
    · simp [inStore]
  · have different : other ≠ frame := fun equal => same equal.symm
    simp [same, different]

@[simp] theorem size_define (frame : FrameId) (name : Symbol) (value : Value) :
    (store.define frame name value).frames.size = store.frames.size :=
  Array.size_modify

end Store

/-! ## Well-formed stores -/

/-- The code of a procedure is in the store. -/
def Procedure.Lives (store : Store) : Procedure → Prop
  | .primitive _ => True
  | .compound place _ _ => place < store.closures.size

/-- The code of every procedure in a value is in the store. -/
def Datum.Lives (store : Store) (value : Value) : Prop :=
  value.Procedures (Procedure.Lives store)

/-- The constants of a node itself. -/
def Node.constants : Node → List Value
  | .literal value => [value]
  | .quote value => [value]
  | _ => []

/-- The constants everywhere in a node live in the store. -/
def Node.Lives (store : Store) : Node → Prop :=
  Node.Everywhere fun inner => ∀ value ∈ inner.constants, value.Lives store

/-- Parents are older than their frames, and all that frames and procedures refer to is
in the store. -/
structure Store.WellFormed (store : Store) : Prop where
  parent : ∀ {frame parent}, store.parent? frame = some parent → parent < frame
  value : ∀ {frame name value}, store.bound? frame name = some value → value.Lives store
  closureFrame : ∀ closure ∈ store.closures, closure.frame < store.frames.size
  closureBody : ∀ closure ∈ store.closures, closure.body.Lives store

theorem Store.standard_wellFormed : standard.WellFormed where
  parent := by
    intro frame parent found
    cases frame with
    | zero => cases found
    | succ frame => cases found
  value := by
    intro frame name value found
    cases frame with
    | zero =>
        have member := Bindings.mem_of_get? found
        obtain ⟨operation, _, same⟩ := List.mem_map.mp member
        cases same
        trivial
    | succ frame => cases found
  closureFrame := by simp [standard, empty]
  closureBody := by simp [standard, empty]

/-! ## Chains -/

/-- The frames from one frame on, each the parent of the one before, up to a root. -/
inductive Store.Chain (store : Store) : FrameId → List FrameId → Prop
  | root {frame : FrameId} :
      frame < store.frames.size → store.parent? frame = none → Chain store frame [frame]
  | child {frame parent : FrameId} {chain : List FrameId} :
      store.parent? frame = some parent → Chain store parent chain →
        Chain store frame (frame :: chain)

namespace Store

variable {store : Store}

theorem lt_size_of_parent? {frame parent : FrameId} (found : store.parent? frame = some parent) :
    frame < store.frames.size := by
  apply Decidable.by_contra
  intro outside
  simp [parent?, Nat.le_of_not_lt outside] at found

/-- Every frame is younger than its parent, so no chain of parents comes back to a frame. -/
def Acyclic (store : Store) : Prop :=
  ∀ frame parent, store.parent? frame = some parent → parent < frame

theorem Acyclic.exists_chain (acyclic : store.Acyclic) {frame : FrameId}
    (inStore : frame < store.frames.size) : ∃ chain, store.Chain frame chain := by
  induction frame using Nat.strongRecOn with
  | ind frame induction =>
      cases found : store.parent? frame with
      | none => exact ⟨[frame], .root inStore found⟩
      | some parent =>
          have older := acyclic _ _ found
          obtain ⟨chain, rest⟩ := induction parent older (Nat.lt_trans older inStore)
          exact ⟨frame :: chain, .child found rest⟩

theorem WellFormed.exists_chain (wellFormed : store.WellFormed) {frame : FrameId}
    (inStore : frame < store.frames.size) : ∃ chain, store.Chain frame chain :=
  Acyclic.exists_chain (fun _ _ => wellFormed.parent) inStore

theorem nearest?_eq {frame : FrameId} {found : Frame} (here : store.frames[frame]? = some found)
    (name : Symbol) :
    store.nearest? name frame =
      if store.binds frame name then some frame
      else
        match store.parent? frame with
        | none => none
        | some parent => if parent < frame then store.nearest? name parent else none := by
  rw [nearest?, here]
  simp only [binds, bound?, parent?, here, Option.bind_some]
  rfl

/-- A name is looked for in every frame of the chain, up to its root. -/
theorem Acyclic.nearest?_eq_find? (acyclic : store.Acyclic) {frame : FrameId}
    {chain : List FrameId} (isChain : store.Chain frame chain) (name : Symbol) :
    store.nearest? name frame = chain.find? (store.binds · name) := by
  induction isChain with
  | root inStore isRoot =>
      rw [nearest?_eq (Array.getElem?_eq_getElem inStore), isRoot, List.find?_cons]
      cases store.binds _ name <;> rfl
  | child found _ induction =>
      have inStore := lt_size_of_parent? found
      have older := acyclic _ _ found
      rw [nearest?_eq (Array.getElem?_eq_getElem inStore), found, List.find?_cons]
      cases store.binds _ name with
      | true => rfl
      | false => simp only [if_pos older, induction, Bool.false_eq_true, if_false]

theorem Chain.nearest?_eq_find? (wellFormed : store.WellFormed) {frame : FrameId}
    {chain : List FrameId} (isChain : store.Chain frame chain) (name : Symbol) :
    store.nearest? name frame = chain.find? (store.binds · name) :=
  Acyclic.nearest?_eq_find? (fun _ _ => wellFormed.parent) isChain name

end Store

end SmallScheme
