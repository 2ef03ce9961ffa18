import Mathlib
import SmallScheme.Proofs.Frames.Lookup

namespace SmallScheme

/-! # Trees of frames

Frames that have a parent in common share what it binds. So a definition at one frame is seen
from every frame below it, unless the name is bound on the way; and an assignment is a
definition at the nearest frame that binds the name, seen from wherever that frame is. -/

namespace Store

variable {store : Store} {frame viewer parent : FrameId} {name target : Symbol}

/-- A frame is on the chain of another one, and no frame before it there binds the name. -/
def Exposes (store : Store) (viewer frame : FrameId) (name : Symbol) : Prop :=
  ∃ nearer farther, store.Chain viewer (nearer ++ frame :: farther) ∧
    ∀ other ∈ nearer, store.binds other name = false

theorem Chain.exists_rest {chain : List FrameId} (isChain : store.Chain frame chain) :
    ∃ rest, chain = frame :: rest := by
  cases isChain with
  | root => exact ⟨[], rfl⟩
  | child => exact ⟨_, rfl⟩

namespace Exposes

theorem self (acyclic : store.Acyclic) (inStore : frame < store.frames.size) (name : Symbol) :
    store.Exposes frame frame name := by
  rcases acyclic.exists_chain inStore with ⟨chain, isChain⟩
  rcases isChain.exists_rest with ⟨rest, rfl⟩
  exact ⟨[], rest, isChain, List.forall_mem_nil _⟩

/-- What a frame sees from its parent, if it does not bind the name itself. -/
theorem below (exposes : store.Exposes parent frame name)
    (found : store.parent? viewer = some parent) (unbound : store.binds viewer name = false) :
    store.Exposes viewer frame name := by
  rcases exposes with ⟨nearer, farther, isChain, others⟩
  exact ⟨viewer :: nearer, farther, .child found isChain,
    List.forall_mem_cons.mpr ⟨unbound, others⟩⟩

end Exposes

/-! ## Definitions -/

section

variable (acyclic : store.Acyclic)

include acyclic

theorem get?_define_of_exposes (inStore : frame < store.frames.size)
    (exposes : store.Exposes viewer frame name) (value : Value) :
    (store.define frame name value).get? viewer name = some value := by
  rcases exposes with ⟨nearer, farther, isChain, unbound⟩
  induction nearer generalizing viewer with
  | nil =>
      rcases isChain.exists_rest with ⟨rest, same⟩
      cases same
      rw [get?_define_self inStore, if_pos rfl]
  | cons first nearer induction =>
      rcases List.forall_mem_cons.mp unbound with ⟨unboundHere, others⟩
      by_cases same : viewer = frame
      · rw [same, get?_define_self inStore, if_pos rfl]
      · rw [List.cons_append] at isChain
        generalize follows : nearer ++ frame :: farther = more at isChain
        cases isChain with
        | root => simp at follows
        | child found rest =>
            subst follows
            have nothing : store.bound? first name = none := by
              simpa [binds] using unboundHere
            rw [get?_eq_bound?_or, bound?_define, if_neg fun here => same here.1, nothing,
              parent?_define, found, Option.none_or, Option.bind_some, if_pos (acyclic _ _ found)]
            exact induction rest others

theorem get?_define_of_not_exposes (hidden : ¬store.Exposes viewer frame name) (value : Value) :
    (store.define frame name value).get? viewer name = store.get? viewer name := by
  induction viewer using Nat.strongRecOn with
  | ind viewer induction =>
      -- At the frame itself the definition would be seen.
      have elsewhere : ¬(viewer = frame ∧ name = name ∧ frame < store.frames.size) := by
        rintro ⟨rfl, _, inStore⟩
        exact hidden (.self acyclic inStore name)
      rw [get?_eq_bound?_or, get?_eq_bound?_or store, bound?_define, if_neg elsewhere,
        parent?_define]
      cases bound : store.bound? viewer name with
      | some old => rfl
      | none =>
          cases found : store.parent? viewer with
          | none => rfl
          | some parent =>
              have unbound : store.binds viewer name = false := by simp [binds, bound]
              have above : ¬store.Exposes parent frame name := fun exposes =>
                hidden (exposes.below found unbound)
              have older := acyclic _ _ found
              simp only [Option.bind_some, if_pos older, induction parent older above]

/-! ## Assignments -/

/-- The nearest frame that binds a name is the one on the chain with no such frame before
it. -/
theorem nearest?_eq_some_iff {nearest : FrameId} :
    store.nearest? name frame = some nearest ↔
      store.Exposes frame nearest name ∧ store.binds nearest name = true := by
  constructor
  · intro found
    have inStore : frame < store.frames.size := by
      apply Decidable.by_contra
      intro outside
      rw [nearest?, Array.getElem?_eq_none (Nat.le_of_not_lt outside)] at found
      cases found
    rcases acyclic.exists_chain inStore with ⟨chain, isChain⟩
    rw [acyclic.nearest?_eq_find? isChain, List.find?_eq_some_iff_append] at found
    rcases found with ⟨binds, nearer, farther, rfl, unbound⟩
    exact ⟨⟨nearer, farther, isChain, by simpa using unbound⟩, binds⟩
  · rintro ⟨⟨nearer, farther, isChain, unbound⟩, binds⟩
    rw [acyclic.nearest?_eq_find? isChain, List.find?_eq_some_iff_append]
    exact ⟨binds, nearer, farther, rfl, by simpa using unbound⟩

theorem isSome_assign? (frame : FrameId) (name : Symbol) (value : Value) :
    (store.assign? frame name value).isSome = (store.get? frame name).isSome := by
  cases found : store.nearest? name frame with
  | none => simp [assign?, get?, found]
  | some nearest =>
      have binds := ((nearest?_eq_some_iff acyclic).mp found).2
      rw [get?_of_nearest? found, assign?, found]
      exact binds.symm

end

/-- A new value for a name that is bound adds no name to any frame. -/
theorem binds_define_of_binds (bound : store.binds frame name = true) (value : Value)
    (other : FrameId) (target : Symbol) :
    (store.define frame name value).binds other target = store.binds other target := by
  rw [binds, bound?_define]
  split
  · rename_i here
    rw [here.1, here.2.1, bound]
    rfl
  · rfl

/-! ## Operations one after the other -/

/-- What an operation at a frame of the store can make of it. An assignment to a name that is
not bound leaves the store as it is. -/
inductive Operates : Store → Store → Prop
  | child {store : Store} {parent : FrameId} :
      parent < store.frames.size → Operates store (store.child parent).2
  | define {store : Store} {frame : FrameId} (name : Symbol) (value : Value) :
      frame < store.frames.size → Operates store (store.define frame name value)
  | assign {store : Store} {frame : FrameId} (name : Symbol) (value : Value) :
      frame < store.frames.size →
      Operates store ((store.assign? frame name value).getD store)

theorem Acyclic.define (acyclic : store.Acyclic) (frame : FrameId) (name : Symbol)
    (value : Value) : (store.define frame name value).Acyclic := by
  intro other parent found
  rw [parent?_define] at found
  exact acyclic _ _ found

theorem Acyclic.operates {after : Store} (acyclic : store.Acyclic)
    (operates : Operates store after) : after.Acyclic := by
  cases operates with
  | @child parent inStore =>
      intro frame above found
      change (store.enter parent []).2.parent? frame = some above at found
      rw [parent?_enter] at found
      split at found
      · rename_i same
        cases found
        rwa [same]
      · exact acyclic _ _ found
  | @define frame name value _ => exact acyclic.define frame name value
  | @assign frame name value _ =>
      rw [assign?]
      cases store.nearest? name frame with
      | none => exact acyclic
      | some nearest => exact acyclic.define nearest name value

theorem Acyclic.operated {after : Store} (acyclic : store.Acyclic)
    (operated : Relation.ReflTransGen Operates store after) : after.Acyclic := by
  induction operated with
  | refl => exact acyclic
  | tail _ operates induction => exact induction.operates operates

/-- A new frame sees what its parent sees, and all others see what they saw before. -/
theorem get?_child (inStore : frame < store.frames.size) (viewer : FrameId) (name : Symbol) :
    (store.child frame).2.get? viewer name =
      if viewer = store.frames.size then store.get? frame name else store.get? viewer name := by
  change (store.enter frame []).2.get? viewer name = _
  split
  · rename_i same
    rw [same, get?_enter_new inStore]
    rfl
  · rename_i notNew
    by_cases old : viewer < store.frames.size
    · exact get?_enter_old old [] name
    · have outside : store.frames.size < viewer :=
        Nat.lt_of_le_of_ne (Nat.le_of_not_lt old) (Ne.symm notNew)
      rw [get?_eq_bound?_or, get?_eq_bound?_or store, bound?_enter, parent?_enter,
        if_neg notNew, if_neg notNew]
      simp [bound?, parent?, Nat.le_of_lt outside]

end Store

open Store

/-- After any operations on the frames of a store without cycles, chains still have none, and
what a further operation does is as follows. A new frame sees what its parent sees, and
nothing else changes. A definition is seen from the frames that no nearer binding of the name
keeps it from, and changes nothing else. An assignment is refused exactly if the name is
unbound, and then nothing changes; if not, it is the definition at the nearest frame on the
chain that binds the name, which changes that one binding and adds none. -/
theorem frame_operations {start store : Store} (acyclic : start.Acyclic)
    (operated : Relation.ReflTransGen Operates start store) {frame : FrameId}
    (inStore : frame < store.frames.size) (name : Symbol) (value : Value) :
    store.Acyclic ∧
      (∀ viewer target, (store.child frame).2.get? viewer target =
        if viewer = (store.child frame).1 then store.get? frame target
        else store.get? viewer target) ∧
      (∀ viewer target,
        (target = name ∧ store.Exposes viewer frame name →
          (store.define frame name value).get? viewer target = some value) ∧
        (¬(target = name ∧ store.Exposes viewer frame name) →
          (store.define frame name value).get? viewer target = store.get? viewer target)) ∧
      (store.assign? frame name value).isSome = (store.get? frame name).isSome ∧
      (store.get? frame name = none → (store.assign? frame name value).getD store = store) ∧
      ∀ after, store.assign? frame name value = some after →
        ∃ nearest, store.Exposes frame nearest name ∧ store.binds nearest name = true ∧
          after = store.define nearest name value ∧
          (∀ other target, after.bound? other target =
            if other = nearest ∧ target = name then some value
            else store.bound? other target) ∧
          ∀ other target, after.binds other target = store.binds other target := by
  have acyclic : store.Acyclic := acyclic.operated operated
  have refused := isSome_assign? acyclic frame name value
  refine ⟨acyclic, get?_child inStore, ?_, refused, ?_, ?_⟩
  · intro viewer target
    constructor
    · rintro ⟨rfl, exposes⟩
      exact get?_define_of_exposes acyclic inStore exposes value
    · intro unseen
      by_cases same : target = name
      · subst same
        exact get?_define_of_not_exposes acyclic (fun exposes => unseen ⟨rfl, exposes⟩) value
      · exact get?_define_of_ne same frame viewer value
  · intro unbound
    rw [unbound, Option.isSome_none, Option.isSome_eq_false_iff,
      Option.isNone_iff_eq_none] at refused
    rw [refused]
    rfl
  · intro after assigned
    cases found : store.nearest? name frame with
    | none => simp [assign?, found] at assigned
    | some nearest =>
        rcases (nearest?_eq_some_iff acyclic).mp found with ⟨exposes, binds⟩
        have same : store.define nearest name value = after := by
          simpa [assign?, found] using assigned
        subst same
        refine ⟨nearest, exposes, binds, rfl, ?_, binds_define_of_binds binds value⟩
        intro other target
        rw [bound?_define]
        simp only [lt_size_of_binds binds, and_true]

/-- Frames 1 and 2 are children of the root, and frame 3 is a child of 1. What is defined at 1
is seen from 3, and what is assigned there is given to the name in the root. -/
theorem frame_operations_siblings :
    let name : Symbol := ⟨"x"⟩
    let number (value : Int64) : Value := .number (.integer value)
    let store := (((Store.empty.define 0 name (number 1)).child 0).2.child 0).2
    let tree := (store.child 1).2
    Relation.ReflTransGen Operates .empty tree ∧ tree.Exposes 3 1 name ∧
      (tree.define 1 name (number 2)).get? 3 name = some (number 2) ∧
      ∃ after, tree.assign? 1 name (number 3) = some after ∧
        after.get? 2 name = some (number 3) ∧
        ∀ other target, after.binds other target = tree.binds other target := by
  intro name number store tree
  have acyclic : Store.empty.Acyclic := by
    intro frame parent found
    cases frame with
    | zero => cases found
    | succ frame => cases found
  have operated : Relation.ReflTransGen Operates .empty tree := by
    apply Relation.ReflTransGen.tail _ (.child (by decide))
    apply Relation.ReflTransGen.tail _ (.child (by decide))
    apply Relation.ReflTransGen.tail _ (.child (by decide))
    exact .single (.define name (number 1) (by decide))
  have fromThree : tree.Exposes 3 1 name :=
    ⟨[3], [0], .child rfl (.child rfl (.root (by decide) rfl)), List.forall_mem_singleton.mpr rfl⟩
  have fromTwo : tree.Exposes 2 0 name :=
    ⟨[2], [], .child rfl (.root (by decide) rfl), List.forall_mem_singleton.mpr rfl⟩
  have nearest : tree.nearest? name 1 = some 0 := by cbv
  have one : 1 < tree.frames.size := by decide
  have root : 0 < tree.frames.size := by decide
  rcases frame_operations acyclic operated one name (number 2) with ⟨_, _, defined, _⟩
  rcases frame_operations acyclic operated root name (number 3) with ⟨_, _, definedAtRoot, _⟩
  rcases frame_operations acyclic operated one name (number 3) with ⟨_, _, _, _, _, assigned⟩
  have found : tree.assign? 1 name (number 3) = some (tree.define 0 name (number 3)) := by
    rw [assign?, nearest]
  rcases assigned _ found with ⟨_, _, _, _, _, unchanged⟩
  exact ⟨operated, fromThree, (defined 3 name).1 ⟨rfl, fromThree⟩, _, found,
    (definedAtRoot 2 name).1 ⟨rfl, fromTwo⟩, unchanged⟩

end SmallScheme
