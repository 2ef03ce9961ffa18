import SmallScheme.Proofs.Frames.Licence
import SmallScheme.Proofs.Frames.Lookup
import SmallScheme.Proofs.Runs

namespace SmallScheme

/-! # Bindings to spare

A name that no code mentions may be bound in a frame or not: no run looks it up, gives it
another value or binds it in a frame that exists. So a run goes the same way in a store with
such a binding and in the same store without it, and leaves the binding as it was. -/

/-! ## Taking a binding away -/

namespace Bindings

/-- The bindings of all other names. -/
def without (bindings : Bindings) (spare : Symbol) : Bindings :=
  bindings.filter fun (name, _) => name ≠ spare

variable {spare name : Symbol}

theorem get?_without (bindings : Bindings) (different : name ≠ spare) :
    (bindings.without spare).get? name = bindings.get? name := by
  induction bindings with
  | nil => rfl
  | cons binding bindings induction =>
      rcases binding with ⟨bound, value⟩
      rw [get?_cons, ← induction]
      by_cases same : bound = spare
      · simp [without, same, different]
      · simp [without, same, get?_cons]

theorem without_of_unbound {bindings : Bindings} (unbound : bindings.get? spare = none) :
    bindings.without spare = bindings := by
  refine List.filter_eq_self.mpr fun binding member => ?_
  induction bindings with
  | nil => cases member
  | cons first bindings induction =>
      rw [get?_cons] at unbound
      split at unbound
      · cases unbound
      · rename_i different
        rcases List.mem_cons.mp member with rfl | further
        · simpa using Ne.symm different
        · exact induction unbound further

theorem without_insert (bindings : Bindings) (different : name ≠ spare) (value : Value) :
    (bindings.insert name value).without spare = (bindings.without spare).insert name value := by
  have same : (bindings.without spare).binds name = bindings.binds name :=
    congrArg Option.isSome (bindings.get?_without different)
  unfold insert
  rw [same]
  split
  · rw [without, List.filter_map]
    congr 1
    refine List.filter_congr fun binding _ => ?_
    simp only [Function.comp]
    split <;> rfl
  · simp [without, different]

theorem without_insert_self {bindings : Bindings} (unbound : bindings.get? spare = none)
    (value : Value) : (bindings.insert spare value).without spare = bindings := by
  have none : bindings.binds spare = false := by simp [binds, unbound]
  rw [insert, none]
  simpa [without] using without_of_unbound unbound

end Bindings

def Frame.without (frame : Frame) (spare : Symbol) : Frame :=
  { frame with bindings := frame.bindings.without spare }

namespace Store

/-- The same store, with a name taken away from one of its frames. -/
def without (store : Store) (holder : FrameId) (spare : Symbol) : Store :=
  { store with frames := store.frames.modify holder fun found => found.without spare }

variable (store : Store) (holder : FrameId) {spare name : Symbol}

theorem getElem?_without (spare : Symbol) (frame : FrameId) :
    (store.without holder spare).frames[frame]? =
      if holder = frame then store.frames[frame]?.map (·.without spare)
      else store.frames[frame]? :=
  Array.getElem?_modify

/-- A frame keeps its parent and the values of all other names. -/
theorem getElem?_without_some {frame : FrameId} {found : Frame}
    (here : store.frames[frame]? = some found) (spare : Symbol) :
    ∃ left, (store.without holder spare).frames[frame]? = some left ∧
      left.parent = found.parent ∧
      ∀ name ≠ spare, left.bindings.get? name = found.bindings.get? name := by
  rw [getElem?_without, here]
  split
  · exact ⟨found.without spare, rfl, rfl, fun name => found.bindings.get?_without⟩
  · exact ⟨found, rfl, rfl, fun _ _ => rfl⟩

/-- Other names are looked for in the same frames. -/
theorem nearest?_without (different : name ≠ spare) (frame : FrameId) :
    (store.without holder spare).nearest? name frame = store.nearest? name frame := by
  fun_induction store.nearest? name frame with
  | case1 frame missing =>
      rw [nearest?, getElem?_without, missing]
      simp
  | case2 frame found here bound =>
      obtain ⟨left, there, _, same⟩ := store.getElem?_without_some holder here spare
      rw [Bindings.binds, ← same name different] at bound
      rw [nearest?, there]
      exact if_pos bound
  | case3 frame found here unbound root =>
      obtain ⟨left, there, parent, same⟩ := store.getElem?_without_some holder here spare
      rw [Bindings.binds, ← same name different] at unbound
      rw [nearest?, there]
      simp [Bindings.binds, unbound, parent, root]
  | case4 frame found here unbound older inside below induction =>
      obtain ⟨left, there, parent, same⟩ := store.getElem?_without_some holder here spare
      rw [Bindings.binds, ← same name different] at unbound
      rw [nearest?, there]
      simp [Bindings.binds, unbound, parent, inside, below, induction]
  | case5 frame found here unbound younger inside notBelow =>
      obtain ⟨left, there, parent, same⟩ := store.getElem?_without_some holder here spare
      rw [Bindings.binds, ← same name different] at unbound
      rw [nearest?, there]
      simp [Bindings.binds, unbound, parent, inside, notBelow]

theorem bound?_without (different : name ≠ spare) (frame : FrameId) :
    (store.without holder spare).bound? frame name = store.bound? frame name := by
  rw [bound?, bound?]
  cases here : store.frames[frame]? with
  | none =>
      rw [getElem?_without, here]
      simp
  | some found =>
      obtain ⟨left, there, _, same⟩ := store.getElem?_without_some holder here spare
      rw [there]
      exact same name different

theorem get?_without (different : name ≠ spare) (frame : FrameId) :
    (store.without holder spare).get? frame name = store.get? frame name := by
  rw [get?_eq, get?_eq, nearest?_without store holder different]
  cases store.nearest? name frame with
  | none => rfl
  | some nearest => exact store.bound?_without holder different nearest

/-! What is done to the other names and to new frames can be done before or after. -/

theorem without_define (different : name ≠ spare) (frame : FrameId) (value : Value) :
    (store.define frame name value).without holder spare =
      (store.without holder spare).define frame name value := by
  simp only [define, without, Store.mk.injEq, and_true]
  refine Array.ext_getElem? fun other => ?_
  simp only [Array.getElem?_modify]
  cases store.frames[other]? with
  | none => simp
  | some found =>
      by_cases here : frame = other <;> by_cases there : holder = other <;>
        simp [here, there, Frame.without, Bindings.without_insert _ different]

theorem without_define_self (unbound : store.binds holder spare = false) (value : Value) :
    (store.define holder spare value).without holder spare = store := by
  rcases store with ⟨frames, closures, next⟩
  simp only [define, without, Store.mk.injEq, and_true]
  refine Array.ext_getElem? fun frame => ?_
  simp only [Array.getElem?_modify]
  by_cases here : holder = frame
  · subst here
    cases inside : frames[holder]? with
    | none => simp
    | some found =>
        have free : found.bindings.get? spare = none := by
          simpa [binds, bound?, inside] using unbound
        simp [Frame.without, Bindings.without_insert_self free]
  · simp [here]

variable {holder}

theorem enter_without (inStore : holder < store.frames.size) (spare : Symbol)
    (parent : FrameId) (bindings : Bindings) :
    (store.without holder spare).enter parent bindings =
      ((store.enter parent bindings).1,
        (store.enter parent bindings).2.without holder spare) := by
  have notNew : holder ≠ store.frames.size := Nat.ne_of_lt inStore
  simp only [enter, without, Array.size_modify, Prod.mk.injEq, Store.mk.injEq, and_true, true_and]
  refine Array.ext_getElem? fun frame => ?_
  simp only [Array.getElem?_modify, Array.getElem?_push, Array.size_modify]
  by_cases new : frame = store.frames.size
  · simp [new, notNew]
  · simp [new]

theorem bindArguments_without (inStore : holder < store.frames.size) (spare : Symbol)
    (formals : Formals) (parent : FrameId) (arguments : List Value) :
    (store.without holder spare).bindArguments formals parent arguments =
      ((store.bindArguments formals parent arguments).1,
        (store.bindArguments formals parent arguments).2.without holder spare) := by
  unfold bindArguments
  cases formals.rest with
  | none => exact store.enter_without inStore spare parent _
  | some rest =>
      let list := Value.newList store.next (arguments.drop formals.required.length)
      exact enter_without { store with next := list.2 } inStore spare parent _

end Store

end SmallScheme
