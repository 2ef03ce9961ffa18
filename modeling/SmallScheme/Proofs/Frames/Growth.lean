import SmallScheme.Machine.Run
import SmallScheme.Proofs.Frames

namespace SmallScheme

/-! # Growth of the store

Whatever a run does, stores only grow: no frame loses a name or gets another parent, and
no procedure gets other code. -/

namespace Store

/-- All that is in one store is still in another one. -/
structure Grows (before after : Store) : Prop where
  frames : before.frames.size ≤ after.frames.size
  parent : ∀ frame < before.frames.size, after.parent? frame = before.parent? frame
  names : ∀ {frame name}, before.binds frame name = true → after.binds frame name = true
  closures : before.closures.toList <+: after.closures.toList

namespace Grows

variable {before middle after : Store}

theorem refl (store : Store) : store.Grows store :=
  ⟨Nat.le_refl _, fun _ _ => rfl, id, List.prefix_refl _⟩

theorem trans (first : before.Grows middle) (second : middle.Grows after) : before.Grows after where
  frames := Nat.le_trans first.frames second.frames
  parent frame inStore :=
    (second.parent frame (Nat.lt_of_lt_of_le inStore first.frames)).trans
      (first.parent frame inStore)
  names := second.names ∘ first.names
  closures := first.closures.trans second.closures

theorem inStore (grows : before.Grows after) {frame : FrameId}
    (inStore : frame < before.frames.size) : frame < after.frames.size :=
  Nat.lt_of_lt_of_le inStore grows.frames

theorem closures_le (grows : before.Grows after) : before.closures.size ≤ after.closures.size := by
  simpa using grows.closures.length_le

end Grows

theorem enter_grows (store : Store) (parent : FrameId) (bindings : Bindings) :
    store.Grows (store.enter parent bindings).2 where
  frames := by
    rw [size_enter]
    exact Nat.le_succ _
  parent frame inStore := by
    rw [parent?_enter, if_neg (Nat.ne_of_lt inStore)]
  names {frame name} binds := by
    have inStore := lt_size_of_binds binds
    rw [Store.binds, bound?_enter, if_neg (Nat.ne_of_lt inStore)]
    exact binds
  closures := List.prefix_refl _

theorem define_grows (store : Store) (frame : FrameId) (name : Symbol) (value : Value) :
    store.Grows (store.define frame name value) where
  frames := by simp
  parent other _ := store.parent?_define frame name value other
  names {other target} binds := by
    rw [Store.binds, bound?_define]
    split
    · rfl
    · exact binds
  closures := List.prefix_refl _

theorem close_grows (store : Store) (name : Option Symbol) (formals : Formals) (body : Node)
    (frame : FrameId) : store.Grows (store.close name formals body frame).2 where
  frames := Nat.le_refl _
  parent _ _ := rfl
  names := id
  closures := by simp [close]

/-- Places for strings and pairs are no part of what grows. -/
theorem next_grows (store : Store) (next : Place) : store.Grows { store with next := next } :=
  ⟨Nat.le_refl _, fun _ _ => rfl, id, List.prefix_refl _⟩

theorem bindArguments_grows (store : Store) (formals : Formals) (parent : FrameId)
    (arguments : List Value) : store.Grows (store.bindArguments formals parent arguments).2 := by
  unfold bindArguments
  dsimp only
  split
  · exact enter_grows store parent _
  · exact (next_grows store _).trans (enter_grows _ parent _)

end Store

namespace World

@[simp] theorem store_record (world : World) (record : Record) :
    (world.record record).store = world.store := by
  unfold World.record
  split <;> rfl

@[simp] theorem store_observe (world : World) (depth : Nat) (kind : Kind) :
    (world.observe depth kind).store = world.store :=
  store_record _ _

end World

theorem Machine.predefine_grows (world : World) (frame : FrameId)
    (bindings : List (Symbol × Node)) :
    world.store.Grows (predefine world frame bindings).store := by
  induction bindings generalizing world with
  | nil => exact .refl _
  | cons binding rest induction =>
      exact (world.store.define_grows frame binding.1 .nil).trans
        (induction (world.define frame binding.1 .nil))

/-- The store that a progress has come to. -/
def Progress.store : Progress → Store
  | .running _ machine => machine.world.store
  | .ended _ world => world.store

end SmallScheme
