import SmallScheme.Proofs.Frames

namespace SmallScheme

/-! # What frames see

The values that names have in a frame depend on that frame and on older ones only. So
procedures and places do not count for them, a new frame sees its own bindings and then what
its parent sees, and all other frames see what they saw before. -/

namespace Store

variable {store other : Store} {frame : FrameId}

theorem nearest?_le {name : Symbol} {nearest : FrameId}
    (found : store.nearest? name frame = some nearest) : nearest ≤ frame := by
  fun_induction store.nearest? name frame with
  | case1 => cases found
  | case2 frame =>
      cases found
      exact Nat.le_refl _
  | case3 => cases found
  | case4 frame _ _ _ parent _ older induction =>
      exact Nat.le_trans (induction found) (Nat.le_of_lt older)
  | case5 => cases found

/-- Frames that are younger do not count. -/
theorem nearest?_congr (same : ∀ older ≤ frame, other.frames[older]? = store.frames[older]?)
    (name : Symbol) : other.nearest? name frame = store.nearest? name frame := by
  fun_induction store.nearest? name frame with
  | case1 frame missing => rw [nearest?, same frame (Nat.le_refl frame), missing]
  | case2 frame found here binds =>
      rw [nearest?, same frame (Nat.le_refl frame), here]
      exact if_pos binds
  | case3 frame found here unbound root =>
      rw [nearest?, same frame (Nat.le_refl frame), here]
      simp [unbound, root]
  | case4 frame found here unbound parent inside older induction =>
      have above := induction fun oldest le => same oldest (Nat.le_trans le (Nat.le_of_lt older))
      rw [nearest?, same frame (Nat.le_refl frame), here]
      simp [unbound, inside, older, above]
  | case5 frame found here unbound parent inside younger =>
      rw [nearest?, same frame (Nat.le_refl frame), here]
      simp [unbound, inside, younger]

theorem nearest?_of_frames {name : Symbol} {nearest : FrameId}
    (found : store.nearest? name frame = some nearest) (same : other.frames = store.frames) :
    other.nearest? name frame = some nearest :=
  (nearest?_congr (fun older _ => congrArg (·[older]?) same) name).trans found

theorem get?_congr (same : ∀ older ≤ frame, other.frames[older]? = store.frames[older]?)
    (name : Symbol) : other.get? frame name = store.get? frame name := by
  rw [get?, get?, nearest?_congr same]
  cases found : store.nearest? name frame with
  | none => rfl
  | some nearest =>
      have there := same nearest (nearest?_le found)
      exact congrArg (Option.bind · fun found => found.bindings.get? name) there

/-- A frame sees its own bindings, and else what its parent sees. -/
theorem get?_eq_or {found : Frame} (here : store.frames[frame]? = some found) (name : Symbol) :
    store.get? frame name =
      (found.bindings.get? name).or
        (found.parent.bind fun parent =>
          if parent < frame then store.get? parent name else none) := by
  rw [get?, nearest?, here]
  cases bound : found.bindings.get? name with
  | some value => simp [Bindings.binds, bound, here]
  | none =>
      cases inside : found.parent with
      | none => simp [Bindings.binds, bound, inside]
      | some parent =>
          by_cases older : parent < frame <;> simp [Bindings.binds, bound, inside, older, get?]

theorem get?_eq_bound?_or (store : Store) (frame : FrameId) (name : Symbol) :
    store.get? frame name =
      (store.bound? frame name).or
        ((store.parent? frame).bind fun parent =>
          if parent < frame then store.get? parent name else none) := by
  cases here : store.frames[frame]? with
  | none =>
      rw [get?, nearest?, here]
      simp [bound?, parent?, here]
  | some found => simp [get?_eq_or here, bound?, parent?, here]

theorem get?_of_bound? {name : Symbol} {value : Value}
    (bound : store.bound? frame name = some value) : store.get? frame name = some value := by
  rw [get?_eq_bound?_or, bound, Option.some_or]

theorem nearest?_of_bound? {name : Symbol} {value : Value}
    (bound : store.bound? frame name = some value) : store.nearest? name frame = some frame := by
  have binds := binds_of_bound? bound
  rw [nearest?_eq (Array.getElem?_eq_getElem (lt_size_of_binds binds)), binds, if_pos rfl]

theorem get?_of_nearest? {name : Symbol} {nearest : FrameId}
    (found : store.nearest? name frame = some nearest) :
    store.get? frame name = store.bound? nearest name := by
  rw [get?, found]
  rfl

/-- The bindings of other names do not count. -/
theorem get?_congr_bound? {name : Symbol}
    (parents : ∀ frame, other.parent? frame = store.parent? frame)
    (bound : ∀ frame, other.bound? frame name = store.bound? frame name) (frame : FrameId) :
    other.get? frame name = store.get? frame name := by
  induction frame using Nat.strongRecOn with
  | ind frame induction =>
      rw [get?_eq_bound?_or, get?_eq_bound?_or store, parents, bound]
      cases store.parent? frame with
      | none => rfl
      | some parent =>
          by_cases older : parent < frame
          · simp only [Option.bind_some, if_pos older, induction parent older]
          · simp only [Option.bind_some, if_neg older]

theorem bound?_define_of_ne {name target : Symbol} (different : target ≠ name)
    (holder frame : FrameId) (value : Value) :
    (store.define holder name value).bound? frame target = store.bound? frame target := by
  rw [bound?_define, if_neg fun same => different same.2.1]

theorem get?_define_of_ne {name target : Symbol} (different : target ≠ name)
    (holder frame : FrameId) (value : Value) :
    (store.define holder name value).get? frame target = store.get? frame target := by
  apply get?_congr_bound?
  · exact store.parent?_define holder name value
  · exact fun frame => bound?_define_of_ne different holder frame value

/-! ## New frames -/

variable {parent : FrameId}

theorem lt_size_enter (old : frame < store.frames.size) (parent : FrameId)
    (bindings : Bindings) : frame < (store.enter parent bindings).2.frames.size := by
  rw [size_enter]
  exact Nat.lt_succ_of_lt old

theorem bound?_enter_old (old : frame < store.frames.size) (parent : FrameId)
    (bindings : Bindings) (name : Symbol) :
    (store.enter parent bindings).2.bound? frame name = store.bound? frame name := by
  rw [bound?_enter, if_neg (Nat.ne_of_lt old)]

theorem get?_enter_old (old : frame < store.frames.size) (bindings : Bindings) (name : Symbol) :
    (store.enter parent bindings).2.get? frame name = store.get? frame name := by
  refine get?_congr (fun older le => ?_) name
  have inStore := Nat.lt_of_le_of_lt le old
  simp only [enter, Array.getElem?_push, Nat.ne_of_lt inStore, if_false]

theorem get?_enter_new (old : parent < store.frames.size) (bindings : Bindings)
    (name : Symbol) :
    (store.enter parent bindings).2.get? store.frames.size name =
      (bindings.get? name).or (store.get? parent name) := by
  have here : (store.enter parent bindings).2.frames[store.frames.size]? =
      some ⟨some parent, bindings⟩ := by
    simp only [enter, Array.getElem?_push, if_true]
  rw [get?_eq_or here, Option.bind_some, if_pos old, get?_enter_old old]

theorem nearest?_enter_new (old : parent < store.frames.size) {bindings : Bindings}
    {name : Symbol} (unbound : bindings.get? name = none) :
    (store.enter parent bindings).2.nearest? name store.frames.size =
      store.nearest? name parent := by
  have here : (store.enter parent bindings).2.frames[store.frames.size]? =
      some ⟨some parent, bindings⟩ := by
    simp only [enter, Array.getElem?_push, if_true]
  have same : (store.enter parent bindings).2.nearest? name parent =
      store.nearest? name parent := by
    refine nearest?_congr (fun older le => ?_) name
    have inStore := Nat.lt_of_le_of_lt le old
    simp only [enter, Array.getElem?_push, Nat.ne_of_lt inStore, if_false]
  rw [nearest?, here]
  simp [Bindings.binds, unbound, old, same]

/-- Names that are defined in a new frame are bindings of it. -/
theorem define_enter (bindings : Bindings) (name : Symbol) (value : Value) :
    (store.enter parent bindings).2.define store.frames.size name value =
      (store.enter parent (bindings.insert name value)).2 := by
  simp only [define, enter, Store.mk.injEq, and_true]
  refine Array.ext_getElem? fun frame => ?_
  rw [Array.getElem?_modify, Array.getElem?_push, Array.getElem?_push]
  by_cases last : frame = store.frames.size
  · simp [last]
  · simp [last, Ne.symm last]

/-- A definition is seen in its frame, in place of what was seen there before. -/
theorem get?_define_self (inStore : frame < store.frames.size) (name other : Symbol)
    (value : Value) :
    (store.define frame name value).get? frame other =
      if other = name then some value else store.get? frame other := by
  obtain ⟨found, here⟩ : ∃ found, store.frames[frame]? = some found :=
    ⟨_, Array.getElem?_eq_getElem inStore⟩
  have there : (store.define frame name value).frames[frame]? =
      some { found with bindings := found.bindings.insert name value } := by
    simp only [define, Array.getElem?_modify, here, if_true]
    rfl
  have older (parent : FrameId) (below : parent < frame) :
      (store.define frame name value).get? parent other = store.get? parent other := by
    refine get?_congr (fun oldest le => ?_) other
    have different : frame ≠ oldest := Nat.ne_of_gt (Nat.lt_of_le_of_lt le below)
    simp only [define, Array.getElem?_modify, different, if_false]
  rw [get?_eq_or there, get?_eq_or here, Bindings.get?_insert]
  by_cases same : other = name
  · simp [same]
  · simp only [same, if_false]
    cases found.parent with
    | none => rfl
    | some parent =>
        by_cases below : parent < frame
        · simp only [Option.bind_some, below, if_true, older parent below]
        · simp only [Option.bind_some, below, if_false]

/-! ## Known names -/

/-- In a frame of the store the given names have the given values. -/
structure Sees (store : Store) (frame : FrameId) (known : Bindings) : Prop where
  inStore : frame < store.frames.size
  value : ∀ {name value}, known.get? name = some value → store.get? frame name = some value

namespace Sees

variable {known : Bindings}

theorem of_frames (sees : store.Sees frame known) (same : other.frames = store.frames) :
    other.Sees frame known where
  inStore := same ▸ sees.inStore
  value found :=
    (get?_congr (fun older _ => congrArg (·[older]?) same) _).trans (sees.value found)

theorem single (sees : store.Sees frame known) {name : Symbol} {value : Value}
    (bound : known.get? name = some value) : store.Sees frame [(name, value)] where
  inStore := sees.inStore
  value {other otherValue} found := by
    rw [Bindings.get?_cons] at found
    split at found
    · rename_i same
      cases found
      rw [same]
      exact sees.value bound
    · cases found

theorem cons (sees : store.Sees frame known) {name : Symbol} {value : Value}
    (here : store.get? frame name = some value) :
    store.Sees frame ((name, value) :: known) where
  inStore := sees.inStore
  value {other otherValue} found := by
    rw [Bindings.get?_cons] at found
    split at found
    · rename_i same
      cases found
      rw [same]
      exact here
    · exact sees.value found

theorem enter_old (sees : store.Sees frame known) (parent : FrameId) (bindings : Bindings) :
    (store.enter parent bindings).2.Sees frame known where
  inStore := by
    rw [size_enter]
    exact Nat.lt_succ_of_lt sees.inStore
  value found := by
    rw [get?_enter_old sees.inStore]
    exact sees.value found

/-- A new frame sees its bindings before what its parent sees. -/
theorem enter (sees : store.Sees parent known) (bindings : Bindings) :
    (store.enter parent bindings).2.Sees store.frames.size (bindings ++ known) where
  inStore := by
    rw [size_enter]
    exact Nat.lt_succ_self _
  value {name value} found := by
    rw [get?_enter_new sees.inStore]
    rw [Bindings.get?, List.lookup_append] at found
    cases bound : bindings.get? name with
    | some inner =>
        rw [Bindings.get?] at bound
        rw [bound] at found
        exact found
    | none =>
        rw [Bindings.get?] at bound
        rw [bound] at found
        exact sees.value found

theorem define (sees : store.Sees frame known) (name : Symbol) (value : Value) :
    (store.define frame name value).Sees frame ((name, value) :: known) where
  inStore := by
    rw [size_define]
    exact sees.inStore
  value {other otherValue} found := by
    rw [get?_define_self sees.inStore]
    rw [Bindings.get?_cons] at found
    split
    · rename_i same
      rwa [if_pos same] at found
    · rename_i different
      rw [if_neg different] at found
      exact sees.value found

theorem define_of_ne (sees : store.Sees frame known) {name : Symbol}
    (unknown : known.get? name = none) (holder : FrameId) (value : Value) :
    (store.define holder name value).Sees frame known where
  inStore := by
    rw [size_define]
    exact sees.inStore
  value {other otherValue} found := by
    have different : other ≠ name := by
      rintro rfl
      rw [unknown] at found
      cases found
    rw [get?_define_of_ne different]
    exact sees.value found

end Sees

end Store

end SmallScheme
