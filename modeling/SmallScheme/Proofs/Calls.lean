import Mathlib
import SmallScheme.Proofs.Loops
import SmallScheme.Proofs.Names

namespace SmallScheme

/-! # Calls and their arguments

A call of a compound procedure is refused if the number of arguments does not fit, and then
nothing has changed. If it fits, the body is entered in a new frame behind the one in which
the procedure was made: each required parameter is bound to the argument in its place, the
rest parameter to the list of all others, and nothing else is bound. So a procedure with
nothing but a rest parameter makes the list that `list` makes. -/

/-! ## Lists of arguments -/

namespace Value

theorem newList_cons (next : Place) (car : Value) (items : List Value) :
    newList next (car :: items) =
      (.pair (newList next items).2 car (newList next items).1, (newList next items).2 + 1) :=
  rfl

/-- Every pair of a list takes a place. -/
theorem newList_next (next : Place) (items : List Value) :
    (newList next items).2 = next + items.length := by
  induction items with
  | nil => rfl
  | cons car items induction =>
      rw [newList_cons, induction]
      rfl

theorem items?_newList (next : Place) (items : List Value) :
    (newList next items).1.items? = some items := by
  induction items with
  | nil => rfl
  | cons car items induction => rw [newList_cons, Datum.items?, induction, Option.map_some]

/-- Two lists are equal exactly if their items are, provided that one was made after the
other. -/
theorem equal_newList_iff {first second : Nat} {items others : List Value}
    (later : first + items.length ≤ second) :
    (newList first items).1.equal (newList second others).1 = true ↔
      List.Forall₂ (fun item other => item.equal other = true) items others := by
  induction items generalizing others with
  | nil =>
      cases others with
      | nil => exact iff_of_true rfl .nil
      | cons other others => simp [newList, equal, eqv, sameContents]
  | cons item items induction =>
      cases others with
      | nil => simp [newList, equal, eqv, sameContents]
      | cons other others =>
          rw [List.length_cons] at later
          -- The second list lies behind the first one, so no pair is met in both of them.
          have before : first + items.length < second + others.length := by omega
          have apart : ((newList first items).2 == (newList second others).2) = false := by
            rw [newList_next, newList_next, beq_eq_false_iff_ne]
            exact Nat.ne_of_lt before
          rw [newList_cons, newList_cons, equal, apart, Bool.false_or, Bool.and_eq_true,
            induction (by omega), List.forall₂_cons]

/-- Only numbers can differ from themselves: pairs and strings are known by their places. -/
theorem equal_self_iff (value : Value) :
    value.equal value = true ↔ ∀ number, value = .number number → number.same number = true := by
  rcases value with _ | _ | number | _ | _ | _ | ⟨_ | _⟩
  case number =>
    simp only [equal, eqv, sameContents, Bool.or_false, Datum.number.injEq, forall_eq']
  all_goals simp [equal, eqv, sameContents, Procedure.same]

/-- The same arguments make equal lists, unless a number among them differs from itself. -/
theorem forall₂_equal_self_iff (items : List Value) :
    List.Forall₂ (fun item other : Value => item.equal other = true) items items ↔
      ∀ number, .number number ∈ items → number.same number = true := by
  rw [List.forall₂_same]
  constructor
  · intro same number member
    exact (equal_self_iff _).mp (same _ member) number rfl
  · intro numbers item member
    rw [equal_self_iff]
    rintro number rfl
    exact numbers number member

end Value

/-! ## Bindings of a call -/

namespace Bindings

theorem ofPairs_concat (pairs : List (Symbol × Value)) (pair : Symbol × Value) :
    ofPairs (pairs ++ [pair]) = (ofPairs pairs).insert pair.1 pair.2 := by
  simp [ofPairs, List.foldl_append]

/-- Names that differ keep the values beside them. -/
theorem get?_ofPairs_of_mem {pairs : List (Symbol × Value)} {name : Symbol} {value : Value}
    (distinct : (pairs.map Prod.fst).Nodup) (member : (name, value) ∈ pairs) :
    (ofPairs pairs).get? name = some value := by
  -- The pairs are bound from the left, so the last one comes off first.
  induction pairs using List.reverseRecOn with
  | nil => cases member
  | append_singleton pairs pair induction =>
      rw [List.map_append, List.nodup_append] at distinct
      rw [ofPairs_concat, get?_insert]
      rcases List.mem_append.mp member with earlier | last
      · have different : name ≠ pair.1 :=
          distinct.2.2 name (List.mem_map_of_mem earlier) pair.1 (List.mem_singleton_self _)
        rw [if_neg different, induction distinct.1 earlier]
      · have same := List.mem_singleton.mp last
        rw [← same]
        exact if_pos rfl

end Bindings

theorem Compiler.names_nodup {datum : Value} {formals : Formals}
    (accepted : Compiler.formals datum = .ok formals) : formals.names.Nodup := by
  have yields : Yields (Compiler.formals datum) fun formals => formals.names.Nodup := by
    refine (formalNames_sound datum).bind fun formals _ => ?_
    exact (distinct_sound _).bind fun _ distinct => .ok distinct
  exact yields formals accepted

/-- The frame of a call: what one store has more than another once the body of a procedure
with the given parameters, made in the frame `home`, has been entered with the arguments. -/
structure Store.Entered (before after : Store) (formals : Formals) (home : FrameId)
    (arguments : List Value) : Prop where
  frames : after.frames.size = before.frames.size + 1
  older : ∀ frame < before.frames.size, after.frames[frame]? = before.frames[frame]?
  closures : after.closures = before.closures
  parent : after.parent? before.frames.size = some home
  required : ∀ index < formals.required.length, ∃ name argument,
    formals.required[index]? = some name ∧ arguments[index]? = some argument ∧
      after.bound? before.frames.size name = some argument
  rest : ∀ name, formals.rest = some name → ∃ list,
    after.bound? before.frames.size name = some list ∧
      list.items? = some (arguments.drop formals.required.length) ∧
      (arguments.length = formals.required.length → list = .nil)
  only : ∀ name, after.binds before.frames.size name = true → name ∈ formals.names

namespace Store

variable {store : Store} {formals : Formals} {home : FrameId} {arguments : List Value}

theorem getElem?_enter_old {frame : FrameId} (old : frame < store.frames.size)
    (parent : FrameId) (bindings : Bindings) :
    (store.enter parent bindings).2.frames[frame]? = store.frames[frame]? := by
  simp only [enter, Array.getElem?_push, Nat.ne_of_lt old, if_false]

/-- Required parameters are bound to the first arguments. -/
theorem required_bound {required : List Symbol} (distinct : required.Nodup)
    (enough : required.length ≤ arguments.length) {index : Nat} (inList : index < required.length) :
    ∃ name argument, required[index]? = some name ∧ arguments[index]? = some argument ∧
      (Bindings.ofPairs (required.zip (arguments.take required.length))).get? name =
        some argument := by
  have inArguments : index < arguments.length := Nat.lt_of_lt_of_le inList enough
  have named := List.getElem?_eq_getElem inList
  have given := List.getElem?_eq_getElem inArguments
  have names : (required.zip (arguments.take required.length)).map Prod.fst = required :=
    List.map_fst_zip (by rw [List.length_take]; omega)
  refine ⟨_, _, named, given, Bindings.get?_ofPairs_of_mem (names.symm ▸ distinct) ?_⟩
  have paired : (required.zip (arguments.take required.length))[index]? =
      some (required[index], arguments[index]) := by
    rw [List.getElem?_zip_eq_some, List.getElem?_take_of_lt inList]
    exact ⟨named, given⟩
  exact List.mem_of_getElem? paired

theorem mem_required_of_get? {required : List Symbol} {name : Symbol} {value : Value}
    (found : (Bindings.ofPairs (required.zip arguments)).get? name = some value) :
    name ∈ required :=
  (List.of_mem_zip (Bindings.mem_of_get?_ofPairs found)).1

theorem bindArguments_frame (store : Store) (formals : Formals) (home : FrameId)
    (arguments : List Value) :
    (store.bindArguments formals home arguments).1 = store.frames.size := by
  unfold bindArguments
  dsimp only
  split <;> rfl

/-- A new frame is the frame of a call, if its bindings are those of the parameters. The
places of the list of further arguments do not count. -/
theorem enter_entered {bindings : Bindings} (next : Place)
    (required : ∀ index < formals.required.length, ∃ name argument,
      formals.required[index]? = some name ∧ arguments[index]? = some argument ∧
        bindings.get? name = some argument)
    (rest : ∀ name, formals.rest = some name → ∃ list, bindings.get? name = some list ∧
      list.items? = some (arguments.drop formals.required.length) ∧
      (arguments.length = formals.required.length → list = .nil))
    (only : ∀ name value, bindings.get? name = some value → name ∈ formals.names) :
    store.Entered ({ store with next := next }.enter home bindings).2 formals home arguments := by
  have bound (name : Symbol) :
      ({ store with next := next }.enter home bindings).2.bound? store.frames.size name =
        bindings.get? name := by
    rw [bound?_enter]
    exact if_pos rfl
  constructor
  case frames => exact size_enter _ home bindings
  case older =>
    intro frame old
    exact getElem?_enter_old old home bindings
  case closures => rfl
  case parent =>
    rw [parent?_enter]
    exact if_pos rfl
  case required =>
    intro index inList
    simpa only [bound] using required index inList
  case rest =>
    intro name isRest
    simpa only [bound] using rest name isRest
  case only =>
    intro name binds
    rw [Store.binds, bound] at binds
    rcases Option.isSome_iff_exists.mp binds with ⟨value, found⟩
    exact only name value found

/-- With a rest parameter, the other arguments become a list first. -/
theorem bindArguments_rest (store : Store) (required : List Symbol) (name : Symbol)
    (home : FrameId) (arguments : List Value) :
    store.bindArguments ⟨required, some name⟩ home arguments =
      let further := Value.newList store.next (arguments.drop required.length)
      { store with next := further.2 }.enter home
        ((Bindings.ofPairs (required.zip (arguments.take required.length))).insert name
          further.1) :=
  rfl

theorem bindArguments_entered (distinct : formals.names.Nodup)
    (enough : formals.required.length ≤ arguments.length) :
    store.Entered (store.bindArguments formals home arguments).2 formals home arguments := by
  rcases formals with ⟨required, _ | name⟩
  · rw [Formals.names, Option.toList_none, List.append_nil] at distinct
    apply enter_entered store.next
    · intro index inList
      exact required_bound distinct enough inList
    · intro name isRest
      cases isRest
    · intro name value found
      exact List.mem_append_left _ (mem_required_of_get? found)
  · rcases List.nodup_append.mp distinct with ⟨requiredDistinct, _, apart⟩
    rw [bindArguments_rest]
    apply enter_entered
    · intro index inList
      rcases required_bound requiredDistinct enough inList with
        ⟨bound, argument, named, given, found⟩
      have different : bound ≠ name :=
        apart bound (List.mem_of_getElem? named) name (List.mem_singleton_self name)
      refine ⟨bound, argument, named, given, ?_⟩
      rw [Bindings.get?_insert, if_neg different]
      exact found
    · intro other isRest
      cases isRest
      refine ⟨_, ?_, Value.items?_newList store.next _, ?_⟩
      · rw [Bindings.get?_insert]
        exact if_pos rfl
      · intro same
        have noneLeft : arguments.drop required.length = [] := List.drop_eq_nil_of_le same.le
        rw [noneLeft]
        rfl
    · intro other value found
      rw [Bindings.get?_insert] at found
      split at found
      · rename_i same
        exact List.mem_append_right _ (List.mem_singleton.mpr same)
      · exact List.mem_append_left _ (mem_required_of_get? found)

end Store

/-! ## Steps that call -/

/-- There are too few arguments, or too many and no parameter for the rest of them. -/
def Formals.Refuses (formals : Formals) (given : Nat) : Prop :=
  given < formals.required.length ∨ (formals.required.length < given ∧ formals.rest = none)

theorem Formals.refuses_iff (formals : Formals) (given : Nat) :
    formals.Refuses given ↔ ¬formals.arity.accepts given = true := by
  rw [Arity.accepts_iff]
  rcases formals with ⟨required, _ | name⟩
  · simp only [Refuses, arity, Option.isSome_none, true_implies, and_true]
    omega
  · simp [Refuses, arity]

namespace Machine

/-- The machine without its innermost level. -/
def below (machine : Machine) : Machine :=
  { machine with levels := machine.levels.tail, depth := machine.depth - 1 }

/-- The next step calls a procedure: its last operand has got a value, or the operator if
there are no operands, or the receiver of a clause. The levels know the frame `caller` from
which the procedure is called. -/
inductive Calls (machine : Machine) : Control → Value → List Value → Bool → Prop
  | operator {procedure : Value} {tail : Bool} {caller : FrameId} {levels : List Level} :
      machine.levels = .operator [] tail caller :: levels →
        Calls machine (.give procedure) procedure [] tail
  | operand {procedure value : Value} {reversed : List Value} {tail : Bool} {caller : FrameId}
      {levels : List Level} :
      machine.levels = .operand procedure reversed [] tail caller :: levels →
        Calls machine (.give value) procedure (value :: reversed).reverse tail
  | receiver {procedure argument : Value} {tail : Bool} {levels : List Level} :
      machine.levels = .receiver argument tail :: levels →
        Calls machine (.give procedure) procedure [argument] tail

variable {machine : Machine} {control : Control} {procedure : Value} {arguments : List Value}
  {tail : Bool}

theorem Calls.step (calls : machine.Calls control procedure arguments tail) (limit : Nat) :
    machine.step limit control = machine.below.call limit procedure arguments tail := by
  cases calls with
  | operator levels =>
      simp only [Machine.step, below, levels]
      rfl
  | operand levels =>
      simp only [Machine.step, below, levels]
      rfl
  | receiver levels =>
      simp only [Machine.step, below, levels]
      rfl

variable {place : Place} {name : Option Symbol} {formals : Formals} {closure : Closure}

theorem call_of_refused (found : machine.world.store.closures[place]? = some closure)
    (refused : ¬formals.arity.accepts arguments.length = true) (limit : Nat) :
    machine.call limit (.procedure (.compound place name formals)) arguments tail =
      machine.fail (.arity (.compound place name formals) arguments.length) := by
  simp only [call, callCompound, found, if_neg refused]

/-- Goes on with the body of a procedure in the frame of the call. -/
def enterBody (machine : Machine) (limit : Nat) (callee : Procedure) (after : Store)
    (body : Node) (frame : FrameId) (tail : Bool) : Progress :=
  let world := { machine.world with store := after }
  if tail then { machine with world := world.record (.tailCall callee) }.proceed body frame
  else { machine with world := world }.suspend limit .body body frame

theorem enterBody_ne_arity {limit : Nat} {callee other : Procedure} {after : Store} {body : Node}
    {frame : FrameId} {given : Nat} {world : World} :
    machine.enterBody limit callee after body frame tail ≠
      .ended (.error (.arity other given)) world := by
  unfold enterBody
  cases tail with
  | true => simp [proceed]
  | false =>
      dsimp only
      rw [if_neg Bool.false_ne_true]
      unfold suspend
      split <;> simp [fail]

theorem call_of_accepted (found : machine.world.store.closures[place]? = some closure)
    (accepted : formals.arity.accepts arguments.length = true) (limit : Nat) :
    machine.call limit (.procedure (.compound place name formals)) arguments tail =
      machine.enterBody limit (.compound place name formals)
        (machine.world.store.bindArguments formals closure.frame arguments).2 closure.body
        machine.world.store.frames.size tail := by
  have frame := machine.world.store.bindArguments_frame formals closure.frame arguments
  simp only [call, callCompound, found, if_pos accepted, World.bindArguments, frame, enterBody]

end Machine

/-! ## Lists from calls -/

/-- `(lambda args args)` -/
def Node.gatherer : Node :=
  .lambda none ⟨[], some ⟨"args"⟩⟩ (.variable ⟨"args"⟩)

/-- In a frame, one store gives to all names the values that another one gives to them. -/
def Store.Agrees (store other : Store) (frame : FrameId) : Prop :=
  ∀ name, other.get? frame name = store.get? frame name

theorem Store.agrees_of_frames {store other : Store} (same : other.frames = store.frames)
    (frame : FrameId) : store.Agrees other frame :=
  get?_congr fun older _ => congrArg (·[older]?) same

theorem Store.lt_size_of_get? {store : Store} {frame : FrameId} {name : Symbol} {value : Value}
    (found : store.get? frame name = some value) : frame < store.frames.size := by
  apply Decidable.by_contra
  intro outside
  have missing : store.frames[frame]? = none :=
    Array.getElem?_eq_none (Nat.le_of_not_lt outside)
  rw [get?, nearest?, missing] at found
  cases found

/-- Expressions have the given values wherever their frame sees the same, and change
nothing; so have constants, names, and primitives without effects on them. -/
def Steady (room : Nat) (scene : Scene) (frame : FrameId) (codes : List Node)
    (arguments : List Value) : Prop :=
  ∀ later : Scene, scene.store.Agrees later.store frame →
    List.Forall₂ (Computes room later frame) codes arguments

theorem Steady.later {room : Nat} {scene later : Scene} {frame : FrameId} {codes : List Node}
    {arguments : List Value} (steady : Steady room scene frame codes arguments)
    (agrees : scene.store.Agrees later.store frame) :
    Steady room later frame codes arguments :=
  fun last further => steady last fun name => (further name).trans (agrees name)

/-- Every value can be quoted. -/
theorem Steady.quotes (room : Nat) (scene : Scene) (frame : FrameId) (arguments : List Value) :
    Steady room scene frame (arguments.map .quote) arguments := by
  intro later _
  rw [List.forall₂_map_left_iff, List.forall₂_same]
  intro argument _
  exact Passes.quote room later frame argument

namespace Passes

variable {room : Nat} {scene after : Scene} {frame : FrameId} {codes : List Node}
  {arguments : List Value} {value : Value}

/-- The value of the body is the value of a call, wherever the call stands. -/
theorem compound {place : Place} {name : Option Symbol} {formals : Formals} {closure : Closure}
    (found : scene.store.closures[place]? = some closure)
    (accepted : formals.arity.accepts arguments.length = true)
    (returned : Passes room
      { scene with
        store := (scene.store.bindArguments formals closure.frame arguments).2 }
      (.run closure.body scene.store.frames.size) after (.give value)) (tail : Bool) :
    Passes (room + 1) scene (.call (.procedure (.compound place name formals)) arguments tail)
      after (.give value) := by
  have enters : Passes (room + 1) scene
      (.call (.procedure (.compound place name formals)) arguments tail) scene
      (fun limit machine => machine.enterBody limit (.compound place name formals)
        (scene.store.bindArguments formals closure.frame arguments).2 closure.body
        scene.store.frames.size tail) := by
    apply of_eq
    intro limit machine atScene
    subst atScene
    exact ⟨machine.world, rfl, Machine.call_of_accepted found accepted limit⟩
  apply enters.trans
  cases tail with
  | false =>
      apply trans (of_eq _ _) (returned.suspend .body)
      intro limit machine atScene
      subst atScene
      exact ⟨_, rfl, rfl⟩
  | true =>
      apply trans (of_eq _ _) (returned.mono (Nat.le_succ room))
      intro limit machine atScene
      subst atScene
      exact ⟨_, (World.scene_record _ _).trans rfl, rfl⟩

/-- A list takes a place for each of its items. -/
theorem list (room : Nat) (scene : Scene) (arguments : List Value) (tail : Bool) :
    Passes room scene (.call (.procedure (.primitive .list)) arguments tail)
      { scene with
        store := { scene.store with next := (Value.newList scene.store.next arguments).2 } }
      (.give (Value.newList scene.store.next arguments).1) := by
  refine of_eq room fun limit machine atScene => ?_
  subst atScene
  refine ⟨{ machine.world with store := { machine.world.store with
    next := (Value.newList machine.world.store.next arguments).2 } }, rfl, ?_⟩
  simp [Course.call, Machine.call, Machine.callPrimitive, Primitive.operation, Operation.list,
    Operation.answer?, Course.give, World.scene]

/-- `((lambda args args) operand ...)` makes a list of the arguments. -/
theorem gather (steady : Steady room scene frame codes arguments)
    (inStore : frame < scene.store.frames.size) (tail : Bool) :
    ∃ after : Scene, scene.store.Agrees after.store frame ∧
      after.store.next = scene.store.next + arguments.length ∧
      Passes (room + 1) scene (.run (.call .gatherer codes tail) frame) after
        (.give (Value.newList scene.store.next arguments).1) := by
  let further := Value.newList scene.store.next arguments
  let made := (scene.store.close none ⟨[], some ⟨"args"⟩⟩ (.variable ⟨"args"⟩) frame).2
  let entered := ({ made with next := further.2 }.enter frame [(⟨"args"⟩, further.1)]).2
  have madeAgrees : scene.store.Agrees made frame := by
    apply Store.agrees_of_frames
    rfl
  have stillInStore : frame < { made with next := further.2 }.frames.size := inStore
  have agrees : scene.store.Agrees entered frame := by
    intro name
    rw [Store.get?_enter_old stillInStore]
    apply Store.agrees_of_frames
    rfl
  have found : made.closures[scene.store.closures.size]? =
      some ⟨.variable ⟨"args"⟩, frame⟩ :=
    Array.getElem?_push_size
  have bound : entered.bound? scene.store.frames.size ⟨"args"⟩ = some further.1 :=
    (Store.bound?_enter _ frame _ _ _).trans (if_pos rfl)
  have returned : Computes 0 { scene with store := entered } scene.store.frames.size
      (.variable ⟨"args"⟩) further.1 :=
    name 0 (Store.get?_of_bound? bound)
  have operands := call (lambda room scene none ⟨[], some ⟨"args"⟩⟩ (.variable ⟨"args"⟩) frame)
    (steady { scene with store := made } madeAgrees) tail
  have called : Passes 1 { scene with store := made }
      (.call (.procedure (.compound scene.store.closures.size none ⟨[], some ⟨"args"⟩⟩))
        arguments tail) { scene with store := entered } (.give further.1) := by
    apply compound found
    · rfl
    · exact returned
  exact ⟨{ scene with store := entered }, agrees, Value.newList_next _ _,
    operands.trans (called.mono (Nat.le_add_left 1 room))⟩

/-- `(list operand ...)` makes such a list too. -/
theorem named_list (steady : Steady room scene frame codes arguments)
    (known : scene.store.get? frame ⟨"list"⟩ = some (.procedure (.primitive .list)))
    (tail : Bool) :
    Passes (room + 1) scene (.run (.named "list" codes tail) frame)
      { scene with
        store := { scene.store with next := (Value.newList scene.store.next arguments).2 } }
      (.give (Value.newList scene.store.next arguments).1) :=
  (call (name room known) (steady scene fun _ => rfl) tail).trans (list _ scene arguments tail)

/-- The two lists, compared with each other. -/
theorem equal_lists {others : List Node} {values : List Value}
    (steady : Steady room scene frame codes arguments)
    (alsoSteady : Steady room scene frame others values)
    (list : scene.store.get? frame ⟨"list"⟩ = some (.procedure (.primitive .list)))
    (equal : scene.store.get? frame ⟨"equal?"⟩ = some (.procedure (.primitive .equal)))
    (inStore : frame < scene.store.frames.size) (tail : Bool) :
    ∃ after answer, Passes (room + 2) scene
        (.run (.named "equal?" [.call .gatherer codes false, .named "list" others false] tail)
          frame) after (.give (.boolean answer)) ∧
      (answer = true ↔
        List.Forall₂ (fun argument value => argument.equal value = true) arguments values) := by
  rcases gather steady inStore false with ⟨middle, agrees, next, gathered⟩
  have listed := named_list (alsoSteady.later agrees) ((agrees _).trans list) false
  let first := (Value.newList scene.store.next arguments).1
  let second := (Value.newList middle.store.next values).1
  let last : Scene :=
    { middle with
      store := { middle.store with next := (Value.newList middle.store.next values).2 } }
  have operator := (name (room + 1) equal).operator
    [.call .gatherer codes false, .named "list" others false] tail
  have operands := (gathered.operand (.procedure (.primitive .equal)) [] _ tail).trans
    (listed.operand (.procedure (.primitive .equal)) _ [] tail)
  have answered : Passes (room + 2) last
      (.call (.procedure (.primitive .equal)) [first, second] tail) last
      (.give (.boolean (first.equal second))) :=
    primitive (room + 2) rfl tail
  have later : scene.store.next + arguments.length ≤ middle.store.next := Nat.le_of_eq next.symm
  exact ⟨last, first.equal second, operator.trans (operands.trans answered),
    Value.equal_newList_iff later⟩

end Passes

/-! ## Main statement -/

/-- Where a procedure is called whose parameters the compiler has accepted, the call fails
exactly if there are too few arguments, or too many and no rest parameter, and nothing has
changed then. Else the body is entered in the frame of the call, behind the frame in which
the procedure was made. So `((lambda args args) operand ...)` and `(list operand ...)` make
lists of the same arguments. They are equal exactly if the arguments are, and so unless a
number among them differs from itself. -/
theorem calls_bind_exactly :
    (∀ datum formals, Compiler.formals datum = .ok formals →
      ∀ (limit : Nat) (machine : Machine) (control : Control) (place : Place)
        (name : Option Symbol) (closure : Closure) (arguments : List Value) (tail : Bool),
        machine.world.store.closures[place]? = some closure →
        machine.Calls control (.procedure (.compound place name formals)) arguments tail →
        (Procedure.compound place name formals).arity =
            ⟨formals.required.length, formals.rest.isSome⟩ ∧
          (machine.step limit control =
              .ended (.error (.arity (.compound place name formals) arguments.length))
                machine.world ↔
            formals.Refuses arguments.length) ∧
          (¬formals.Refuses arguments.length → ∃ after,
            machine.world.store.Entered after formals closure.frame arguments ∧
              machine.step limit control =
                machine.below.enterBody limit (.compound place name formals) after closure.body
                  machine.world.store.frames.size tail)) ∧
    ∀ (room : Nat) (scene : Scene) (frame : FrameId) (codes others : List Node)
      (arguments values : List Value) (tail : Bool),
      scene.store.get? frame ⟨"list"⟩ = some (.procedure (.primitive .list)) →
      scene.store.get? frame ⟨"equal?"⟩ = some (.procedure (.primitive .equal)) →
      Steady room scene frame codes arguments → Steady room scene frame others values →
      (∃ after list, list.items? = some arguments ∧
        Passes (room + 1) scene (.run (.call .gatherer codes tail) frame) after (.give list)) ∧
      (∃ after list, list.items? = some arguments ∧
        Passes (room + 1) scene (.run (.named "list" codes tail) frame) after (.give list)) ∧
      (∃ after answer, Passes (room + 2) scene
          (.run (.named "equal?" [.call .gatherer codes false, .named "list" others false] tail)
            frame) after (.give (.boolean answer)) ∧
        (answer = true ↔
          List.Forall₂ (fun argument value => argument.equal value = true) arguments values)) ∧
      (List.Forall₂ (fun argument value => argument.equal value = true) arguments arguments ↔
        ∀ number, .number number ∈ arguments → number.same number = true) := by
  refine ⟨?_, ?_⟩
  · intro datum formals accepted limit machine control place name closure arguments tail found
      calls
    have below : machine.below.world.store.closures[place]? = some closure := found
    refine ⟨rfl, ?_, ?_⟩
    · rw [calls.step, Formals.refuses_iff]
      constructor
      · intro ended fits
        rw [Machine.call_of_accepted below fits] at ended
        exact Machine.enterBody_ne_arity ended
      · intro refused
        rw [Machine.call_of_refused below refused]
        rfl
    · intro fits
      rw [Formals.refuses_iff, not_not] at fits
      have enough : formals.required.length ≤ arguments.length :=
        ((Arity.accepts_iff _ _).mp fits).1
      refine ⟨_, Store.bindArguments_entered (Compiler.names_nodup accepted) enough, ?_⟩
      rw [calls.step, Machine.call_of_accepted below fits]
      rfl
  · intro room scene frame codes others arguments values tail list equal steady alsoSteady
    have inStore := Store.lt_size_of_get? list
    rcases Passes.gather steady inStore tail with ⟨after, _, _, gathered⟩
    refine ⟨⟨after, _, Value.items?_newList _ _, gathered⟩, ?_, ?_, ?_⟩
    · exact ⟨_, _, Value.items?_newList _ _, Passes.named_list steady list tail⟩
    · exact Passes.equal_lists steady alsoSteady list equal inStore tail
    · exact Value.forall₂_equal_self_iff arguments

theorem Store.standard_get?_list :
    standard.get? 0 ⟨"list"⟩ = some (.procedure (.primitive .list)) := by cbv

theorem Store.standard_get?_equal :
    standard.get? 0 ⟨"equal?"⟩ = some (.procedure (.primitive .equal)) := by cbv

/-- A procedure with the parameters `(a b . c)` that was made at the root, about to be called
from there with some arguments and one more. -/
def Machine.callingDotted (reversed : List Value) : Machine :=
  let callee : Value := .procedure (.compound 0 none ⟨[⟨"a"⟩, ⟨"b"⟩], some ⟨"c"⟩⟩)
  let store : Store := { Store.standard with closures := #[⟨.variable ⟨"c"⟩, 0⟩] }
  ⟨World.ofStore store, [.operand callee reversed [] false 0], 2⟩

theorem Machine.callingDotted_calls (value : Value) (reversed : List Value) :
    (callingDotted reversed).Calls (.give value)
      (.procedure (.compound 0 none ⟨[⟨"a"⟩, ⟨"b"⟩], some ⟨"c"⟩⟩)) (value :: reversed).reverse
      false :=
  .operand rfl

/-- `(a b . c)` refuses one argument and takes three, of which `c` gets the last one; and
lists of a number and a string are equal. -/
theorem calls_bind_exactly_dotted :
    Compiler.formals (.pair 0 (.symbol ⟨"a"⟩) (.pair 1 (.symbol ⟨"b"⟩) (.symbol ⟨"c"⟩))) =
        .ok ⟨[⟨"a"⟩, ⟨"b"⟩], some ⟨"c"⟩⟩ ∧
      (Machine.callingDotted []).step 9 (.give (.natural 1)) =
        .ended (.error (.arity (.compound 0 none ⟨[⟨"a"⟩, ⟨"b"⟩], some ⟨"c"⟩⟩) 1))
          (Machine.callingDotted []).world ∧
      (∃ after list,
        (Machine.callingDotted [.natural 2, .natural 1]).step 9 (.give (.natural 3)) =
          (Machine.callingDotted [.natural 2, .natural 1]).below.enterBody 9
            (.compound 0 none ⟨[⟨"a"⟩, ⟨"b"⟩], some ⟨"c"⟩⟩) after (.variable ⟨"c"⟩) 1 false ∧
        after.parent? 1 = some 0 ∧ after.bound? 1 ⟨"b"⟩ = some (.natural 2) ∧
        after.bound? 1 ⟨"c"⟩ = some list ∧ list.items? = some [.natural 3]) ∧
      ∃ after, Passes 2 (World.ofStore Store.standard).scene
        (.run (.named "equal?"
          [.call .gatherer [.quote (.natural 7), .quote (.string 0 "seven")] false,
            .named "list" [.quote (.natural 7), .quote (.string 1 "seven")] false] true) 0)
        after (.give (.boolean true)) := by
  have accepted : Compiler.formals
      (.pair 0 (.symbol ⟨"a"⟩) (.pair 1 (.symbol ⟨"b"⟩) (.symbol ⟨"c"⟩))) =
      .ok ⟨[⟨"a"⟩, ⟨"b"⟩], some ⟨"c"⟩⟩ := by rfl
  have binds := calls_bind_exactly.1 _ _ accepted 9
  have few := binds (.callingDotted []) (.give (.natural 1)) 0 none ⟨.variable ⟨"c"⟩, 0⟩
    [.natural 1] false rfl (Machine.callingDotted_calls _ [])
  have enough := binds (.callingDotted [.natural 2, .natural 1]) (.give (.natural 3)) 0 none
    ⟨.variable ⟨"c"⟩, 0⟩ [.natural 1, .natural 2, .natural 3] false rfl
    (Machine.callingDotted_calls _ [.natural 2, .natural 1])
  have equal := (calls_bind_exactly.2 0 (World.ofStore Store.standard).scene 0
    ([.natural 7, .string 0 "seven"].map .quote) ([.natural 7, .string 1 "seven"].map .quote)
    _ _ true Store.standard_get?_list Store.standard_get?_equal
    (.quotes 0 _ 0 _) (.quotes 0 _ 0 _)).2.2.1
  refine ⟨accepted, few.2.1.mpr (.inl (by decide)), ?_, ?_⟩
  · rcases enough.2.2 (by simp [Formals.Refuses]) with ⟨after, entered, step⟩
    rcases entered.required 1 (by decide) with ⟨name, argument, named, given, bound⟩
    rcases entered.rest ⟨"c"⟩ rfl with ⟨list, rest, items, _⟩
    cases named
    cases given
    exact ⟨after, list, step, entered.parent, bound, rest, items⟩
  · rcases equal with ⟨after, answer, passes, same⟩
    have equals : answer = true := same.mpr (.cons (by decide) (.cons (by decide) .nil))
    rw [equals] at passes
    exact ⟨after, passes⟩

/-! ## A number that differs from itself -/

/-- The number that `0.` stands for. -/
def Number.realZero : Float := nearest 0 1

/-- `(/ 0. 0.)` -/
def Node.zeroByZero : Node :=
  .named "/"
    [.literal (.number (.real Number.realZero)), .literal (.number (.real Number.realZero))] false

/-- The value of `(/ 0. 0.)`. -/
def Datum.notANumber : Value :=
  .number (.real (Number.realZero / Number.realZero))

theorem Steady.zeroByZero {scene : Scene} {frame : FrameId}
    (divide : scene.store.get? frame ⟨"/"⟩ = some (.procedure (.primitive .divide))) :
    Steady 1 scene frame [.zeroByZero] [.notANumber] := by
  intro later agrees
  have zero := Passes.literal 0 later frame (.number (.real Number.realZero))
  have divided : Computes 1 later frame .zeroByZero .notANumber :=
    Computes.primitive ((agrees _).trans divide) (Computes.pair zero zero) rfl
  exact .cons divided .nil

theorem nan_lists_denote :
    Denotes "(equal? ((lambda args args) (/ 0. 0.)) (list (/ 0. 0.)))"
      (.named "equal?" [.call .gatherer [.zeroByZero] false, .named "list" [.zeroByZero] false]
        true) := by
  let zero : Source := .number (.real Number.realZero)
  let quotient : Source := .list [.name "/", zero, zero]
  let gatherer : Source := .list [.name "lambda", .name "args", .name "args"]
  let datum : Source :=
    .list [.name "equal?", .list [gatherer, quotient], .list [.name "list", quotient]]
  exact ⟨datum, by cbv, fun next => rfl⟩

/-- The lists of one argument that differs from itself are not equal. -/
theorem nan_lists_differ :
    Session.standard.Returns ["(equal? ((lambda args args) (/ 0. 0.)) (list (/ 0. 0.)))"]
      (.boolean false) := by
  refine nan_lists_denote.returns ?_ (by decide : 3 < Session.standard.limit)
  intro scene frames _
  have agrees : Store.standard.Agrees scene.store 0 := by
    apply Store.agrees_of_frames
    exact frames
  have divide : Store.standard.get? 0 ⟨"/"⟩ = some (.procedure (.primitive .divide)) := by cbv
  have list := (agrees ⟨"list"⟩).trans Store.standard_get?_list
  have equal := (agrees ⟨"equal?"⟩).trans Store.standard_get?_equal
  have steady := Steady.zeroByZero ((agrees _).trans divide)
  rcases Passes.equal_lists steady steady list equal (Store.lt_size_of_get? list) true with
    ⟨after, answer, passes, same⟩
  have differs : answer = false := by
    rw [← Bool.not_eq_true, same, List.forall₂_cons]
    intro both
    have self : Datum.notANumber.equal .notANumber = false := by decide
    rw [self] at both
    cases both.1
  rw [differs] at passes
  exact ⟨after, passes⟩

end SmallScheme
