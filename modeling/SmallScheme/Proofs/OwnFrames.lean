import SmallScheme.Proofs.Counters

namespace SmallScheme

/-! # Rounds with frames of their own

Every round of a loop has a new frame. The steps are evaluated in the frame of the round
before, so that no variable sees the new value of another one, and procedures made in a
round keep the variables of that round.

One loop computes a greatest common divisor, where both variables change at once. Another
one makes a procedure in each round, and each of them remembers the number of its round. -/

/-! ## Frames of rounds -/

namespace LoopVariable

variable (room : Nat) (scene : Scene) (outer frame : FrameId)

/-- The init of a variable has a value in the frame around the loop, whatever is bound
already in the frame of the first round. -/
inductive Starts : LoopVariable → Symbol × Value → Prop
  | mk {name : Symbol} {init : Node} {step : Option Node} {value : Value} :
      (∀ bindings, Computes room { scene with store := (scene.store.enter outer bindings).2 }
        outer init value) →
      Starts (.mk name init step) (name, value)

/-- The step of a variable has a value in the frame of a round, whatever is bound already in
the frame of the next one. -/
inductive Steps : LoopVariable → Symbol × Value → Prop
  | mk {name : Symbol} {init step : Node} {value : Value} :
      (∀ bindings, Computes room { scene with store := (scene.store.enter outer bindings).2 }
        frame step value) →
      Steps (.mk name init (some step)) (name, value)

end LoopVariable

namespace Passes

variable {room : Nat} {scene : Scene} {loop : Loop} {frame : FrameId}
  {varying : List LoopVariable} {pairs : Bindings}

theorem loopInits
    (computed : List.Forall₂ (LoopVariable.Starts room scene loop.outer) varying pairs)
    (bindings : Bindings) :
    Passes (room + 1) { scene with store := (scene.store.enter loop.outer bindings).2 }
      (fun limit machine => machine.runLoopInits limit loop scene.store.frames.size varying)
      { scene with store := (scene.store.enter loop.outer
          (pairs.foldl (fun bindings (name, value) => bindings.insert name value) bindings)).2 }
      (.round loop scene.store.frames.size) := by
  induction computed generalizing bindings with
  | nil => exact refl _ _ _
  | @cons _ _ varying _ first _ induction =>
      rcases first with @⟨name, init, step, value, first⟩
      have bound := loopInit loop (first bindings) name step varying scene.store.frames.size
      rw [Store.define_enter] at bound
      exact bound.trans (induction _)

theorem loopSteps
    (computed : List.Forall₂ (LoopVariable.Steps room scene loop.outer frame) varying pairs)
    (bindings : Bindings) :
    Passes (room + 1) { scene with store := (scene.store.enter loop.outer bindings).2 }
      (fun limit machine =>
        machine.runLoopSteps limit loop frame scene.store.frames.size varying)
      { scene with store := (scene.store.enter loop.outer
          (pairs.foldl (fun bindings (name, value) => bindings.insert name value) bindings)).2 }
      (.round loop scene.store.frames.size) := by
  induction computed generalizing bindings with
  | nil => exact round_again _ _ loop frame _
  | @cons _ _ varying _ first _ induction =>
      rcases first with @⟨name, init, step, value, first⟩
      have bound := loopStep loop (first bindings) name init varying scene.store.frames.size
      rw [Store.define_enter] at bound
      exact bound.trans (induction _)

/-- The first round has a new frame with the values of all inits. -/
theorem firstFrame
    (computed : List.Forall₂ (LoopVariable.Starts room scene loop.outer) loop.varying pairs) :
    Passes (room + 1) scene (.run loop.code loop.outer)
      { scene with store := (scene.store.enter loop.outer (.ofPairs pairs)).2 }
      (.round loop scene.store.frames.size) :=
  (Passes.loop _ scene loop).trans (loopInits computed [])

/-- The next round has a new frame with the values of all steps, which are evaluated in the
frame of the round that ends. -/
theorem nextFrame
    (computed : List.Forall₂ (LoopVariable.Steps room scene loop.outer frame) loop.varying
      pairs) :
    Passes (room + 1) scene (fun limit machine => machine.runLoopCommands limit loop frame [])
      { scene with store := (scene.store.enter loop.outer (.ofPairs pairs)).2 }
      (.round loop scene.store.frames.size) :=
  (nextRound _ scene loop frame).trans (loopSteps computed [])

end Passes

/-! ## Euclid's algorithm -/

theorem Primitive.remainder_naturals {left right : Nat} (positive : 0 < right)
    (smallLeft : left < 2 ^ 63) (smallRight : right < 2 ^ 63) (next : Place) :
    remainder.operation.answer? next [.natural left, .natural right] =
      some (.ok (Operation.plain next (.natural (left % right)))) := by
  have first : (Int64.ofNat left).toInt = left := Int64.toInt_ofNat_of_lt smallLeft
  have second : (Int64.ofNat right).toInt = right := Int64.toInt_ofNat_of_lt smallRight
  have notZero : Int64.ofNat right ≠ 0 := by
    rw [ne_eq, ← Int64.toInt_inj, second]
    exact Int.natCast_ne_zero.mpr (Nat.ne_of_gt positive)
  have quotient : Number.checked (Int.tdiv left right) = .ok (Int64.ofNat (left / right)) := by
    rw [← Int.ofNat_tdiv]
    exact Number.checked_natural (Nat.lt_of_le_of_lt (Nat.div_le_self left right) smallLeft)
  have remainder : Number.checked (Int.tmod left right) = .ok (Int64.ofNat (left % right)) := by
    rw [← Int.ofNat_tmod]
    exact Number.checked_natural (Nat.lt_of_le_of_lt (Nat.mod_le left right) smallLeft)
  have divided : Number.divideWhole .remainder (Int64.ofNat left) (Int64.ofNat right) =
      .ok (Int64.ofNat (left % right)) := by
    simp only [Number.divideWhole, if_neg notZero, first, second, quotient]
    exact remainder
  simp only [operation, Operation.division, Operation.function₂, Operation.answer?,
    Operation.integer, Datum.natural, bind, Except.bind, divided]
  rfl

/-- `(do ((a left b) (b right (remainder a b))) ((= b 0) a))` -/
def euclidLoop (left right : Nat) (outer : FrameId) : Loop where
  varying := [.mk ⟨"a"⟩ (.natural left) (some (.variable ⟨"b"⟩)),
    .mk ⟨"b"⟩ (.natural right)
      (some (.named "remainder" [.variable ⟨"a"⟩, .variable ⟨"b"⟩] false))]
  test := .named "=" [.variable ⟨"b"⟩, .natural 0] false
  result := some (.variable ⟨"a"⟩)
  commands := []
  outer := outer

/-- The names that the loops know. -/
def loopNames : Bindings :=
  (⟨"remainder"⟩, .procedure (.primitive .remainder)) ::
    (⟨"cons"⟩, .procedure (.primitive .cons)) :: arithmetic

/-- The bindings of a round. -/
def euclidRound (first second : Nat) : Bindings :=
  [(⟨"b"⟩, .natural second), (⟨"a"⟩, .natural first)]

section

variable {left right first second : Nat} {outer frame : FrameId} {scene : Scene}

theorem euclidLoop_last
    (here : scene.store.Sees frame (euclidRound first 0 ++ loopNames)) :
    Passes 2 scene (.round (euclidLoop left right outer) frame) scene
      (.give (.natural first)) := by
  have test : Computes 1 scene frame (euclidLoop left right outer).test (.boolean (0 == 0)) :=
    .equal (here.value rfl) (here.computes rfl 0) (by decide) (by decide)
  exact (Passes.round_true test rfl rfl).trans (here.computes rfl 2)

theorem euclidLoop_step (positive : 0 < second) (smallFirst : first < 2 ^ 63)
    (smallSecond : second < 2 ^ 63)
    (here : scene.store.Sees frame (euclidRound first second ++ loopNames)) :
    Passes 2 scene (.round (euclidLoop left right outer) frame)
      { scene with store := (scene.store.enter outer (euclidRound second (first % second))).2 }
      (.round (euclidLoop left right outer) scene.store.frames.size) := by
  let loop := euclidLoop left right outer
  let entered (bindings : Bindings) : Scene :=
    { scene with store := (scene.store.enter outer bindings).2 }
  have differ : (second == 0) = false := beq_eq_false_iff_ne.mpr (Nat.ne_of_gt positive)
  have test : Computes 1 scene frame loop.test (.boolean (second == 0)) :=
    .equal (here.value rfl) (here.computes rfl 0) smallSecond (by decide)
  rw [differ] at test
  have old (bindings : Bindings) :
      (entered bindings).store.Sees frame (euclidRound first second ++ loopNames) :=
    here.enter_old outer bindings
  have stepFirst (bindings : Bindings) :
      Computes 1 (entered bindings) frame (.variable ⟨"b"⟩) (.natural second) :=
    (old bindings).computes rfl 1
  have stepSecond (bindings : Bindings) :
      Computes 1 (entered bindings) frame
        (.named "remainder" [.variable ⟨"a"⟩, .variable ⟨"b"⟩] false)
        (.natural (first % second)) := by
    have sees := old bindings
    exact .primitive (sees.value rfl)
      (.cons (sees.computes rfl 0) (.cons (sees.computes rfl 0) .nil))
      (Primitive.remainder_naturals positive smallFirst smallSecond _)
  have next := @Passes.nextFrame 1 scene loop frame _
    (.cons (.mk stepFirst) (.cons (.mk stepSecond) .nil))
  exact (Passes.round_false test rfl).trans next

/-- From any round on, the loop finds the divisor. The second number gets smaller each time. -/
theorem euclidLoop_rounds (smallFirst : first < 2 ^ 63) (smallSecond : second < 2 ^ 63)
    (above : scene.store.Sees outer loopNames)
    (here : scene.store.Sees frame (euclidRound first second ++ loopNames)) :
    ∃ after, Passes 2 scene (.round (euclidLoop left right outer) frame) after
      (.give (.natural (first.gcd second))) := by
  induction second using Nat.strongRecOn generalizing first scene frame with
  | ind second induction =>
      rcases Nat.eq_zero_or_pos second with rfl | positive
      · rw [Nat.gcd_zero_right]
        exact ⟨scene, euclidLoop_last here⟩
      · let inside : Scene :=
          { scene with store := (scene.store.enter outer (euclidRound second (first % second))).2 }
        have smaller := Nat.mod_lt first positive
        have step := @euclidLoop_step left right _ _ outer _ _ positive smallFirst smallSecond here
        rcases @induction _ smaller second _ inside smallSecond (Nat.lt_trans smaller smallSecond)
          (above.enter_old outer _) (above.enter _) with ⟨after, rest⟩
        rw [Nat.gcd_comm, Nat.gcd_rec, Nat.gcd_comm]
        exact ⟨after, step.trans rest⟩

theorem euclidLoop_passes (smallLeft : left < 2 ^ 63) (smallRight : right < 2 ^ 63)
    (above : scene.store.Sees outer loopNames) :
    ∃ after, Passes 2 scene (.run (euclidLoop left right outer).code outer) after
      (.give (.natural (left.gcd right))) := by
  let entered (bindings : Bindings) : Scene :=
    { scene with store := (scene.store.enter outer bindings).2 }
  have starts := @Passes.firstFrame 0 scene (euclidLoop left right outer) _
    (.cons (.mk fun bindings => Passes.literal 0 (entered bindings) outer (.natural left))
      (.cons (.mk fun bindings => Passes.literal 0 (entered bindings) outer (.natural right))
        .nil))
  rcases @euclidLoop_rounds left right left right outer _ (entered (euclidRound left right))
    smallLeft smallRight (above.enter_old outer _) (above.enter _) with ⟨after, rounds⟩
  exact ⟨after, (starts.mono (by decide)).trans rounds⟩

end

/-! ## Procedures that remember a number -/

/-- A procedure without parameters whose code is the variable `i`, made where `i` has the
given number. -/
def Store.Recalls (store : Store) (callee : Procedure) (number : Nat) : Prop :=
  ∃ place home, callee = .compound place none ⟨[], none⟩ ∧
    store.Keeps place (.variable ⟨"i"⟩) home [(⟨"i"⟩, .natural number)]

namespace Store.Recalls

variable {store other : Store} {callee : Procedure} {number : Nat}

theorem of_store (recalls : store.Recalls callee number) (frames : other.frames = store.frames)
    (closures : other.closures = store.closures) : other.Recalls callee number := by
  rcases recalls with ⟨place, home, same, keeps⟩
  exact ⟨place, home, same, keeps.of_store frames closures⟩

theorem enter (recalls : store.Recalls callee number) (parent : FrameId) (bindings : Bindings) :
    (store.enter parent bindings).2.Recalls callee number := by
  rcases recalls with ⟨place, home, same, keeps⟩
  exact ⟨place, home, same, keeps.enter parent bindings⟩

theorem close (recalls : store.Recalls callee number) (name : Option Symbol) (formals : Formals)
    (body : Node) (frame : FrameId) :
    (store.close name formals body frame).2.Recalls callee number := by
  rcases recalls with ⟨place, home, same, keeps⟩
  exact ⟨place, home, same, .of_push_old rfl keeps.closure (keeps.sees.of_frames rfl)⟩

theorem define (recalls : store.Recalls callee number) {name : Symbol} (different : name ≠ ⟨"i"⟩)
    (holder : FrameId) (value : Value) :
    (store.define holder name value).Recalls callee number := by
  rcases recalls with ⟨place, home, same, keeps⟩
  have unknown : Bindings.get? [(⟨"i"⟩, .natural number)] name = none := by
    rw [Bindings.get?_cons, if_neg different]
    rfl
  exact ⟨place, home, same, keeps.closure, keeps.sees.define_of_ne unknown holder value⟩

/-- A call gives back the number and leaves behind nothing but its frame. -/
theorem call_passes {scene : Scene} (recalls : scene.store.Recalls callee number)
    (frame : FrameId) :
    ∃ home, Passes 1 scene (.run (.call (.literal (.procedure callee)) [] true) frame)
      { scene with store := (scene.store.enter home []).2 } (.give (.natural number)) := by
  rcases recalls with ⟨place, home, rfl, keeps⟩
  have called := (Passes.literal 0 scene frame (.procedure (.compound place none ⟨[], none⟩))).call
    .nil true
  have inside := keeps.sees.enter []
  exact ⟨home, called.trans ((keeps.call 1 rfl).trans (inside.computes rfl 1))⟩

end Store.Recalls

/-! ## Gathering procedures -/

/-- `(set! procs (cons (lambda () i) procs))` -/
def gatherCommand : Node :=
  .assign ⟨"procs"⟩
    (.named "cons" [.lambda none ⟨[], none⟩ (.variable ⟨"i"⟩), .variable ⟨"procs"⟩] false)

/-- `(do ((i 0 (+ i 1))) ((= i count)) (set! procs (cons (lambda () i) procs)))` -/
def gatherLoop (count : Nat) (outer : FrameId) : Loop where
  varying := [.mk ⟨"i"⟩ (.natural 0) (some (.named "+" [.variable ⟨"i"⟩, .natural 1] false))]
  test := .named "=" [.variable ⟨"i"⟩, .natural count] false
  result := none
  commands := [gatherCommand]
  outer := outer

/-- The store after one more procedure has been made and put in front of a list. -/
def Store.gather (store : Store) (root frame : FrameId) (list : Value) : Store :=
  let (callee, made) := store.close none ⟨[], none⟩ (.variable ⟨"i"⟩) frame
  { made with next := made.next + 1 }.define root ⟨"procs"⟩ (.pair made.next callee list)

theorem Store.Sees.gather {store : Store} {frame : FrameId} {known : Bindings}
    (sees : store.Sees frame known) (unknown : known.get? ⟨"procs"⟩ = none)
    (root home : FrameId) (list : Value) : (store.gather root home list).Sees frame known := by
  let made := (store.close none ⟨[], none⟩ (.variable ⟨"i"⟩) home).2
  let paired : Store := { made with next := made.next + 1 }
  have same : paired.Sees frame known := sees.of_frames rfl
  exact same.define_of_ne unknown root _

/-- At the root `procs` is a list of the given procedures, the one that was made last first.
Each of them remembers its number. -/
structure Store.Gathers (store : Store) (root : FrameId) (list : Value)
    (procedures : List Procedure) : Prop where
  sees : store.Sees root loopNames
  bound : store.bound? root ⟨"procs"⟩ = some list
  items : list.items? = some (procedures.map .procedure)
  recalls : List.Forall₂ store.Recalls procedures (List.range procedures.length).reverse

namespace Store.Gathers

variable {store other : Store} {root frame : FrameId} {list : Value} {procedures : List Procedure}

theorem of_store (gathers : store.Gathers root list procedures)
    (frames : other.frames = store.frames) (closures : other.closures = store.closures) :
    other.Gathers root list procedures where
  sees := gathers.sees.of_frames frames
  bound := by
    rw [bound?, frames]
    exact gathers.bound
  items := gathers.items
  recalls := gathers.recalls.imp fun _ _ recalls => recalls.of_store frames closures

theorem enter (gathers : store.Gathers root list procedures) (parent : FrameId)
    (bindings : Bindings) : (store.enter parent bindings).2.Gathers root list procedures where
  sees := gathers.sees.enter_old parent bindings
  bound := by
    rw [bound?_enter_old gathers.sees.inStore]
    exact gathers.bound
  items := gathers.items
  recalls := gathers.recalls.imp fun _ _ recalls => recalls.enter parent bindings

/-- The numbers count down from the front of the list. -/
theorem recalls_get (gathers : store.Gathers root list procedures)
    (index : Fin procedures.length) :
    store.Recalls (procedures.get index) (procedures.length - 1 - index) := by
  have inRange : index < (List.range procedures.length).reverse.length := by
    rw [List.length_reverse, List.length_range]
    exact index.isLt
  have recalls := gathers.recalls.get index.isLt inRange
  simpa using recalls

theorem gather (gathers : store.Gathers root list procedures)
    (here : store.Sees frame [(⟨"i"⟩, .natural procedures.length)]) :
    let callee : Procedure := .compound store.closures.size none ⟨[], none⟩
    (store.gather root frame list).Gathers root (.pair store.next (.procedure callee) list)
      (callee :: procedures) := by
  intro callee
  let made := (store.close none ⟨[], none⟩ (.variable ⟨"i"⟩) frame).2
  let paired : Store := { made with next := made.next + 1 }
  have different : (⟨"procs"⟩ : Symbol) ≠ ⟨"i"⟩ := by decide
  have recallsNew : paired.Recalls callee procedures.length :=
    ⟨_, frame, rfl, .of_push rfl (here.of_frames rfl)⟩
  have recallsOld : List.Forall₂ paired.Recalls procedures
      (List.range procedures.length).reverse :=
    gathers.recalls.imp fun _ _ recalls =>
      (recalls.close none ⟨[], none⟩ (.variable ⟨"i"⟩) frame).of_store rfl rfl
  refine ⟨gathers.sees.gather rfl root frame list, ?_, ?_, ?_⟩
  · rw [Store.gather, bound?_define]
    exact if_pos ⟨rfl, rfl, gathers.sees.inStore⟩
  · rw [Datum.items?, gathers.items]
    rfl
  · rw [List.length_cons, List.range_succ, List.reverse_append]
    exact .cons (recallsNew.define different root _)
      (recallsOld.imp fun _ _ recalls => recalls.define different root _)

end Store.Gathers

/-- A round of the loop is about to start, as many rounds after the first one as there are
procedures. -/
structure Store.Gathering (store : Store) (root frame : FrameId) (list : Value)
    (procedures : List Procedure) : Prop where
  gathers : store.Gathers root list procedures
  here : store.Sees frame ((⟨"i"⟩, .natural procedures.length) :: loopNames)
  nearest : store.nearest? ⟨"procs"⟩ frame = some root

theorem Store.Gathers.nextRound {store : Store} {root : FrameId} {list : Value}
    {procedures : List Procedure} (gathers : store.Gathers root list procedures) :
    (store.enter root [(⟨"i"⟩, .natural procedures.length)]).2.Gathering root store.frames.size
      list procedures where
  gathers := gathers.enter root _
  here := gathers.sees.enter _
  nearest := (nearest?_enter_new gathers.sees.inStore rfl).trans (nearest?_of_bound? gathers.bound)

namespace Store.Gathering

variable {count left : Nat} {outer frame : FrameId} {scene : Scene} {list : Value}
  {procedures : List Procedure}

theorem command_passes (gathering : scene.store.Gathering outer frame list procedures) :
    ∃ value, Passes 2 scene (.run gatherCommand frame)
      { scene with store := scene.store.gather outer frame list } (.give value) := by
  let operation : Value := .procedure (.primitive .cons)
  let callee := (scene.store.close none ⟨[], none⟩ (.variable ⟨"i"⟩) frame).1
  let made : Scene :=
    { scene with store := (scene.store.close none ⟨[], none⟩ (.variable ⟨"i"⟩) frame).2 }
  let paired : Scene :=
    { made with store := { made.store with next := made.store.next + 1 } }
  have nearest : made.store.nearest? ⟨"procs"⟩ frame = some outer :=
    nearest?_of_frames gathering.nearest rfl
  have stillNearest : paired.store.nearest? ⟨"procs"⟩ frame = some outer :=
    nearest?_of_frames gathering.nearest rfl
  have bound : made.store.get? frame ⟨"procs"⟩ = some list := by
    rw [get?_of_nearest? nearest]
    exact gathering.gathers.bound
  have name : Computes 0 scene frame (.variable ⟨"cons"⟩) operation :=
    gathering.here.computes rfl 0
  have first := (Passes.lambda 0 scene none ⟨[], none⟩ (.variable ⟨"i"⟩) frame).operand operation
    [] [.variable ⟨"procs"⟩] false
  have second := (Passes.name 0 bound).operand operation [callee] [] false
  have pair := (name.operator _ false).trans
    (first.trans (second.trans (Passes.cons 1 made callee list false)))
  exact ⟨_, pair.assign stillNearest⟩

/-- The procedure made in this round keeps its frame, as the next round has another one. -/
theorem step (gathering : scene.store.Gathering outer frame list procedures)
    (small : count < 2 ^ 63) (more : procedures.length < count) :
    let gathered := scene.store.gather outer frame list
    Passes 3 scene (.round (gatherLoop count outer) frame)
      { scene with
        store := (gathered.enter outer [(⟨"i"⟩, .natural (procedures.length + 1))]).2 }
      (.round (gatherLoop count outer) gathered.frames.size) := by
  intro gathered
  let after : Scene := { scene with store := gathered }
  let entered (bindings : Bindings) : Scene :=
    { scene with store := (gathered.enter outer bindings).2 }
  have here := gathering.here
  have differ : (procedures.length == count) = false := beq_eq_false_iff_ne.mpr (Nat.ne_of_lt more)
  have test : Computes 1 scene frame (gatherLoop count outer).test
      (.boolean (procedures.length == count)) :=
    .equal (here.value rfl) (here.computes rfl 0) (Nat.lt_trans more small) small
  rw [differ] at test
  rcases gathering.command_passes with ⟨value, assigned⟩
  -- The command changes `procs` alone, so that `i` is still the number of this round.
  have sum (bindings : Bindings) :
      Computes 1 (entered bindings) frame (.named "+" [.variable ⟨"i"⟩, .natural 1] false)
        (.natural (procedures.length + 1)) := by
    have old := (here.gather rfl outer frame list).enter_old outer bindings
    exact .add_one (old.value rfl) (old.computes rfl 0) (by omega)
  have next := @Passes.nextFrame 1 after (gatherLoop count outer) frame _ (.cons (.mk sum) .nil)
  have round := (Passes.round_false test rfl).mono (show 2 ≤ 3 by decide)
  exact round.trans ((assigned.loopCommand (gatherLoop count outer) []).trans
    (next.mono (by decide)))

theorem last (gathering : scene.store.Gathering outer frame list procedures)
    (small : procedures.length < 2 ^ 63) :
    Passes 3 scene (.round (gatherLoop procedures.length outer) frame) scene (.give .nil) := by
  have here := gathering.here
  have test : Computes 1 scene frame (gatherLoop procedures.length outer).test
      (.boolean (procedures.length == procedures.length)) :=
    .equal (here.value rfl) (here.computes rfl 0) small small
  rw [beq_self_eq_true] at test
  exact (Passes.round_done test rfl rfl).mono (by decide)

theorem rounds (gathering : scene.store.Gathering outer frame list procedures)
    (small : count < 2 ^ 63) (total : procedures.length + left = count) :
    ∃ after : Scene,
      (∃ list procedures, procedures.length = count ∧ after.store.Gathers outer list procedures) ∧
      Passes 3 scene (.round (gatherLoop count outer) frame) after (.give .nil) := by
  induction left generalizing scene frame list procedures with
  | zero =>
      have same : procedures.length = count := total
      subst same
      exact ⟨scene, ⟨list, procedures, rfl, gathering.gathers⟩, gathering.last small⟩
  | succ left induction =>
      have gathers := gathering.gathers.gather (gathering.here.single rfl)
      let next : Scene :=
        { scene with store := ((scene.store.gather outer frame list).enter outer
            [(⟨"i"⟩, .natural (procedures.length + 1))]).2 }
      have longer : procedures.length + 1 + left = count := by omega
      rcases @induction _ next _ _ gathers.nextRound longer with ⟨after, gathered, rest⟩
      exact ⟨after, gathered, (gathering.step small (by omega)).trans rest⟩

end Store.Gathering

theorem gatherLoop_passes {count : Nat} (small : count < 2 ^ 63) {scene : Scene} {outer : FrameId}
    (gathers : scene.store.Gathers outer .nil []) :
    ∃ after : Scene,
      (∃ list procedures, procedures.length = count ∧ after.store.Gathers outer list procedures) ∧
      Passes 3 scene (.run (gatherLoop count outer).code outer) after (.give .nil) := by
  let entered : Scene :=
    { scene with store := (scene.store.enter outer [(⟨"i"⟩, .natural 0)]).2 }
  have starts := @Passes.firstFrame 0 scene (gatherLoop count outer) _
    (.cons (.mk fun bindings => Passes.literal 0 _ outer (.natural 0)) .nil)
  have gathering : entered.store.Gathering outer scene.store.frames.size .nil [] :=
    gathers.nextRound
  rcases gathering.rounds small (Nat.zero_add count) with ⟨after, gathered, rounds⟩
  exact ⟨after, gathered, (starts.mono (by decide)).trans rounds⟩

/-! ## Texts -/

open Source

theorem euclid_denotes {left right : Nat} (smallLeft : left < 2 ^ 63) (smallRight : right < 2 ^ 63)
    (outer : FrameId) :
    Denotes ("(do ((a " ++ toString left ++ " b) (b " ++ toString right ++
      " (remainder a b))) ((= b 0) a))") (euclidLoop left right outer).code := by
  have readableLeft := Datum.natural_readable smallLeft
  have readableRight := Datum.natural_readable smallRight
  have digitsLeft := Datum.written_natural smallLeft
  have digitsRight := Datum.written_natural smallRight
  refine .of_written
    (list [name "do", list [list [name "a", .natural left, name "b"],
        list [name "b", .natural right, list [name "remainder", name "a", name "b"]]],
      list [list [name "=", name "b", .natural 0], name "a"]]) ?_ rfl ?_ fun next => rfl
  · simp +decide [list, name, Datum.Readable, Datum.zero_readable, readableLeft, readableRight]
  · simp [list, name, Datum.written, Datum.writtenRest, Datum.atomText, Datum.written_zero,
      digitsLeft, digitsRight]

theorem noProcedures_denotes : Denotes "(define procs '())" (.define ⟨"procs"⟩ (.quote .nil)) :=
  ⟨list [name "define", name "procs", quoted .nil], by cbv, fun next => rfl⟩

theorem gather_denotes {count : Nat} (small : count < 2 ^ 63) (outer : FrameId) :
    Denotes ("(do ((i 0 (+ i 1))) ((= i " ++ toString count ++
      ")) (set! procs (cons (lambda () i) procs)))") (gatherLoop count outer).code := by
  have readable := Datum.natural_readable small
  have digits := Datum.written_natural small
  refine .of_written
    (list [name "do", list [list [name "i", .natural 0, list [name "+", name "i", .natural 1]]],
      list [list [name "=", name "i", .natural count]],
      list [name "set!", name "procs",
        list [name "cons", list [name "lambda", .nil, name "i"], name "procs"]]])
    ?_ rfl ?_ fun next => rfl
  · simp +decide [list, name, Datum.Readable, Datum.zero_readable, Datum.one_readable, readable]
  · simp [list, name, Datum.written, Datum.writtenRest, Datum.atomText, Datum.written_zero,
      Datum.written_one, digits]

/-! ## Sessions -/

theorem Store.standard_sees_loopNames : standard.Sees 0 loopNames :=
  (standard_sees.cons (by cbv)).cons (by cbv)

namespace Session

theorem euclid_returns {session : Session} {left right : Nat}
    (known : session.world.store.Sees session.root loopNames) (smallLeft : left < 2 ^ 63)
    (smallRight : right < 2 ^ 63) (fits : 2 < session.limit) :
    session.Returns ["(do ((a " ++ toString left ++ " b) (b " ++ toString right ++
      " (remainder a b))) ((= b 0) a))"] (.natural (left.gcd right)) :=
  (euclid_denotes smallLeft smallRight session.root).returns
    (fun _ frames _ => euclidLoop_passes smallLeft smallRight (known.of_frames frames)) fits

/-- Procedures are called without arguments one after the other, each call with its value. -/
inductive Calls : Session → List (Procedure × Value) → Session → Prop
  | nil (session : Session) : Calls session [] session
  | cons {session middle after : Session} {callee : Procedure} {value : Value}
      {calls : List (Procedure × Value)} :
      (∃ least, ∀ fuel ≥ least, session.evalDatum fuel (.pair () (.procedure callee) .nil) =
        some (.ok value, middle)) →
      Calls middle calls after → Calls session ((callee, value) :: calls) after

/-- After a call all procedures remember what they remembered before. -/
theorem call_recalled {session : Session} {callee : Procedure} {number : Nat}
    (recalls : session.world.store.Recalls callee number) (fits : 1 < session.limit) :
    ∃ world : World,
      (∀ {other known}, session.world.store.Recalls other known →
        world.store.Recalls other known) ∧
      ∃ least, ∀ fuel ≥ least, session.evalDatum fuel (.pair () (.procedure callee) .nil) =
        some (.ok (.natural number), { session with world := world }) := by
  let datum : Source := .pair () (.procedure callee) .nil
  let held := (session.holding datum).world.scene
  have here : held.store.Recalls callee number := recalls.of_store rfl rfl
  rcases here.call_passes session.root with ⟨home, passes⟩
  -- A procedure in a datum stands for itself.
  have compiled : Node.ofDatum (session.placed datum) =
      .ok (.call (.literal (.procedure callee)) [] true) := rfl
  rcases evalDatum_of_passes compiled passes fits with ⟨world, atEnd, evaluated⟩
  refine ⟨world, ?_, evaluated⟩
  intro other known remembered
  have before : held.store.Recalls other known := remembered.of_store rfl rfl
  rw [show world.store = (held.store.enter home []).2 from congrArg Scene.store atEnd]
  exact before.enter home []

theorem calls_recalled {session : Session} {calls : List (Procedure × Nat)}
    (recalls : ∀ call ∈ calls, session.world.store.Recalls call.1 call.2)
    (fits : 1 < session.limit) :
    ∃ after, session.Calls (calls.map fun call => (call.1, .natural call.2)) after := by
  induction calls generalizing session with
  | nil => exact ⟨session, .nil session⟩
  | cons call calls induction =>
      have ⟨first, others⟩ := List.forall_mem_cons.mp recalls
      rcases call_recalled first fits with ⟨world, kept, evaluated⟩
      let middle : Session := { session with world := world }
      rcases @induction middle (fun call member => kept (others call member)) fits with
        ⟨after, rest⟩
      exact ⟨after, .cons evaluated rest⟩

theorem gathers {session : Session} {count : Nat}
    (known : session.world.store.Sees session.root loopNames) (small : count < 2 ^ 63)
    (fits : 3 < session.limit) :
    ∃ world list procedures, procedures.length = count ∧
      world.store.Gathers session.root list procedures ∧
      session.Answers [("(define procs '())", .nil),
        ("(do ((i 0 (+ i 1))) ((= i " ++ toString count ++
          ")) (set! procs (cons (lambda () i) procs)))", .nil)]
        { session with world := world } := by
  have none (scene : Scene) (frames : scene.store.frames = session.world.store.frames)
      (_ : scene.store.closures = session.world.store.closures) :
      ∃ after : Scene, after.store.Gathers session.root .nil [] ∧
        Passes 1 scene (.run (.define ⟨"procs"⟩ (.quote .nil)) session.root) after
          (.give .nil) := by
    have sees := known.of_frames frames
    refine ⟨_, ⟨sees.define_of_ne rfl session.root .nil, ?_, rfl, .nil⟩,
      (Passes.quote 0 scene session.root .nil).define ⟨"procs"⟩⟩
    rw [Store.bound?_define, if_pos ⟨rfl, rfl, sees.inStore⟩]
  rcases noProcedures_denotes.evaluates _ none (by omega) with ⟨middle, empty, defined⟩
  let begun : Session := { session with world := middle }
  have rounds (scene : Scene) (frames : scene.store.frames = begun.world.store.frames)
      (closures : scene.store.closures = begun.world.store.closures) :=
    gatherLoop_passes small (empty.of_store frames closures)
  rcases (gather_denotes small session.root).evaluates _ rounds fits with
    ⟨world, ⟨list, procedures, length, gathered⟩, looped⟩
  exact ⟨world, list, procedures, length, gathered, .cons defined (.cons looped (.nil _))⟩

end Session

/-- The steps of a loop take effect at once, and its rounds have frames of their own. So
`(do ((a left b) (b right (remainder a b))) ((= b 0) a))` has the greatest common divisor as
its value, under every limit from three on. The procedures that
`(do ((i 0 (+ i 1))) ((= i count)) (set! procs (cons (lambda () i) procs)))` makes remember
the numbers of their rounds, whenever and in whatever order they are called. -/
theorem loop_rounds_keep_apart {left right limit count : Nat} (smallLeft : left ≤ 2 ^ 63 - 1)
    (smallRight : right ≤ 2 ^ 63 - 1) (enough : 3 ≤ limit) (small : count ≤ 2 ^ 63 - 1) :
    ({ Session.standard with limit := limit } : Session).Returns
      ["(do ((a " ++ toString left ++ " b) (b " ++ toString right ++
        " (remainder a b))) ((= b 0) a))"] (.natural (left.gcd right)) ∧
    ∃ session, Session.standard.Answers [("(define procs '())", .nil),
        ("(do ((i 0 (+ i 1))) ((= i " ++ toString count ++
          ")) (set! procs (cons (lambda () i) procs)))", .nil)] session ∧
      ∃ procedures : List Procedure, procedures.length = count ∧
        (session.get? ⟨"procs"⟩).bind Datum.items? = some (procedures.map .procedure) ∧
        (∀ callee ∈ procedures, ∃ place, callee = .compound place none ⟨[], none⟩) ∧
        ∀ indices : List (Fin procedures.length), ∃ after, session.Calls
          (indices.map fun index => (procedures.get index, .natural (count - 1 - index)))
          after := by
  refine ⟨Session.euclid_returns Store.standard_sees_loopNames (by omega) (by omega) enough, ?_⟩
  rcases @Session.gathers Session.standard count Store.standard_sees_loopNames (by omega)
    (by decide) with ⟨world, list, procedures, rfl, gathered, answers⟩
  refine ⟨_, answers, procedures, rfl, ?_, ?_, ?_⟩
  · rw [Session.get?, Store.get?_of_bound? gathered.bound]
    exact gathered.items
  · intro callee member
    rcases List.get_of_mem member with ⟨index, rfl⟩
    rcases gathered.recalls_get index with ⟨place, _, same, _⟩
    exact ⟨place, same⟩
  · intro indices
    let calls := indices.map fun index =>
      (procedures.get index, procedures.length - 1 - index.val)
    have recalls : ∀ call ∈ calls, world.store.Recalls call.1 call.2 := by
      intro call member
      rcases List.mem_map.mp member with ⟨index, _, rfl⟩
      exact gathered.recalls_get index
    have room : 1 < Session.standard.limit := by decide
    let session : Session := { Session.standard with world := world }
    have answered := @Session.calls_recalled session calls recalls room
    rwa [List.map_map] at answered

/-- A divisor of the largest integer within the least limit, and the procedures of three
rounds, of which the middle one is called twice. -/
theorem loop_rounds_keep_apart_three :
    ({ Session.standard with limit := 3 } : Session).Returns
      ["(do ((a 9223372036854775807 b) (b 21 (remainder a b))) ((= b 0) a))"]
      (.number (.integer 7)) ∧
    ∃ session, Session.standard.Answers [("(define procs '())", .nil),
        ("(do ((i 0 (+ i 1))) ((= i 3)) (set! procs (cons (lambda () i) procs)))", .nil)]
        session ∧
      ∃ first second third, (session.get? ⟨"procs"⟩).bind Datum.items? =
          some [.procedure first, .procedure second, .procedure third] ∧
        ∃ after, session.Calls [(second, .number (.integer 1)), (third, .number (.integer 0)),
          (first, .number (.integer 2)), (second, .number (.integer 1))] after := by
  rcases @loop_rounds_keep_apart (2 ^ 63 - 1) 21 3 3 (Nat.le_refl _) (by decide) (Nat.le_refl _)
    (by decide) with ⟨divisor, session, answers, procedures, length, items, _, called⟩
  rcases List.length_eq_three.mp length with ⟨first, second, third, rfl⟩
  exact ⟨divisor, session, answers, first, second, third, items, called [1, 2, 0, 1]⟩

end SmallScheme
