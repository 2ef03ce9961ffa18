import SmallScheme.Proofs.Counting
import SmallScheme.Proofs.RoundTrip
import SmallScheme.Proofs.Sessions

namespace SmallScheme

/-! # Loops in constant depth

Programs that count by a loop, by a procedure that calls itself, by two procedures that call
each other and by the receiver of a clause. Whatever they count to, two levels beside the
first one are enough for them. -/

/-! ## A loop -/

/-- `(do ((i 0 (+ i 1))) ((= i count) i))` -/
def countingLoop (count : Nat) (outer : FrameId) : Loop where
  varying := [.mk ⟨"i"⟩ (.natural 0) (some (.named "+" [.variable ⟨"i"⟩, .natural 1] false))]
  test := .named "=" [.variable ⟨"i"⟩, .natural count] false
  result := some (.variable ⟨"i"⟩)
  commands := []
  outer := outer

/-- A round is about to start with so many rounds behind it. -/
def Counting (count : Nat) (outer : FrameId) (left : Nat) (scene : Scene) (course : Course) :
    Prop :=
  ∃ frame index, course = .round (countingLoop count outer) frame ∧ index + left = count ∧
    scene.store.Sees outer arithmetic ∧
    scene.store.Sees frame ((⟨"i"⟩, .natural index) :: arithmetic)

namespace Counting

variable {count left : Nat} {outer : FrameId} {scene : Scene} {course : Course}

theorem last (small : count < 2 ^ 63) (counting : Counting count outer 0 scene course) :
    ∃ after, Passes 2 scene course after (.give (.natural count)) := by
  rcases counting with ⟨frame, index, rfl, total, _, here⟩
  have same : index = count := total
  subst same
  have test : Computes 1 scene frame (countingLoop index outer).test (.boolean (index == index)) :=
    .equal (here.value rfl) (here.computes rfl 0) small small
  rw [beq_self_eq_true] at test
  exact ⟨scene, (Passes.round_true test rfl rfl).trans (here.computes rfl 2)⟩

theorem step (small : count < 2 ^ 63) (counting : Counting count outer (left + 1) scene course) :
    ∃ middle next, Passes 2 scene course middle next ∧ Counting count outer left middle next := by
  rcases counting with ⟨frame, index, rfl, total, above, here⟩
  have differ : (index == count) = false := by
    rw [beq_eq_false_iff_ne]
    omega
  have test : Computes 1 scene frame (countingLoop count outer).test (.boolean (index == count)) :=
    .equal (here.value rfl) (here.computes rfl 0) (by omega) small
  rw [differ] at test
  let entered : Scene := { scene with store := (scene.store.enter outer []).2 }
  have stillHere : entered.store.Sees frame _ := here.enter_old outer []
  have sum : Computes 1 entered frame (.named "+" [.variable ⟨"i"⟩, .natural 1] false)
      (.natural (index + 1)) :=
    .add_one (stillHere.value rfl) (stillHere.computes rfl 0) (by omega)
  -- The next round has a frame of its own, and `i` is bound in it.
  have bound := Passes.loopStep (countingLoop count outer) sum ⟨"i"⟩ (.natural 0) []
    scene.store.frames.size
  rw [Store.define_enter] at bound
  refine ⟨{ scene with store := (scene.store.enter outer [(⟨"i"⟩, .natural (index + 1))]).2 },
    .round (countingLoop count outer) scene.store.frames.size, ?_,
    scene.store.frames.size, index + 1, rfl, by omega, above.enter_old outer _, above.enter _⟩
  exact (Passes.round_false test rfl).trans ((Passes.nextRound 2 scene _ frame).trans
    (bound.trans (Passes.round_again 2 _ _ frame _)))

end Counting

/-- The loop counts, wherever arithmetic is known. -/
theorem countingLoop_passes {count : Nat} (small : count < 2 ^ 63) {scene : Scene}
    {outer : FrameId} (known : scene.store.Sees outer arithmetic) :
    ∃ after, Passes 2 scene (.run (countingLoop count outer).code outer) after
      (.give (.natural count)) := by
  have zero : Computes 0 { scene with store := (scene.store.enter outer []).2 } outer
      (.natural 0) (.natural 0) :=
    Passes.literal 0 _ outer _
  have bound := Passes.loopInit (countingLoop count outer) zero ⟨"i"⟩
    (some (.named "+" [.variable ⟨"i"⟩, .natural 1] false)) [] scene.store.frames.size
  rw [Store.define_enter] at bound
  have starts := (Passes.loop 1 scene (countingLoop count outer)).trans bound
  have counting : Counting count outer count
      { scene with store := (scene.store.enter outer [(⟨"i"⟩, .natural 0)]).2 }
      (.round (countingLoop count outer) scene.store.frames.size) :=
    ⟨_, 0, rfl, Nat.zero_add count, known.enter_old outer _, known.enter _⟩
  rcases Passes.iterate (Counting.last small) (Counting.step small) counting with ⟨after, rest⟩
  exact ⟨after, (starts.mono (by decide)).trans rest⟩

/-! ## Counting up -/

/-- `(if (= i count) i (loop (+ i 1)))` -/
def upBody (count : Nat) : Node :=
  .branch (.named "=" [.variable ⟨"i"⟩, .natural count] false) (.variable ⟨"i"⟩)
    (some (.named "loop" [.named "+" [.variable ⟨"i"⟩, .natural 1] false] true))

/-- What is known inside of the procedure `loop`. -/
def upKnown (place : Place) : Bindings :=
  (⟨"loop"⟩, .procedure (.compound place none ⟨[⟨"i"⟩], none⟩)) :: arithmetic

def CountingUp (count : Nat) (place : Place) (home : FrameId) (left : Nat) (scene : Scene)
    (course : Course) : Prop :=
  ∃ frame index, course = .run (upBody count) frame ∧ index + left = count ∧
    scene.store.Keeps place (upBody count) home (upKnown place) ∧
    scene.store.Sees frame ((⟨"i"⟩, .natural index) :: upKnown place)

namespace CountingUp

variable {count left : Nat} {place : Place} {home : FrameId} {scene : Scene} {course : Course}

theorem last (small : count < 2 ^ 63) (counting : CountingUp count place home 0 scene course) :
    ∃ after, Passes 2 scene course after (.give (.natural count)) := by
  rcases counting with ⟨frame, index, rfl, total, _, here⟩
  have same : index = count := total
  subst same
  have test : Computes 1 scene frame (.named "=" [.variable ⟨"i"⟩, .natural index] false)
      (.boolean (index == index)) :=
    .equal (here.value rfl) (here.computes rfl 0) small small
  rw [beq_self_eq_true] at test
  exact ⟨scene, (Passes.branch_true test rfl).trans (here.computes rfl 2)⟩

theorem step (small : count < 2 ^ 63)
    (counting : CountingUp count place home (left + 1) scene course) :
    ∃ middle next, Passes 2 scene course middle next ∧
      CountingUp count place home left middle next := by
  rcases counting with ⟨frame, index, rfl, total, keeps, here⟩
  have differ : (index == count) = false := by
    rw [beq_eq_false_iff_ne]
    omega
  have test : Computes 1 scene frame (.named "=" [.variable ⟨"i"⟩, .natural count] false)
      (.boolean (index == count)) :=
    .equal (here.value rfl) (here.computes rfl 0) (by omega) small
  rw [differ] at test
  have sum : Computes 1 scene frame (.named "+" [.variable ⟨"i"⟩, .natural 1] false)
      (.natural (index + 1)) :=
    .add_one (here.value rfl) (here.computes rfl 0) (by omega)
  have callee : scene.store.get? frame ⟨"loop"⟩ =
      some (.procedure (.compound place none ⟨[⟨"i"⟩], none⟩)) :=
    here.value rfl
  have called := keeps.named callee (.cons sum .nil) rfl
  refine ⟨_, _, (Passes.branch_false test rfl).trans called, ?_⟩
  exact ⟨_, index + 1, rfl, by omega, keeps.enter home _, keeps.sees.enter _⟩

end CountingUp

/-- `(let loop ((i 0)) (if (= i count) i (loop (+ i 1))))` -/
def upCode (count : Nat) : Node :=
  .call
    (.letrec [(⟨"loop"⟩, .lambda none ⟨[⟨"i"⟩], none⟩ (upBody count))] (.variable ⟨"loop"⟩))
    [.natural 0] true

/-- A procedure that is made in a new frame, where a name is bound to it. -/
def Store.tie (store : Store) (outer : FrameId) (name : Symbol) (formals : Formals)
    (body : Node) : Store :=
  let callee : Value := .procedure (.compound store.closures.size none formals)
  ((store.enter outer [(name, callee)]).2.close none formals body store.frames.size).2

theorem Store.Sees.tie {store : Store} {outer : FrameId} {known : Bindings}
    (sees : store.Sees outer known) (name : Symbol) (formals : Formals) (body : Node) :
    (store.tie outer name formals body).Sees store.frames.size
      ((name, .procedure (.compound store.closures.size none formals)) :: known) := by
  let callee : Value := .procedure (.compound store.closures.size none formals)
  have same : (store.tie outer name formals body).frames =
      (store.enter outer [(name, callee)]).2.frames := rfl
  exact (sees.enter _).of_frames same

theorem Passes.letrec_lambda (room : Nat) (scene : Scene) (outer : FrameId) (name : Symbol)
    (formals : Formals) (code body : Node) :
    Passes (room + 1) scene (.run (.letrec [(name, .lambda none formals code)] body) outer)
      { scene with store := scene.store.tie outer name formals code }
      (.run body scene.store.frames.size) := by
  let inner := scene.store.frames.size
  let callee : Value := .procedure (.compound scene.store.closures.size none formals)
  have bound : Passes (room + 1) scene
      (.run (.letrec [(name, .lambda none formals code)] body) outer)
      { scene with
        store := (((scene.store.child outer).2.define inner name .nil).define inner name
          callee).close none formals code inner |>.2 }
      (.run body inner) :=
    Passes.letrec (Passes.lambda room _ none formals code inner) body
  have replaced : Bindings.insert (Bindings.insert [] name .nil) name callee =
      [(name, callee)] := by
    simp [Bindings.insert, Bindings.binds, Bindings.get?]
  have child : (scene.store.child outer).2 = (scene.store.enter outer []).2 := rfl
  rw [child, Store.define_enter, Store.define_enter, replaced] at bound
  exact bound

theorem upCode_passes {count : Nat} (small : count < 2 ^ 63) {scene : Scene}
    {outer : FrameId} (known : scene.store.Sees outer arithmetic) :
    ∃ after, Passes 2 scene (.run (upCode count) outer) after (.give (.natural count)) := by
  let place := scene.store.closures.size
  let inner := scene.store.frames.size
  let tied : Scene :=
    { scene with store := scene.store.tie outer ⟨"loop"⟩ ⟨[⟨"i"⟩], none⟩ (upBody count) }
  have sees : tied.store.Sees inner (upKnown place) := known.tie _ _ _
  have keeps : tied.store.Keeps place (upBody count) inner (upKnown place) :=
    ⟨Array.getElem?_push_size, sees⟩
  have operator := (Passes.letrec_lambda 0 scene outer ⟨"loop"⟩ ⟨[⟨"i"⟩], none⟩ (upBody count)
    (.variable ⟨"loop"⟩)).trans (sees.computes rfl 1)
  have zero : Computes 1 tied outer (.natural 0) (.natural 0) := Passes.literal 1 _ outer _
  have called := (Passes.call operator (.cons zero .nil) true).trans (keeps.call 2 rfl)
  have counting : CountingUp count place inner count
      { tied with store := (tied.store.enter inner [(⟨"i"⟩, .natural 0)]).2 }
      (.run (upBody count) tied.store.frames.size) :=
    ⟨_, 0, rfl, Nat.zero_add count, keeps.enter inner _, keeps.sees.enter _⟩
  rcases Passes.iterate (CountingUp.last small) (CountingUp.step small) counting with ⟨after, rest⟩
  exact ⟨after, called.trans rest⟩

/-! ## Counting down -/

/-- `(if (= n 0) acc (count (- n 1) (+ acc 1)))` -/
def downBody : Node :=
  .branch (.named "=" [.variable ⟨"n"⟩, .natural 0] false) (.variable ⟨"acc"⟩)
    (some (.named "count" [.named "-" [.variable ⟨"n"⟩, .natural 1] false,
      .named "+" [.variable ⟨"acc"⟩, .natural 1] false] true))

/-- What is known inside of the procedure `count`. -/
def downKnown (place : Place) : Bindings :=
  (⟨"count"⟩, .procedure (.compound place (some ⟨"count"⟩) ⟨[⟨"n"⟩, ⟨"acc"⟩], none⟩)) :: arithmetic

def CountingDown (count : Nat) (place : Place) (home : FrameId) (left : Nat) (scene : Scene)
    (course : Course) : Prop :=
  ∃ frame done, course = .run downBody frame ∧ done + left = count ∧
    scene.store.Keeps place downBody home (downKnown place) ∧
    scene.store.Sees frame ((⟨"acc"⟩, .natural done) :: (⟨"n"⟩, .natural left) :: downKnown place)

namespace CountingDown

variable {count left : Nat} {place : Place} {home : FrameId} {scene : Scene} {course : Course}

theorem last (counting : CountingDown count place home 0 scene course) :
    ∃ after, Passes 2 scene course after (.give (.natural count)) := by
  rcases counting with ⟨frame, done, rfl, rfl, _, here⟩
  have test : Computes 1 scene frame (.named "=" [.variable ⟨"n"⟩, .natural 0] false)
      (.boolean (0 == 0)) :=
    .equal (here.value rfl) (here.computes rfl 0) (by decide) (by decide)
  exact ⟨scene, (Passes.branch_true test rfl).trans (here.computes rfl 2)⟩

theorem step (small : count < 2 ^ 63)
    (counting : CountingDown count place home (left + 1) scene course) :
    ∃ middle next, Passes 2 scene course middle next ∧
      CountingDown count place home left middle next := by
  rcases counting with ⟨frame, done, rfl, total, keeps, here⟩
  have test : Computes 1 scene frame (.named "=" [.variable ⟨"n"⟩, .natural 0] false)
      (.boolean (left + 1 == 0)) :=
    .equal (here.value rfl) (here.computes rfl 0) (by omega) (by decide)
  have difference : Computes 1 scene frame (.named "-" [.variable ⟨"n"⟩, .natural 1] false)
      (.natural left) :=
    .subtract_one (here.value rfl) (here.computes rfl 0) (by omega)
  have sum : Computes 1 scene frame (.named "+" [.variable ⟨"acc"⟩, .natural 1] false)
      (.natural (done + 1)) :=
    .add_one (here.value rfl) (here.computes rfl 0) (by omega)
  have callee : scene.store.get? frame ⟨"count"⟩ =
      some (.procedure (.compound place (some ⟨"count"⟩) ⟨[⟨"n"⟩, ⟨"acc"⟩], none⟩)) :=
    here.value rfl
  have called := keeps.named callee (.cons difference (.cons sum .nil)) rfl
  refine ⟨_, _, (Passes.branch_false test rfl).trans called, ?_⟩
  exact ⟨_, done + 1, rfl, by omega, keeps.enter home _, keeps.sees.enter _⟩

end CountingDown

/-- `(count n 0)` -/
theorem countCall_passes {count : Nat} (small : count < 2 ^ 63) {scene : Scene} {place : Place}
    {root : FrameId} (keeps : scene.store.Keeps place downBody root (downKnown place)) :
    ∃ after, Passes 2 scene (.run (.named "count" [.natural count, .natural 0] true) root) after
      (.give (.natural count)) := by
  have operands : List.Forall₂ (Computes 1 scene root) [.natural count, .natural 0]
      [.natural count, .natural 0] :=
    .cons (Passes.literal 1 scene root _) (.cons (Passes.literal 1 scene root _) .nil)
  have callee : scene.store.get? root ⟨"count"⟩ =
      some (.procedure (.compound place (some ⟨"count"⟩) ⟨[⟨"n"⟩, ⟨"acc"⟩], none⟩)) :=
    keeps.sees.value rfl
  have called := keeps.named callee operands rfl
  have counting : CountingDown count place root count
      { scene with
        store := (scene.store.enter root [(⟨"acc"⟩, .natural 0), (⟨"n"⟩, .natural count)]).2 }
      (.run downBody scene.store.frames.size) :=
    ⟨_, 0, rfl, Nat.zero_add count, keeps.enter root _, keeps.sees.enter _⟩
  rcases Passes.iterate CountingDown.last (CountingDown.step small) counting with ⟨after, rest⟩
  exact ⟨after, called.trans rest⟩

/-! ## Two procedures that call each other -/

def parityName (even : Bool) : String :=
  if even then "even?" else "odd?"

/-- `(if (= n 0) #t (odd? (- n 1)))`, or `(if (= n 0) #f (even? (- n 1)))`. -/
def parityBody (even : Bool) : Node :=
  .branch (.named "=" [.variable ⟨"n"⟩, .natural 0] false) (.literal (.boolean even))
    (some (.named (parityName !even) [.named "-" [.variable ⟨"n"⟩, .natural 1] false] true))

def parityProcedure (place : Bool → Place) (even : Bool) : Value :=
  .procedure (.compound (place even) (some ⟨parityName even⟩) ⟨[⟨"n"⟩], none⟩)

/-- What is known inside of the procedures `even?` and `odd?`. -/
def parityKnown (place : Bool → Place) : Bindings :=
  (⟨"odd?"⟩, parityProcedure place false) :: (⟨"even?"⟩, parityProcedure place true) :: arithmetic

theorem get?_parityKnown (place : Bool → Place) (even : Bool) (left : Nat) :
    Bindings.get? ((⟨"n"⟩, .natural left) :: parityKnown place) ⟨parityName even⟩ =
      some (parityProcedure place even) := by
  cases even <;> rfl

def ParityTest (answer : Bool) (place : Bool → Place) (home : FrameId) (left : Nat)
    (scene : Scene) (course : Course) : Prop :=
  ∃ frame even, course = .run (parityBody even) frame ∧ (even == (left % 2 == 0)) = answer ∧
    left < 2 ^ 63 ∧
    (∀ other, scene.store.Keeps (place other) (parityBody other) home (parityKnown place)) ∧
    scene.store.Sees frame ((⟨"n"⟩, .natural left) :: parityKnown place)

namespace ParityTest

variable {answer : Bool} {left : Nat} {place : Bool → Place} {home : FrameId} {scene : Scene}
  {course : Course}

theorem last (testing : ParityTest answer place home 0 scene course) :
    ∃ after, Passes 2 scene course after (.give (.boolean answer)) := by
  rcases testing with ⟨frame, even, rfl, same, _, _, here⟩
  have test : Computes 1 scene frame (.named "=" [.variable ⟨"n"⟩, .natural 0] false)
      (.boolean (0 == 0)) :=
    .equal (here.value rfl) (here.computes rfl 0) (by decide) (by decide)
  have result : even = answer := by simpa using same
  rw [← result]
  exact ⟨scene, (Passes.branch_true test rfl).trans (Passes.literal 2 scene frame _)⟩

/-- The parity changes from one number to the next, and so does the procedure. -/
theorem step (testing : ParityTest answer place home (left + 1) scene course) :
    ∃ middle next, Passes 2 scene course middle next ∧
      ParityTest answer place home left middle next := by
  rcases testing with ⟨frame, even, rfl, same, small, keeps, here⟩
  have test : Computes 1 scene frame (.named "=" [.variable ⟨"n"⟩, .natural 0] false)
      (.boolean (left + 1 == 0)) :=
    .equal (here.value rfl) (here.computes rfl 0) small (by decide)
  have difference : Computes 1 scene frame (.named "-" [.variable ⟨"n"⟩, .natural 1] false)
      (.natural left) :=
    .subtract_one (here.value rfl) (here.computes rfl 0) small
  have parity : ((!even) == (left % 2 == 0)) = answer := by
    rw [← same]
    rcases Nat.mod_two_eq_zero_or_one left with zero | one
    · have next : (left + 1) % 2 = 1 := by omega
      cases even <;> simp [zero, next]
    · have next : (left + 1) % 2 = 0 := by omega
      cases even <;> simp [one, next]
  have called := (keeps !even).named (here.value (get?_parityKnown place (!even) (left + 1)))
    (.cons difference .nil) rfl
  refine ⟨_, _, (Passes.branch_false test rfl).trans called, ?_⟩
  exact ⟨_, !even, rfl, parity, by omega, fun other => (keeps other).enter home _,
    (keeps even).sees.enter _⟩

end ParityTest

/-- `(even? n)` -/
theorem evenCall_passes {count : Nat} (small : count < 2 ^ 63) {scene : Scene}
    {place : Bool → Place} {root : FrameId}
    (keeps : ∀ even, scene.store.Keeps (place even) (parityBody even) root (parityKnown place)) :
    ∃ after, Passes 2 scene (.run (.named "even?" [.natural count] true) root) after
      (.give (.boolean (count % 2 == 0))) := by
  have operand : Computes 1 scene root (.natural count) (.natural count) :=
    Passes.literal 1 scene root _
  have callee : scene.store.get? root ⟨"even?"⟩ =
      some (.procedure (.compound (place true) (some ⟨"even?"⟩) ⟨[⟨"n"⟩], none⟩)) :=
    (keeps true).sees.value rfl
  have called := (keeps true).named callee (.cons operand .nil) rfl
  have testing : ParityTest (count % 2 == 0) place root count
      { scene with store := (scene.store.enter root [(⟨"n"⟩, .natural count)]).2 }
      (.run (parityBody true) scene.store.frames.size) :=
    ⟨_, true, rfl, by simp, small, fun other => (keeps other).enter root _,
      (keeps true).sees.enter _⟩
  rcases Passes.iterate ParityTest.last ParityTest.step testing with ⟨after, rest⟩
  exact ⟨after, called.trans rest⟩

/-! ## A receiver -/

/-- `(cond ((= n 0) 'done) ((- n 1) => f))` -/
def receiverBody : Node :=
  .cond [.body (.named "=" [.variable ⟨"n"⟩, .natural 0] false) (.quote (.symbol ⟨"done"⟩)),
    .arrow (.named "-" [.variable ⟨"n"⟩, .natural 1] false) (.variable ⟨"f"⟩) true]

/-- What is known inside of the procedure `f`. -/
def receiverKnown (place : Place) : Bindings :=
  (⟨"f"⟩, .procedure (.compound place (some ⟨"f"⟩) ⟨[⟨"n"⟩], none⟩)) :: arithmetic

def Receiving (place : Place) (home : FrameId) (left : Nat) (scene : Scene) (course : Course) :
    Prop :=
  ∃ frame, course = .run receiverBody frame ∧ left < 2 ^ 63 ∧
    scene.store.Keeps place receiverBody home (receiverKnown place) ∧
    scene.store.Sees frame ((⟨"n"⟩, .natural left) :: receiverKnown place)

namespace Receiving

variable {left : Nat} {place : Place} {home : FrameId} {scene : Scene} {course : Course}

theorem last (receiving : Receiving place home 0 scene course) :
    ∃ after, Passes 2 scene course after (.give (.symbol ⟨"done"⟩)) := by
  rcases receiving with ⟨frame, rfl, _, _, here⟩
  have test : Computes 1 scene frame (.named "=" [.variable ⟨"n"⟩, .natural 0] false)
      (.boolean (0 == 0)) :=
    .equal (here.value rfl) (here.computes rfl 0) (by decide) (by decide)
  have chosen := (Passes.run 2 scene receiverBody frame).trans (Passes.body_clause_true test rfl)
  exact ⟨scene, chosen.trans (Passes.quote 2 scene frame _)⟩

theorem step (receiving : Receiving place home (left + 1) scene course) :
    ∃ middle next, Passes 2 scene course middle next ∧ Receiving place home left middle next := by
  rcases receiving with ⟨frame, rfl, small, keeps, here⟩
  have test : Computes 1 scene frame (.named "=" [.variable ⟨"n"⟩, .natural 0] false)
      (.boolean (left + 1 == 0)) :=
    .equal (here.value rfl) (here.computes rfl 0) small (by decide)
  have difference : Computes 1 scene frame (.named "-" [.variable ⟨"n"⟩, .natural 1] false)
      (.natural left) :=
    .subtract_one (here.value rfl) (here.computes rfl 0) small
  have received : Computes 1 scene frame (.variable ⟨"f"⟩)
      (.procedure (.compound place (some ⟨"f"⟩) ⟨[⟨"n"⟩], none⟩)) :=
    here.computes rfl 1
  have passedOver := (Passes.run 2 scene receiverBody frame).trans
    (Passes.body_clause_false test rfl)
  have called := passedOver.trans (Passes.arrow_clause_true difference rfl received)
  refine ⟨_, _, called.trans (keeps.call 2 rfl), ?_⟩
  exact ⟨_, rfl, by omega, keeps.enter home _, keeps.sees.enter _⟩

end Receiving

/-- `(f n)` -/
theorem receiverCall_passes {count : Nat} (small : count < 2 ^ 63) {scene : Scene} {place : Place}
    {root : FrameId} (keeps : scene.store.Keeps place receiverBody root (receiverKnown place)) :
    ∃ after, Passes 2 scene (.run (.named "f" [.natural count] true) root) after
      (.give (.symbol ⟨"done"⟩)) := by
  have operand : Computes 1 scene root (.natural count) (.natural count) :=
    Passes.literal 1 scene root _
  have callee : scene.store.get? root ⟨"f"⟩ =
      some (.procedure (.compound place (some ⟨"f"⟩) ⟨[⟨"n"⟩], none⟩)) :=
    keeps.sees.value rfl
  have called := keeps.named callee (.cons operand .nil) rfl
  have receiving : Receiving place root count
      { scene with store := (scene.store.enter root [(⟨"n"⟩, .natural count)]).2 }
      (.run receiverBody scene.store.frames.size) :=
    ⟨_, rfl, small, keeps.enter root _, keeps.sees.enter _⟩
  rcases Passes.iterate Receiving.last Receiving.step receiving with ⟨after, rest⟩
  exact ⟨after, called.trans rest⟩

/-! ## Texts -/

namespace Source

def list (items : List Source) : Source :=
  items.foldr (.pair ()) .nil

def name (text : String) : Source :=
  .symbol ⟨text⟩

end Source

open Source

theorem Datum.written_natural {count : Nat} (small : count < 2 ^ 63) :
    (natural count : Source).written = (toString count).toList := by
  have text : (natural count : Source).written =
      (Number.integerText (Int64.ofNat count).toInt).toList := rfl
  rw [text, Int64.toInt_ofNat_of_lt small]
  rfl

theorem Datum.natural_readable {count : Nat} (small : count < 2 ^ 63) :
    Readable (natural count) := by
  intro least
  have same := congrArg Int64.toInt least
  have lowest : Int64.minValue.toInt = -9223372036854775808 := by decide
  rw [Int64.toInt_ofNat_of_lt small] at same
  omega

/-- The written form of a datum denotes what the datum is compiled to. -/
theorem Denotes.of_written (datum : Source) {text : String} {code : Node}
    (readable : datum.Readable) (isExact : datum.isExact = true)
    (written : datum.written = text.toList)
    (compiled : ∀ next, Node.ofDatum (Value.place next datum).1 = .ok code) :
    Denotes text code := by
  have same : datum.text = text := String.ext (datum.toList_text.trans written)
  rw [← same]
  exact ⟨datum, Datum.next_text readable isExact _, compiled⟩

theorem Datum.written_zero : (natural 0 : Source).written = ['0'] := by decide

theorem Datum.written_one : (natural 1 : Source).written = ['1'] := by decide

theorem Datum.zero_readable : Readable (natural 0) := natural_readable (by decide)

theorem Datum.one_readable : Readable (natural 1) := natural_readable (by decide)

section

variable {count : Nat} (small : count < 2 ^ 63)

include small

theorem loop_denotes :
    Denotes ("(do ((i 0 (+ i 1))) ((= i " ++ toString count ++ ") i))")
      (countingLoop count 0).code := by
  have readable := Datum.natural_readable small
  have digits := Datum.written_natural small
  refine .of_written
    (list [name "do", list [list [name "i", .natural 0, list [name "+", name "i", .natural 1]]],
      list [list [name "=", name "i", .natural count], name "i"]]) ?_ rfl ?_ fun next => rfl
  · simp +decide [list, name, Datum.Readable, Datum.zero_readable, Datum.one_readable, readable]
  · simp [list, name, Datum.written, Datum.writtenRest, Datum.atomText, Datum.written_zero,
      Datum.written_one, digits]

theorem namedLet_denotes :
    Denotes ("(let loop ((i 0)) (if (= i " ++ toString count ++ ") i (loop (+ i 1))))")
      (upCode count) := by
  have readable := Datum.natural_readable small
  have digits := Datum.written_natural small
  refine .of_written
    (list [name "let", name "loop", list [list [name "i", .natural 0]],
      list [name "if", list [name "=", name "i", .natural count], name "i",
        list [name "loop", list [name "+", name "i", .natural 1]]]]) ?_ rfl ?_ fun next => rfl
  · simp +decide [list, name, Datum.Readable, Datum.zero_readable, Datum.one_readable, readable]
  · simp [list, name, Datum.written, Datum.writtenRest, Datum.atomText, Datum.written_zero,
      Datum.written_one, digits]

theorem countCall_denotes :
    Denotes ("(count " ++ toString count ++ " 0)")
      (.named "count" [.natural count, .natural 0] true) := by
  have readable := Datum.natural_readable small
  have digits := Datum.written_natural small
  refine .of_written (list [name "count", .natural count, .natural 0]) ?_ rfl ?_ fun next => rfl
  · simp +decide [list, name, Datum.Readable, Datum.zero_readable, readable]
  · simp [list, name, Datum.written, Datum.writtenRest, Datum.atomText, Datum.written_zero, digits]

theorem evenCall_denotes :
    Denotes ("(even? " ++ toString count ++ ")") (.named "even?" [.natural count] true) := by
  have readable := Datum.natural_readable small
  have digits := Datum.written_natural small
  refine .of_written (list [name "even?", .natural count]) ?_ rfl ?_ fun next => rfl
  · simp +decide [list, name, Datum.Readable, readable]
  · simp [list, name, Datum.written, Datum.writtenRest, Datum.atomText, digits]

theorem receiverCall_denotes :
    Denotes ("(f " ++ toString count ++ ")") (.named "f" [.natural count] true) := by
  have readable := Datum.natural_readable small
  have digits := Datum.written_natural small
  refine .of_written (list [name "f", .natural count]) ?_ rfl ?_ fun next => rfl
  · simp +decide [list, name, Datum.Readable, readable]
  · simp [list, name, Datum.written, Datum.writtenRest, Datum.atomText, digits]

end

/-- The definition of a procedure at the root. -/
def Node.definition (name : String) (required : List Symbol) (body : Node) : Node :=
  .define ⟨name⟩ (.lambda (some ⟨name⟩) ⟨required, none⟩ body)

theorem count_denotes :
    Denotes "(define (count n acc) (if (= n 0) acc (count (- n 1) (+ acc 1))))"
      (.definition "count" [⟨"n"⟩, ⟨"acc"⟩] downBody) := by
  refine .of_written
    (list [name "define", list [name "count", name "n", name "acc"],
      list [name "if", list [name "=", name "n", .natural 0], name "acc",
        list [name "count", list [name "-", name "n", .natural 1],
          list [name "+", name "acc", .natural 1]]]]) ?_ rfl ?_ fun next => rfl
  · simp +decide [list, name, Datum.Readable, Datum.zero_readable, Datum.one_readable]
  · simp [list, name, Datum.written, Datum.writtenRest, Datum.atomText, Datum.written_zero,
      Datum.written_one]

theorem even_denotes :
    Denotes "(define (even? n) (if (= n 0) #t (odd? (- n 1))))"
      (.definition "even?" [⟨"n"⟩] (parityBody true)) := by
  refine .of_written
    (list [name "define", list [name "even?", name "n"],
      list [name "if", list [name "=", name "n", .natural 0], .boolean true,
        list [name "odd?", list [name "-", name "n", .natural 1]]]]) ?_ rfl ?_ fun next => rfl
  · simp +decide [list, name, Datum.Readable, Datum.zero_readable, Datum.one_readable]
  · simp [list, name, Datum.written, Datum.writtenRest, Datum.atomText, Datum.written_zero,
      Datum.written_one]

theorem odd_denotes :
    Denotes "(define (odd? n) (if (= n 0) #f (even? (- n 1))))"
      (.definition "odd?" [⟨"n"⟩] (parityBody false)) := by
  refine .of_written
    (list [name "define", list [name "odd?", name "n"],
      list [name "if", list [name "=", name "n", .natural 0], .boolean false,
        list [name "even?", list [name "-", name "n", .natural 1]]]]) ?_ rfl ?_ fun next => rfl
  · simp +decide [list, name, Datum.Readable, Datum.zero_readable, Datum.one_readable]
  · simp [list, name, Datum.written, Datum.writtenRest, Datum.atomText, Datum.written_zero,
      Datum.written_one]

-- The text has `'done` where the written form of its datum has `(quote done)`, so the datum
-- is read from the text itself.
theorem receiver_denotes :
    Denotes "(define (f n) (cond ((= n 0) 'done) ((- n 1) => f)))"
      (.definition "f" [⟨"n"⟩] receiverBody) := by
  let datum : Source :=
    list [name "define", list [name "f", name "n"],
      list [name "cond", list [list [name "=", name "n", .natural 0], quoted (name "done")],
        list [list [name "-", name "n", .natural 1], name "=>", name "f"]]]
  exact ⟨datum, by cbv, fun next => rfl⟩

/-! ## Sessions -/

theorem Store.standard_sees : standard.Sees 0 arithmetic := by
  refine ⟨by decide, ?_⟩
  intro name value found
  have member := Bindings.mem_of_get? found
  simp only [arithmetic, List.mem_cons, List.not_mem_nil, or_false, Prod.mk.injEq] at member
  rcases member with ⟨rfl, rfl⟩ | ⟨rfl, rfl⟩ | ⟨rfl, rfl⟩
  · cbv
  · cbv
  · cbv

/-- A definition at the root adds a procedure to the store and its name to what is known. -/
theorem Denotes.defines {text name : String} {required : List Symbol} {body : Node}
    (denotes : Denotes text (.definition name required body)) (session : Session)
    {known : Bindings} (sees : session.world.store.Sees session.root known)
    (fits : 1 < session.limit) :
    let place := session.world.store.closures.size
    let callee : Value := .procedure (.compound place (some ⟨name⟩) ⟨required, none⟩)
    ∃ world : World,
      (world.store.Sees session.root ((⟨name⟩, callee) :: known) ∧
        world.store.closures = session.world.store.closures.push ⟨body, session.root⟩) ∧
      session.Evaluates text .nil { session with world := world } := by
  intro place callee
  refine denotes.evaluates (fun scene => scene.store.Sees session.root ((⟨name⟩, callee) :: known) ∧
    scene.store.closures = session.world.store.closures.push ⟨body, session.root⟩) ?_ fits
  intro scene frames closures
  have made := Passes.lambda 0 scene (some ⟨name⟩) ⟨required, none⟩ body session.root
  have home : (scene.store.close (some ⟨name⟩) ⟨required, none⟩ body session.root).2.Sees
      session.root known :=
    sees.of_frames frames
  refine ⟨_, ⟨?_, ?_⟩, made.define ⟨name⟩⟩
  · simp only [callee, place, ← closures]
    exact home.define ⟨name⟩ _
  · simp only [Store.define, Store.close, closures]

namespace Store.Keeps

variable {store other : Store} {place : Place} {body : Node} {home : FrameId} {known : Bindings}

theorem of_store (keeps : store.Keeps place body home known)
    (frames : other.frames = store.frames) (closures : other.closures = store.closures) :
    other.Keeps place body home known :=
  ⟨closures ▸ keeps.closure, keeps.sees.of_frames frames⟩

/-- The last procedure of a store. -/
theorem of_push {before : Array Closure} (closures : store.closures = before.push ⟨body, home⟩)
    (sees : store.Sees home known) : store.Keeps before.size body home known :=
  ⟨closures ▸ Array.getElem?_push_size, sees⟩

theorem of_push_old {before : Array Closure} {last : Closure}
    (closures : store.closures = before.push last) (found : before[place]? = some ⟨body, home⟩)
    (sees : store.Sees home known) : store.Keeps place body home known := by
  have inside : place < before.size := (Array.getElem?_eq_some_iff.mp found).1
  refine ⟨?_, sees⟩
  rw [closures, Array.getElem?_push, if_neg (Nat.ne_of_lt inside)]
  exact found

end Store.Keeps

namespace Session

variable {session : Session} {count : Nat}
  (known : session.world.store.Sees session.root arithmetic) (small : count < 2 ^ 63)
  (fits : 2 < session.limit)

include known small fits

theorem loop_returns :
    session.Returns ["(do ((i 0 (+ i 1))) ((= i " ++ toString count ++ ") i))"]
      (.natural count) :=
  (loop_denotes small).returns
    (fun _ frames _ => countingLoop_passes small (known.of_frames frames)) fits

theorem namedLet_returns :
    session.Returns ["(let loop ((i 0)) (if (= i " ++ toString count ++ ") i (loop (+ i 1))))"]
      (.natural count) :=
  (namedLet_denotes small).returns
    (fun _ frames _ => upCode_passes small (known.of_frames frames)) fits

theorem count_returns :
    session.Returns ["(define (count n acc) (if (= n 0) acc (count (- n 1) (+ acc 1))))",
      "(count " ++ toString count ++ " 0)"] (.natural count) := by
  rcases count_denotes.defines session known (by omega) with ⟨world, ⟨sees, closures⟩, defined⟩
  have keeps : world.store.Keeps _ downBody session.root (downKnown _) := .of_push closures sees
  refine .next defined ((countCall_denotes small).returns ?_ fits)
  intro scene frames sameClosures
  exact countCall_passes small (keeps.of_store frames sameClosures)

theorem even_returns :
    session.Returns ["(define (even? n) (if (= n 0) #t (odd? (- n 1))))",
      "(define (odd? n) (if (= n 0) #f (even? (- n 1))))",
      "(even? " ++ toString count ++ ")"] (.boolean (count % 2 == 0)) := by
  rcases even_denotes.defines session known (by omega) with
    ⟨middle, ⟨seesEven, closuresEven⟩, definedEven⟩
  have room : 1 < session.limit := by omega
  rcases odd_denotes.defines { session with world := middle } seesEven room with
    ⟨world, ⟨seesOdd, closuresOdd⟩, definedOdd⟩
  let place (even : Bool) : Place :=
    if even then session.world.store.closures.size else middle.store.closures.size
  have keeps (even : Bool) :
      world.store.Keeps (place even) (parityBody even) session.root (parityKnown place) := by
    cases even with
    | false => exact .of_push closuresOdd seesOdd
    | true =>
        have first := (Store.Keeps.of_push closuresEven seesEven).closure
        exact .of_push_old closuresOdd first seesOdd
  refine .next definedEven (.next definedOdd ((evenCall_denotes small).returns ?_ fits))
  intro scene frames sameClosures
  exact evenCall_passes small fun even => (keeps even).of_store frames sameClosures

theorem receiver_returns :
    session.Returns ["(define (f n) (cond ((= n 0) 'done) ((- n 1) => f)))",
      "(f " ++ toString count ++ ")"] (.symbol ⟨"done"⟩) := by
  rcases receiver_denotes.defines session known (by omega) with ⟨world, ⟨sees, closures⟩, defined⟩
  have keeps : world.store.Keeps _ receiverBody session.root (receiverKnown _) :=
    .of_push closures sees
  refine .next defined ((receiverCall_denotes small).returns ?_ fits)
  intro scene frames sameClosures
  exact receiverCall_passes small (keeps.of_store frames sameClosures)

end Session

/-- Loops and procedures that go on by calls in tail position count as far as integers go,
under every limit from three on. -/
theorem tail_calls_in_three_levels {count limit : Nat} (small : count ≤ 2 ^ 63 - 1)
    (enough : 3 ≤ limit) :
    let session : Session := { Session.standard with limit := limit }
    session.Returns ["(do ((i 0 (+ i 1))) ((= i " ++ toString count ++ ") i))"]
      (.natural count) ∧
    session.Returns ["(let loop ((i 0)) (if (= i " ++ toString count ++ ") i (loop (+ i 1))))"]
      (.natural count) ∧
    session.Returns ["(define (count n acc) (if (= n 0) acc (count (- n 1) (+ acc 1))))",
      "(count " ++ toString count ++ " 0)"] (.natural count) ∧
    session.Returns ["(define (even? n) (if (= n 0) #t (odd? (- n 1))))",
      "(define (odd? n) (if (= n 0) #f (even? (- n 1))))",
      "(even? " ++ toString count ++ ")"] (.boolean (count % 2 == 0)) ∧
    session.Returns ["(define (f n) (cond ((= n 0) 'done) ((- n 1) => f)))",
      "(f " ++ toString count ++ ")"] (.symbol ⟨"done"⟩) := by
  intro session
  have fits : count < 2 ^ 63 := by omega
  have known : session.world.store.Sees session.root arithmetic := Store.standard_sees
  exact ⟨session.loop_returns known fits enough, Session.namedLet_returns known fits enough,
    Session.count_returns known fits enough, Session.even_returns known fits enough,
    Session.receiver_returns known fits enough⟩

/-- The largest integer within the least limit. -/
theorem tail_calls_in_three_levels_largest :
    let session : Session := { Session.standard with limit := 3 }
    session.Returns ["(do ((i 0 (+ i 1))) ((= i 9223372036854775807) i))"]
      (.number (.integer Int64.maxValue)) ∧
    session.Returns ["(define (even? n) (if (= n 0) #t (odd? (- n 1))))",
      "(define (odd? n) (if (= n 0) #f (even? (- n 1))))", "(even? 9223372036854775807)"]
      (.boolean false) := by
  intro session
  rcases @tail_calls_in_three_levels (2 ^ 63 - 1) 3 (Nat.le_refl _) (Nat.le_refl _) with
    ⟨loop, _, _, even, _⟩
  exact ⟨loop, even⟩

end SmallScheme
