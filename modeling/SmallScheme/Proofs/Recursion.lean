import SmallScheme.Proofs.Costs
import SmallScheme.Proofs.Loops

namespace SmallScheme

/-! # Recursion in depth

A procedure that adds up numbers by calling itself as an operand. Each of these calls takes
two levels: one for the operand and one for the body. The numbers from 0 to `count` take
twice as many levels as there are calls, beside the three that the last of them needs. -/

/-! ## The sum of the first numbers -/

theorem succ_triangle (count : Nat) :
    (count + 1) + count * (count + 1) / 2 = (count + 1) * (count + 1 + 1) / 2 := by
  have twice : (count + 1) * (count + 1 + 1) = count * (count + 1) + 2 * (count + 1) := by
    rw [Nat.mul_succ, Nat.add_mul, Nat.mul_comm]
    omega
  rw [twice]
  omega

/-- `(if (= n 0) 0 (+ n (sum (- n 1))))` -/
def sumBody : Node :=
  .branch (.named "=" [.variable ⟨"n"⟩, .natural 0] false) (.natural 0)
    (some (.named "+" [.variable ⟨"n"⟩,
      .named "sum" [.named "-" [.variable ⟨"n"⟩, .natural 1] false] false] true))

/-- What is known inside of the procedure `sum`. -/
def sumKnown (place : Place) : Bindings :=
  (⟨"sum"⟩, .procedure (.compound place (some ⟨"sum"⟩) ⟨[⟨"n"⟩], none⟩)) :: arithmetic

section

variable {scene : Scene} {place : Place} {home frame : FrameId} {count : Nat}

/-- The last call comes to its end at once. -/
theorem sumBody_costs_zero
    (here : scene.store.Sees frame ((⟨"n"⟩, .natural 0) :: sumKnown place)) :
    Costs 2 scene (.run sumBody frame) scene (.give (.natural 0)) := by
  have test : Costs 1 scene (.run (.named "=" [.variable ⟨"n"⟩, .natural 0] false) frame) scene
      (.give (.boolean (0 == 0))) :=
    .primitive false (here.value rfl) (here.computes rfl 0) (Passes.literal 0 scene frame _)
      (Primitive.equal_naturals (by decide) (by decide) _)
  exact (Costs.branch_true test rfl).trans (.of_computes (Passes.literal 0 scene frame _))
    (Nat.max_zero 2)

/-- A call before that leads to the next one, two levels deeper, and adds to what that comes
to. -/
theorem sumBody_costs_succ {total levels : Nat} {after : Scene}
    (small : count + 1 + total < 2 ^ 63) (enough : 1 ≤ levels)
    (keeps : scene.store.Keeps place sumBody home (sumKnown place))
    (here : scene.store.Sees frame ((⟨"n"⟩, .natural (count + 1)) :: sumKnown place))
    (next : Costs levels
      { scene with store := (scene.store.enter home [(⟨"n"⟩, .natural count)]).2 }
      (.run sumBody scene.store.frames.size) after (.give (.natural total))) :
    Costs (levels + 2) scene (.run sumBody frame) after
      (.give (.natural (count + 1 + total))) := by
  let callee : Value := .procedure (.compound place (some ⟨"sum"⟩) ⟨[⟨"n"⟩], none⟩)
  let add : Value := .procedure (.primitive .add)
  have test : Costs 1 scene (.run (.named "=" [.variable ⟨"n"⟩, .natural 0] false) frame) scene
      (.give (.boolean (count + 1 == 0))) :=
    .primitive false (here.value rfl) (here.computes rfl 0) (Passes.literal 0 scene frame _)
      (Primitive.equal_naturals (by omega) (by decide) _)
  have difference : Costs 1 scene (.run (.named "-" [.variable ⟨"n"⟩, .natural 1] false) frame)
      scene (.give (.natural count)) :=
    .primitive false (here.value rfl) (here.computes rfl 0) (Passes.literal 0 scene frame _)
      (Primitive.subtract_one (by omega) _)
  have name : Costs 0 scene (.run (.variable ⟨"sum"⟩) frame) scene (.give callee) :=
    .of_computes (here.computes rfl 0)
  -- This call is not in tail position: its body waits on a level of its own, and so does `+`
  -- for the value of the call.
  have body : Costs (levels + 1) scene (.call callee [.natural count] false) after
      (.give (.natural total)) :=
    .bodyCall keeps.closure rfl next
  have argument := (difference.operand callee [] [] false).trans body
    (Nat.max_eq_right (by omega))
  have recursive := (name.operator [.named "-" [.variable ⟨"n"⟩, .natural 1] false] false).trans
    argument rfl
  have plus : Costs 0 scene (.run (.variable ⟨"+"⟩) frame) scene (.give add) :=
    .of_computes (here.computes rfl 0)
  have number : Costs 0 scene (.run (.variable ⟨"n"⟩) frame) scene (.give (.natural (count + 1))) :=
    .of_computes (here.computes rfl 0)
  have sum : Costs 0 after (.call add [.natural (count + 1), .natural total] true) after
      (.give (.natural (count + 1 + total))) :=
    .of_passes (Passes.primitive 0 (Primitive.add_naturals small _) true) (.refl _)
  have right := (recursive.operand add [.natural (count + 1)] [] true).trans sum rfl
  have left := (number.operand add [] _ true).trans right rfl
  have alternate := (plus.operator _ true).trans left rfl
  exact (Costs.branch_false test rfl).trans alternate (by omega)

/-- Two levels for each call, beside those of the last one. -/
theorem sumBody_costs (small : count * (count + 1) / 2 < 2 ^ 63)
    (keeps : scene.store.Keeps place sumBody home (sumKnown place))
    (here : scene.store.Sees frame ((⟨"n"⟩, .natural count) :: sumKnown place)) :
    ∃ after, Costs (2 * count + 2) scene (.run sumBody frame) after
      (.give (.natural (count * (count + 1) / 2))) := by
  -- Every call has a frame of its own, so scene and frame are not fixed.
  induction count generalizing scene frame with
  | zero => exact ⟨scene, sumBody_costs_zero here⟩
  | succ count induction =>
      rw [← succ_triangle] at small ⊢
      let inside : Scene :=
        { scene with store := (scene.store.enter home [(⟨"n"⟩, .natural count)]).2 }
      rcases @induction inside _ (by omega) (keeps.enter home _) (keeps.sees.enter _) with
        ⟨after, next⟩
      exact ⟨after, sumBody_costs_succ small (by omega) keeps here next⟩

/-- `(sum count)` -/
theorem sumCall_costs (small : count * (count + 1) / 2 < 2 ^ 63)
    (keeps : scene.store.Keeps place sumBody home (sumKnown place)) :
    ∃ after, Costs (2 * count + 2) scene (.run (.named "sum" [.natural count] true) home) after
      (.give (.natural (count * (count + 1) / 2))) := by
  let callee : Value := .procedure (.compound place (some ⟨"sum"⟩) ⟨[⟨"n"⟩], none⟩)
  have name : Costs 0 scene (.run (.variable ⟨"sum"⟩) home) scene (.give callee) :=
    .of_computes (keeps.sees.computes rfl 0)
  have argument : Costs 0 scene (.run (.natural count) home) scene (.give (.natural count)) :=
    .of_computes (Passes.literal 0 scene home _)
  let inside : Scene :=
    { scene with store := (scene.store.enter home [(⟨"n"⟩, .natural count)]).2 }
  rcases @sumBody_costs inside place home _ count small (keeps.enter home _) (keeps.sees.enter _)
    with ⟨after, body⟩
  have enter : Costs 0 scene (.call callee [.natural count] true) inside
      (.run sumBody scene.store.frames.size) :=
    .tailCall keeps.closure rfl
  have entered := enter.trans body (Nat.zero_max _)
  have called := (argument.operand callee [] [] true).trans entered rfl
  exact ⟨after, (name.operator [.natural count] true).trans called (by omega)⟩

end

/-! ## Texts -/

open Source

theorem sum_denotes :
    Denotes "(define (sum n) (if (= n 0) 0 (+ n (sum (- n 1)))))"
      (.definition "sum" [⟨"n"⟩] sumBody) := by
  refine .of_written
    (list [name "define", list [name "sum", name "n"],
      list [name "if", list [name "=", name "n", .natural 0], .natural 0,
        list [name "+", name "n", list [name "sum", list [name "-", name "n", .natural 1]]]]])
    ?_ rfl ?_ fun next => rfl
  · simp +decide [list, name, Datum.Readable, Datum.zero_readable, Datum.one_readable]
  · simp [list, name, Datum.written, Datum.writtenRest, Datum.atomText, Datum.written_zero,
      Datum.written_one]

theorem sumCall_denotes {count : Nat} (small : count < 2 ^ 63) :
    Denotes ("(sum " ++ toString count ++ ")") (.named "sum" [.natural count] true) := by
  have readable := Datum.natural_readable small
  have digits := Datum.written_natural small
  refine .of_written (list [name "sum", .natural count]) ?_ rfl ?_ fun next => rfl
  · simp +decide [list, name, Datum.Readable, readable]
  · simp [list, name, Datum.written, Datum.writtenRest, Datum.atomText, digits]

/-- After `(define (sum n) (if (= n 0) 0 (+ n (sum (- n 1)))))` the sum of the numbers up to
`count` takes exactly `2 * count + 3` levels: it is computed under every limit from there on
and too deep under every smaller one. In both cases all frames stay as they were. -/
theorem sum_takes_two_levels_each {count : Nat} (small : count * (count + 1) / 2 ≤ 2 ^ 63 - 1)
    (limit : Nat) :
    ∃ session : Session,
      Session.standard.Evaluates "(define (sum n) (if (= n 0) 0 (+ n (sum (- n 1)))))" .nil
        session ∧
      ∃ after : Session,
        ({ session with limit := limit } : Session).Ends ("(sum " ++ toString count ++ ")")
          (if 2 * count + 3 ≤ limit then .ok (.natural (count * (count + 1) / 2))
            else .error (.run .tooDeep)) after ∧
        ∀ frame < session.world.store.frames.size,
          after.world.store.frames[frame]? = session.world.store.frames[frame]? := by
  have known : Session.standard.world.store.Sees Session.standard.root arithmetic :=
    Store.standard_sees
  rcases sum_denotes.defines Session.standard known (by decide) with
    ⟨world, ⟨sees, closures⟩, defined⟩
  have keeps : world.store.Keeps _ sumBody Session.standard.root (sumKnown _) :=
    .of_push closures sees
  let limited : Session := { Session.standard with world := world, limit := limit }
  have fits : count < 2 ^ 63 := by
    have atLeast : 2 * count ≤ count * (count + 1) := by
      rcases count with _ | count
      · exact Nat.le_refl 0
      · rw [Nat.mul_comm]
        exact Nat.mul_le_mul_left _ (by omega)
    omega
  have costs (scene : Scene) (frames : scene.store.frames = limited.world.store.frames)
      (sameClosures : scene.store.closures = limited.world.store.closures) :
      ∃ after, Costs (2 * count + 2) scene (.run (.named "sum" [.natural count] true) limited.root)
        after (.give (.natural (count * (count + 1) / 2))) :=
    sumCall_costs (by omega) (keeps.of_store frames sameClosures)
  rcases (sumCall_denotes fits).ends costs with ⟨after, retains, ends⟩
  exact ⟨_, defined, after, ends, fun frame inStore => retains.getElem? inStore⟩

/-- The standard limit is enough for the sum up to 4998, and the frames stay. -/
theorem sum_takes_two_levels_each_standard :
    ∃ session : Session,
      Session.standard.Evaluates "(define (sum n) (if (= n 0) 0 (+ n (sum (- n 1)))))" .nil
        session ∧
      ∃ after : Session,
        ({ session with limit := 10000 } : Session).Ends "(sum 4998)"
          (.ok (.number (.integer 12492501))) after ∧
        ∀ frame < session.world.store.frames.size,
          after.world.store.frames[frame]? = session.world.store.frames[frame]? :=
  @sum_takes_two_levels_each 4998 (by decide) 10000

end SmallScheme
