import SmallScheme.Proofs.Arithmetic
import SmallScheme.Proofs.RoundTrip

namespace SmallScheme

/-! # Equality of contents

`equal?` looks at places before it looks at contents. Where a place tells what lives there,
this saves work and nothing else: the answer is that of plain recursion on the two values,
which knows nothing of places. -/

/-! ## Contents -/

namespace Procedure

/-- A procedure reduced to what tells it apart from others. -/
def bare : Procedure → Procedure
  | .primitive operation => .primitive operation
  | .compound place _ _ => .compound place none ⟨[], none⟩

theorem same_iff (left right : Procedure) : left.same right = true ↔ left.bare = right.bare := by
  cases left <;> cases right <;> simp [same, bare]

end Procedure

namespace Datum

variable {ι : Type}

/-- Equality of contents by plain recursion. -/
def alike : Datum ι → Datum ι → Bool
  | .nil, .nil => true
  | .boolean left, .boolean right => left == right
  | .number left, .number right => left.same right
  | .string _ left, .string _ right => left == right
  | .symbol left, .symbol right => left.name == right.name
  | .pair _ leftCar leftCdr, .pair _ rightCar rightCdr =>
      leftCar.alike rightCar && leftCdr.alike rightCdr
  | .procedure left, .procedure right => left.same right
  | _, _ => false

/-- A datum without places, in which procedures have nothing but their identity. -/
def bare : Datum ι → Source
  | .nil => .nil
  | .boolean value => .boolean value
  | .number value => .number value
  | .string _ text => .string () text
  | .symbol name => .symbol name
  | .pair _ car cdr => .pair () car.bare cdr.bare
  | .procedure callee => .procedure callee.bare

/-- Exact data are alike if they are the same up to places. -/
theorem alike_iff {left : Datum ι} (noFloats : left.isExact = true) (right : Datum ι) :
    left.alike right = true ↔ left.bare = right.bare := by
  induction left generalizing right with
  | pair place car cdr carInduction cdrInduction =>
      simp only [isExact, Bool.and_eq_true] at noFloats
      cases right with
      | pair other otherCar otherCdr =>
          simp only [alike, bare, Bool.and_eq_true, carInduction noFloats.1,
            cdrInduction noFloats.2, Datum.pair.injEq, true_and]
      | _ => simp [alike, bare]
  | number value =>
      rcases value with value | _ | _
      · rcases right with _ | _ | ⟨_ | _ | _⟩ | _ | _ | _ | _ <;> simp [alike, bare, Number.same]
      · cases noFloats
      · cases noFloats
  | symbol symbol =>
      rcases symbol with ⟨name⟩
      cases right with
      | symbol other =>
          rcases other with ⟨otherName⟩
          simp [alike, bare]
      | _ => simp [alike, bare]
  | procedure callee =>
      cases right with
      | procedure other => simp [alike, bare, Procedure.same_iff]
      | _ => simp [alike, bare]
  | _ => cases right <;> simp [alike, bare]

end Datum

/-! ## States -/

/-- The values of a state in which a place tells what lives there: the parts of a pair, which are
values of the state as well, or the text of a string. -/
structure Value.Coherent (values : Set Value) : Prop where
  parts : ∀ {place car cdr}, .pair place car cdr ∈ values → car ∈ values ∧ cdr ∈ values
  pair : ∀ {place car cdr otherCar otherCdr}, .pair place car cdr ∈ values →
    .pair place otherCar otherCdr ∈ values → car = otherCar ∧ cdr = otherCdr
  string : ∀ {place text otherText}, .string place text ∈ values →
    .string place otherText ∈ values → text = otherText

namespace Value

/-- What `eqv?` holds of, `equal?` holds of. -/
theorem equal_of_eqv {left right : Value} (same : left.eqv right = true) :
    left.equal right = true := by
  fun_cases equal left right with
  | case1 place car cdr other otherCar otherCdr =>
      have atPlace : (place == other) = true := same
      rw [atPlace, Bool.true_or]
  | case2 => rw [same, Bool.true_or]

/-- The place of a pair is a shortcut to its contents. -/
theorem Coherent.equal_eq_alike {values : Set Value} (coherent : Coherent values)
    {left right : Value} (inState : left ∈ values) (alsoInState : right ∈ values)
    (noFloats : left.isExact = true) : left.equal right = left.alike right := by
  induction left generalizing right with
  | pair place car cdr carInduction cdrInduction =>
      cases right with
      | pair other otherCar otherCdr =>
          by_cases same : place = other
          · -- At one place there is one pair, and an exact value is like itself.
            subst same
            rcases coherent.pair inState alsoInState with ⟨rfl, rfl⟩
            have self := (Datum.alike_iff noFloats (.pair place car cdr)).mpr rfl
            rw [self, equal, BEq.rfl, Bool.true_or]
          · simp only [Datum.isExact, Bool.and_eq_true] at noFloats
            rcases coherent.parts inState with ⟨carInState, cdrInState⟩
            rcases coherent.parts alsoInState with ⟨otherCarInState, otherCdrInState⟩
            have apart : (place == other) = false := beq_eq_false_iff_ne.mpr same
            rw [equal, apart, Bool.false_or, Datum.alike,
              carInduction carInState otherCarInState noFloats.1,
              cdrInduction cdrInState otherCdrInState noFloats.2]
      | _ => rfl
  | string place text =>
      cases right with
      | string other otherText =>
          by_cases same : place = other
          · subst same
            cases coherent.string inState alsoInState
            simp [equal, eqv, sameContents, Datum.alike]
          · simp [equal, eqv, sameContents, Datum.alike, same]
      | _ => rfl
  | symbol symbol =>
      rcases symbol with ⟨name⟩
      cases right with
      | symbol other =>
          rcases other with ⟨otherName⟩
          simp [equal, eqv, sameContents, Datum.alike]
      | _ => rfl
  | _ => cases right <;> simp [equal, eqv, sameContents, Datum.alike]

/-- The values of a state without floats and complex numbers inside. -/
def exactOf (values : Set Value) : Set Value :=
  {value ∈ values | value.isExact = true}

end Value

/-! ## The primitives -/

namespace Primitive

/-- A predicate of two arguments says that they are related. -/
def Holds (operation : Primitive) (left right : Value) : Prop :=
  operation.Answers [left, right] (.ok (.boolean true))

variable {operation : Primitive} {test : Value → Value → Bool}

theorem answers_relation (compares : operation.operation = .relation test) (left right : Value) :
    operation.Answers [left, right] (.ok (.boolean (test left right))) := by
  intro next
  rw [compares]
  rfl

theorem holds_iff (compares : operation.operation = .relation test) (left right : Value) :
    operation.Holds left right ↔ test left right = true := by
  have answers := answers_relation compares left right
  constructor
  · intro holds
    injection answers.unique holds with same
    injection same
  · intro related
    rw [related] at answers
    exact answers

end Primitive

/-- Where a place tells what lives there, and in the absence of floats and complex numbers,
`equal?` answers as plain recursion on the contents does. It is an equivalence, and it holds of
whatever `eqv?` holds of. -/
theorem equal_compares_contents {values : Set Value} (coherent : Value.Coherent values) :
    (∀ left right : Value.exactOf values,
      Primitive.equal.Answers [left, right] (.ok (.boolean (left.1.alike right.1)))) ∧
    (Equivalence fun left right : Value.exactOf values => Primitive.equal.Holds left right) ∧
    ∀ left right : Value, Primitive.eqv.Holds left right → Primitive.equal.Holds left right := by
  have equal_eq (left right : Value.exactOf values) :
      left.1.equal right.1 = left.1.alike right.1 :=
    coherent.equal_eq_alike left.2.1 right.2.1 left.2.2
  have equal_iff (left right : Value.exactOf values) :
      Primitive.equal.Holds left right ↔ left.1.bare = right.1.bare := by
    rw [Primitive.holds_iff rfl, equal_eq, Datum.alike_iff left.2.2]
  refine ⟨?_, ⟨?_, ?_, ?_⟩, ?_⟩
  · intro left right
    rw [← equal_eq]
    exact Primitive.answers_relation rfl left right
  · intro value
    exact (equal_iff value value).mpr rfl
  · intro left right related
    exact (equal_iff right left).mpr ((equal_iff left right).mp related).symm
  · intro left middle right one two
    exact (equal_iff left right).mpr
      (((equal_iff left middle).mp one).trans ((equal_iff middle right).mp two))
  · intro left right related
    rw [Primitive.holds_iff rfl] at related ⊢
    exact Value.equal_of_eqv related

/-- The list `(1 "a")`, at three places. -/
def oneAndA (first second third : Place) : Value :=
  .pair first (.integer 1) (.pair second (.string third "a") .nil)

/-- A pair that has a list as both its parts, a pair that has a copy of the list and the list
itself, and all that lies inside of them. -/
def sharedLists : Set Value :=
  {.pair 7 (oneAndA 1 2 3) (oneAndA 1 2 3), .pair 8 (oneAndA 4 5 6) (oneAndA 1 2 3),
    oneAndA 1 2 3, .pair 2 (.string 3 "a") .nil, .string 3 "a",
    oneAndA 4 5 6, .pair 5 (.string 6 "a") .nil, .string 6 "a", .integer 1, .nil}

theorem sharedLists_coherent : Value.Coherent sharedLists where
  parts {place car cdr} inState := by
    simp only [sharedLists, oneAndA, Set.mem_insert_iff, Set.mem_singleton_iff] at inState ⊢
    grind [Datum.integer]
  pair {place car cdr otherCar otherCdr} inState alsoInState := by
    simp only [sharedLists, oneAndA, Datum.integer, Set.mem_insert_iff, Set.mem_singleton_iff,
      Datum.pair.injEq, reduceCtorEq, or_false, false_or] at inState alsoInState
    grind
  string {place text otherText} inState alsoInState := by
    simp only [sharedLists, oneAndA, Datum.integer, Set.mem_insert_iff, Set.mem_singleton_iff,
      Datum.string.injEq, reduceCtorEq, or_false, false_or] at inState alsoInState
    grind

/-- The two pairs are equal, in one part by the contents and in the other by the place. Neither
is equal to the list. -/
theorem equal_compares_contents_sharedLists :
    Primitive.equal.Holds
      (.pair 7 (oneAndA 1 2 3) (oneAndA 1 2 3)) (.pair 8 (oneAndA 4 5 6) (oneAndA 1 2 3)) ∧
    Primitive.equal.Answers [.pair 8 (oneAndA 4 5 6) (oneAndA 1 2 3), oneAndA 1 2 3]
      (.ok (.boolean false)) := by
  rcases equal_compares_contents sharedLists_coherent with ⟨answers, _, _⟩
  have shared : .pair 7 (oneAndA 1 2 3) (oneAndA 1 2 3) ∈ Value.exactOf sharedLists :=
    ⟨by simp [sharedLists], rfl⟩
  have copied : .pair 8 (oneAndA 4 5 6) (oneAndA 1 2 3) ∈ Value.exactOf sharedLists :=
    ⟨by simp [sharedLists], rfl⟩
  have list : oneAndA 1 2 3 ∈ Value.exactOf sharedLists := ⟨by simp [sharedLists], rfl⟩
  exact ⟨answers ⟨_, shared⟩ ⟨_, copied⟩, answers ⟨_, copied⟩ ⟨_, list⟩⟩

end SmallScheme
