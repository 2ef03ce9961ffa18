import Mathlib
import SmallScheme.Proofs.Arithmetic

namespace SmallScheme

/-! # Comparison of many arguments

A comparison looks at all its arguments before it compares any two of them. So the first one
that cannot be compared is at fault, however the others compare. After that only neighbours
are compared; between integers this is enough, since then the relation holds of any two
arguments in their order. -/

/-! ## Neighbours -/

namespace Number.Comparison

/-- What a comparison says of exact integers. -/
def Relates : Comparison → Int → Int → Prop
  | .equal, left, right => left = right
  | .less, left, right => left < right
  | .greater, left, right => left > right
  | .atMost, left, right => left ≤ right
  | .atLeast, left, right => left ≥ right

variable (relation : Comparison)

theorem relates_trans {left middle right : Int} (one : relation.Relates left middle)
    (two : relation.Relates middle right) : relation.Relates left right := by
  cases relation <;> simp only [Relates] at one two ⊢ <;> omega

instance : Trans relation.Relates relation.Relates relation.Relates where
  trans := relation.relates_trans

theorem holds_integer_iff (left right : Int64) :
    relation.holds (.integer left) (.integer right) = true ↔
      relation.Relates left.toInt right.toInt := by
  cases relation with
  | equal => simp [holds, Relates, Int64.toInt_inj]
  | less | greater => simp [holds, Relates, Int64.lt_iff_toInt_lt]
  | atMost | atLeast => simp [holds, Relates, Int64.le_iff_toInt_le]

theorem chain_iff_isChain (numbers : List Number) :
    relation.chain numbers = true ↔
      numbers.IsChain fun left right => relation.holds left right = true := by
  fun_induction chain relation numbers with
  | case1 left right more induction =>
      rw [Bool.and_eq_true, induction, List.isChain_cons_cons]
  | case2 numbers short =>
      rcases numbers with _ | ⟨only, _ | ⟨second, more⟩⟩
      · simp
      · simp
      · exact absurd rfl (short only second more)

/-- Integers that are related to their neighbours are related to all that follow. -/
theorem chain_integers_iff (integers : List Int64) :
    relation.chain (integers.map .integer) = true ↔
      integers.Pairwise fun left right => relation.Relates left.toInt right.toInt := by
  calc relation.chain (integers.map .integer) = true
      ↔ (integers.map Number.integer).IsChain fun left right =>
          relation.holds left right = true := relation.chain_iff_isChain _
    _ ↔ integers.IsChain fun left right => relation.Relates left.toInt right.toInt := by
        simp only [List.isChain_map, holds_integer_iff]
    _ ↔ (integers.map Int64.toInt).IsChain relation.Relates := (List.isChain_map _).symm
    _ ↔ (integers.map Int64.toInt).Pairwise relation.Relates := List.isChain_iff_pairwise
    _ ↔ integers.Pairwise fun left right => relation.Relates left.toInt right.toInt :=
        List.pairwise_map

end Number.Comparison

/-! ## Operands -/

/-- An integer or a float. -/
def Datum.isReal {ι : Type} : Datum ι → Bool
  | .number (.integer _) => true
  | .number (.real _) => true
  | _ => false

namespace Operation

/-- An operand is taken if it passes the test, and else its type is at fault. -/
structure Takes (operand : Value → Except PrimitiveFault Number) (test : Value → Bool)
    (expected : Expected) : Prop where
  passes : ∀ {argument}, test argument = true → ∃ number, operand argument = .ok number
  fails : ∀ {argument}, test argument = false →
    operand argument = .error (.wrongType expected argument)
  integer : ∀ value, operand (.integer value) = .ok (.integer value)

theorem number_takes : Takes number Datum.isNumber .number where
  passes {argument} isNumber := by
    cases argument with
    | number value => exact ⟨value, rfl⟩
    | _ => cases isNumber
  fails := number_of_not_isNumber
  integer _ := rfl

theorem realNumber_takes : Takes realNumber Datum.isReal .realNumber where
  passes {argument} isReal := by
    rcases argument with _ | _ | ⟨_ | _ | _⟩ | _ | _ | _ | _
    case number.integer value => exact ⟨.integer value, rfl⟩
    case number.real value => exact ⟨.real value, rfl⟩
    all_goals cases isReal
  fails {argument} unreal := by
    rcases argument with _ | _ | ⟨_ | _ | _⟩ | _ | _ | _ | _
    case number.integer => cases unreal
    case number.real => cases unreal
    all_goals rfl
  integer _ := rfl

namespace Takes

variable {operand : Value → Except PrimitiveFault Number} {test : Value → Bool}
  {expected : Expected} (takes : Takes operand test expected)

include takes

/-- The operands are looked at from the left, up to the first one at fault. -/
theorem mapM_of_find? {arguments : List Value} {culprit : Value}
    (found : arguments.find? (fun argument => !test argument) = some culprit) :
    arguments.mapM operand = .error (.wrongType expected culprit) := by
  induction arguments with
  | nil => cases found
  | cons first rest induction =>
      rw [List.mapM_cons]
      cases tested : test first with
      | false =>
          have same : first = culprit := by simpa [tested] using found
          rw [takes.fails tested, same]
          rfl
      | true =>
          have later : rest.find? (fun argument => !test argument) = some culprit := by
            simpa [tested] using found
          rcases takes.passes tested with ⟨number, taken⟩
          rw [taken, induction later]
          rfl

theorem mapM_integers (integers : List Int64) :
    (integers.map .integer).mapM operand = .ok (integers.map .integer) := by
  induction integers with
  | nil => rfl
  | cons first rest induction =>
      rw [List.map_cons, List.mapM_cons, takes.integer, induction]
      rfl

end Takes

end Operation

/-! ## Comparisons -/

namespace Primitive

/-- A primitive fails because of an argument, which should have been of the type with this
name. -/
def Refuses (operation : Primitive) (arguments : List Value) (type : String)
    (culprit : Value) : Prop :=
  ∃ expected : Expected, expected.text = type ∧
    operation.Answers arguments (.error (.wrongType expected culprit))

/-- The orders, each with what it says of integers. -/
inductive Orders : Primitive → (Int → Int → Prop) → Prop
  | less : Orders .less fun left right => left < right
  | greater : Orders .greater fun left right => left > right
  | atMost : Orders .atMost fun left right => left ≤ right
  | atLeast : Orders .atLeast fun left right => left ≥ right

variable {operation : Primitive} {operand : Value → Except PrimitiveFault Number}
  {test : Value → Bool} {expected : Expected} {relation : Number.Comparison}

theorem answers_of_find? (compares : operation.operation = .comparison relation operand)
    (takes : Operation.Takes operand test expected) {arguments : List Value} {culprit : Value}
    (found : arguments.find? (fun argument => !test argument) = some culprit) :
    operation.Answers arguments (.error (.wrongType expected culprit)) := by
  intro next
  have nonempty : 1 ≤ arguments.length :=
    List.length_pos_of_mem (List.mem_of_find?_eq_some found)
  rw [compares, Operation.comparison, Operation.functionOfMany, Operation.answer?,
    if_pos nonempty, takes.mapM_of_find? found]
  rfl

theorem answers_integers (compares : operation.operation = .comparison relation operand)
    (takes : Operation.Takes operand test expected) {integers : List Int64}
    (nonempty : integers ≠ []) :
    operation.Answers (integers.map .integer)
      (.ok (.boolean (relation.chain (integers.map .integer)))) := by
  intro next
  have enough : 1 ≤ (integers.map Datum.integer : List Value).length := by
    rw [List.length_map]
    exact List.length_pos_of_ne_nil nonempty
  rw [compares, Operation.comparison, Operation.functionOfMany, Operation.answer?,
    if_pos enough, takes.mapM_integers]
  rfl

/-- An order compares operands that are real. -/
theorem Orders.compares {relates : Int → Int → Prop} (orders : operation.Orders relates) :
    ∃ relation : Number.Comparison, relation.Relates = relates ∧
      operation.operation = .comparison relation Operation.realNumber := by
  cases orders with
  | less => exact ⟨.less, rfl, rfl⟩
  | greater => exact ⟨.greater, rfl, rfl⟩
  | atMost => exact ⟨.atMost, rfl, rfl⟩
  | atLeast => exact ⟨.atLeast, rfl, rfl⟩

end Primitive

/-- The orders refuse the first argument that is neither an integer nor a float, and `=` the
first one that is no number, whatever stands before and behind it. Of integers only, an order
holds exactly if it holds of any two of them, the one that stands first on its left, and `=`
exactly if all of them are equal. -/
theorem comparisons_hold_of_all_pairs :
    (∀ operation relates, Primitive.Orders operation relates →
      (∀ arguments culprit, arguments.find? (fun argument => !argument.isReal) = some culprit →
        operation.Refuses arguments "real number" culprit) ∧
      ∀ integers : List Int64, integers ≠ [] →
        ∃ answer, operation.Answers (integers.map .integer) (.ok (.boolean answer)) ∧
          (answer = true ↔ ∀ first second : Fin integers.length, first < second →
            relates (integers.get first).toInt (integers.get second).toInt)) ∧
    (∀ arguments culprit, arguments.find? (fun argument => !argument.isNumber) = some culprit →
      Primitive.numbersEqual.Refuses arguments "number" culprit) ∧
    ∀ integers : List Int64, integers ≠ [] →
      ∃ answer, Primitive.numbersEqual.Answers (integers.map .integer) (.ok (.boolean answer)) ∧
        (answer = true ↔ ∀ left ∈ integers, ∀ right ∈ integers, left = right) := by
  refine ⟨?_, ?_, ?_⟩
  · intro operation relates orders
    rcases orders.compares with ⟨relation, rfl, compares⟩
    constructor
    · intro arguments culprit found
      exact ⟨_, rfl, Primitive.answers_of_find? compares Operation.realNumber_takes found⟩
    · intro integers nonempty
      refine ⟨_, Primitive.answers_integers compares Operation.realNumber_takes nonempty, ?_⟩
      rw [relation.chain_integers_iff, List.pairwise_iff_get]
  · intro arguments culprit found
    exact ⟨_, rfl, Primitive.answers_of_find? rfl Operation.number_takes found⟩
  · intro integers nonempty
    refine ⟨_, Primitive.answers_integers rfl Operation.number_takes nonempty, ?_⟩
    rw [Number.Comparison.chain_integers_iff]
    simp only [Number.Comparison.Relates, Int64.toInt_inj]
    constructor
    · intro pairwise left inList right alsoInList
      exact pairwise.forall_of_forall (fun _ _ => rfl) inList alsoInList
    · intro same
      exact List.pairwise_of_forall_mem_list same

/-- In `(< 3 1 a +i)` the symbol is at fault, although 3 is not less than 1 and a complex number
stands behind it. In `(<= 1 3 2)` the neighbours 3 and 2 are out of order; 1, 2 and 2 are in
order, and `(= 2 2 2)` holds. -/
theorem comparisons_hold_of_all_pairs_examples :
    Primitive.less.Refuses
      [.integer 3, .integer 1, .symbol ⟨"a"⟩, .number (.complex 0.0 1.0)] "real number"
      (.symbol ⟨"a"⟩) ∧
    Primitive.numbersEqual.Refuses [.number (.complex 0.0 1.0), .integer 1, .nil] "number" .nil ∧
    Primitive.atMost.Answers [.integer 1, .integer 3, .integer 2] (.ok (.boolean false)) ∧
    Primitive.atMost.Answers [.integer 1, .integer 2, .integer 2] (.ok (.boolean true)) ∧
    Primitive.numbersEqual.Answers [.integer 2, .integer 2, .integer 2] (.ok (.boolean true)) := by
  rcases comparisons_hold_of_all_pairs with ⟨ofOrders, refuses, equals⟩
  rcases ofOrders .less _ .less with ⟨lessRefuses, _⟩
  rcases ofOrders .atMost _ .atMost with ⟨_, atMost⟩
  refine ⟨lessRefuses _ _ rfl, refuses _ _ rfl, ?_, ?_, ?_⟩
  · rcases atMost [1, 3, 2] (by simp) with ⟨answer, answers, iff⟩
    have isFalse : answer = false := Bool.eq_false_iff.mpr (mt iff.mp (by decide))
    exact isFalse ▸ answers
  · rcases atMost [1, 2, 2] (by simp) with ⟨answer, answers, iff⟩
    exact iff.mpr (by decide) ▸ answers
  · rcases equals [2, 2, 2] (by simp) with ⟨answer, answers, iff⟩
    exact iff.mpr (by simp) ▸ answers

end SmallScheme
