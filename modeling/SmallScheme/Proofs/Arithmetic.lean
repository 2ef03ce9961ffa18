import Mathlib.Data.List.Perm.Basic
import SmallScheme.Primitive.Operation

namespace SmallScheme

/-! # Arithmetic of integers

Integers are combined exactly or not at all. A sum, a difference or a product of many
arguments is built up from the left, and what it comes to is read off the exact results for
the starts of the argument list: the last of them if they all fit, and else the first fault. -/

/-- An integer as a datum. -/
def Datum.integer {ι : Type} (value : Int64) : Datum ι :=
  .number (.integer value)

theorem Datum.integer_injective {ι : Type} : Function.Injective (integer : Int64 → Datum ι) := by
  intro left right same
  injection same with same
  injection same

namespace Primitive

/-- On these arguments a primitive fails, or gives back a value and does nothing else. -/
def Answers (operation : Primitive) (arguments : List Value)
    (outcome : Except PrimitiveFault Value) : Prop :=
  ∀ next, operation.operation.answer? next arguments = some (Operation.plain next <$> outcome)

theorem Answers.unique {operation : Primitive} {arguments : List Value}
    {outcome other : Except PrimitiveFault Value} (answers : operation.Answers arguments outcome)
    (also : operation.Answers arguments other) : outcome = other := by
  have same := Option.some.inj ((answers 0).symm.trans (also 0))
  cases outcome <;> cases other <;> cases same <;> rfl

theorem Answers.integer_unique {operation : Primitive} {arguments : List Value}
    {result other : Int64} (answers : operation.Answers arguments (.ok (.integer result)))
    (also : operation.Answers arguments (.ok (.integer other))) : result = other :=
  Datum.integer_injective (Except.ok.inj (answers.unique also))

end Primitive

/-! ## Integers that fit -/

namespace Number

/-- There is a 64-bit integer with this value. -/
def Fits (value : Int) : Prop :=
  Int64.minValue.toInt ≤ value ∧ value ≤ Int64.maxValue.toInt

instance (value : Int) : Decidable (Fits value) :=
  inferInstanceAs (Decidable (_ ∧ _))

variable {value : Int}

theorem fits_toInt (integer : Int64) : Fits integer.toInt :=
  ⟨integer.minValue_le_toInt, integer.toInt_le⟩

theorem Fits.toInt_ofInt (fits : Fits value) : (Int64.ofInt value).toInt = value := by
  have lower : Int64.minValue.toInt = -9223372036854775808 := by decide
  have upper : Int64.maxValue.toInt = 9223372036854775807 := by decide
  unfold Fits at fits
  exact Int64.toInt_ofInt_of_le (by omega) (by omega)

theorem checked_of_fits (fits : Fits value) : checked value = .ok (Int64.ofInt value) := by
  unfold Fits at fits
  rw [checked, fitInteger?, if_pos fits]

theorem checked_of_not_fits (unfit : ¬Fits value) : checked value = .error .overflow := by
  unfold Fits at unfit
  rw [checked, fitInteger?, if_neg unfit]

/-- Only the least integer has no opposite. -/
theorem fits_neg_iff (only : Int64) : Fits (-only.toInt) ↔ only ≠ Int64.minValue := by
  have lower : Int64.minValue.toInt = -9223372036854775808 := by decide
  have upper : Int64.maxValue.toInt = 9223372036854775807 := by decide
  have bounds := fits_toInt only
  rw [Ne, ← Int64.toInt_inj]
  unfold Fits at bounds ⊢
  omega

/-! ## Exact totals -/

/-- The exact result for integers that are combined from left to right. -/
def total? (combine : Int → Int → Int) : List Int64 → Option Int
  | [] => none
  | first :: rest => some ((rest.map Int64.toInt).foldl combine first.toInt)

/-- The exact results for all starts of the list fit. -/
def StartsFit (combine : Int → Int → Int) (integers : List Int64) : Prop :=
  ∀ start, start <+: integers → ∀ total ∈ total? combine start, Fits total

variable {combine : Int → Int → Int} {earlier integers : List Int64}

/-- One more integer is combined with the total so far. -/
theorem total?_append {total : Int} (found : total? combine earlier = some total) (last : Int64) :
    total? combine (earlier ++ [last]) = some (combine total last.toInt) := by
  cases earlier with
  | nil => cases found
  | cons first rest =>
      cases found
      simp [total?]

theorem startsFit_nil (combine : Int → Int → Int) : StartsFit combine [] := by
  intro start isStart total found
  rw [List.prefix_nil.mp isStart] at found
  cases found

theorem StartsFit.append {total : Int} {last : Int64} (fit : StartsFit combine earlier)
    (found : total? combine (earlier ++ [last]) = some total) (fits : Fits total) :
    StartsFit combine (earlier ++ [last]) := by
  intro start isStart other here
  rcases List.prefix_concat_iff.mp isStart with rfl | shorter
  · rw [found] at here
    cases here
    exact fits
  · exact fit start shorter other here

theorem startsFit_single (combine : Int → Int → Int) (first : Int64) :
    StartsFit combine [first] :=
  (startsFit_nil combine).append rfl (fits_toInt first)

end Number

/-! ## Arguments from left to right -/

/-- An integer, or no number at all. -/
inductive Datum.Discrete : Value → Prop
  | integer (value : Int64) : Discrete (.integer value)
  | other {value : Value} : value.isNumber = false → Discrete value

namespace Operation

open Number

/-- What arguments come to that are combined from left to right: the exact result if all are
integers and the results for all starts fit, and else the first fault. That is an argument
that is no number, or an integer with which the exact result does not fit any more. -/
inductive Totals (combine : Int → Int → Int) : List Value → Except PrimitiveFault Value → Prop
  | exact {integers : List Int64} {result : Int64} :
      StartsFit combine integers → total? combine integers = some result.toInt →
      Totals combine (integers.map .integer) (.ok (.integer result))
  | notNumber {earlier : List Int64} {argument : Value} {later : List Value} :
      StartsFit combine earlier → argument.isNumber = false →
      Totals combine (earlier.map .integer ++ argument :: later)
        (.error (.wrongType .number argument))
  | overflow {earlier : List Int64} {last : Int64} {total : Int} {later : List Value} :
      StartsFit combine earlier → total? combine (earlier ++ [last]) = some total →
      ¬Fits total →
      Totals combine (earlier.map .integer ++ .integer last :: later)
        (.error (.arithmetic .overflow))

/-- Two integers are combined exactly, if the result fits. -/
def Exactly (combine : Int → Int → Int)
    (numbers : Number → Number → Except ArithmeticFault Number) : Prop :=
  ∀ left right : Int64, numbers (.integer left) (.integer right) =
    .integer <$> checked (combine left.toInt right.toInt)

variable {combine : Int → Int → Int} {numbers : Number → Number → Except ArithmeticFault Number}
  {earlier : List Int64} {total : Int64} {neutral : Int64}

theorem number_of_not_isNumber {argument : Value} (other : argument.isNumber = false) :
    number argument = .error (.wrongType .number argument) := by
  cases argument with
  | number value => cases other
  | _ => rfl

section

variable (exactly : Exactly combine numbers)

include exactly

theorem accumulate_of_fits {last : Int64}
    (fits : Fits (combine total.toInt last.toInt)) (arguments : List Value) :
    accumulate numbers (.integer total) (.integer last :: arguments) =
      accumulate numbers (.integer (Int64.ofInt (combine total.toInt last.toInt))) arguments := by
  simp only [accumulate, Datum.integer, number, exactly total last, checked_of_fits fits]
  rfl

theorem accumulate_of_not_fits {last : Int64}
    (unfit : ¬Fits (combine total.toInt last.toInt)) (arguments : List Value) :
    accumulate numbers (.integer total) (.integer last :: arguments) =
      .error (.arithmetic .overflow) := by
  simp only [accumulate, Datum.integer, number, exactly total last, checked_of_not_fits unfit]
  rfl

/-- From integers so far that have a total, the further arguments come to what they should. -/
theorem accumulate_totals (fit : StartsFit combine earlier)
    (found : total? combine earlier = some total.toInt) {arguments : List Value}
    (discrete : ∀ argument ∈ arguments, argument.Discrete) :
    Totals combine (earlier.map .integer ++ arguments)
      (.number <$> accumulate numbers (.integer total) arguments) := by
  induction arguments generalizing earlier total with
  | nil =>
      rw [List.append_nil]
      exact .exact fit found
  | cons argument arguments induction =>
      rcases List.forall_mem_cons.mp discrete with ⟨here, others⟩
      cases here with
      | other notNumber =>
          rw [accumulate, number_of_not_isNumber notNumber]
          exact .notNumber fit notNumber
      | integer last =>
          have next := total?_append found last
          by_cases fits : Fits (combine total.toInt last.toInt)
          · rw [accumulate_of_fits exactly fits]
            have more := fit.append next fits
            rw [← fits.toInt_ofInt] at next
            have goesOn := induction more next others
            rwa [List.map_append, List.append_assoc] at goesOn
          · rw [accumulate_of_not_fits exactly fits]
            exact .overflow fit next fits

/-- Integers that fit from the start on are passed over, and their total stays. -/
theorem accumulate_starts (found : total? combine earlier = some total.toInt) {more : List Int64}
    (fit : StartsFit combine (earlier ++ more)) :
    ∃ result : Int64, total? combine (earlier ++ more) = some result.toInt ∧
      ∀ arguments, accumulate numbers (.integer total) (more.map .integer ++ arguments) =
        accumulate numbers (.integer result) arguments := by
  induction more generalizing earlier total with
  | nil =>
      rw [List.append_nil]
      exact ⟨total, found, fun _ => rfl⟩
  | cons last more induction =>
      have next := total?_append found last
      have isStart : earlier ++ [last] <+: earlier ++ last :: more :=
        (List.prefix_append_right_inj earlier).mpr ⟨more, rfl⟩
      have fits := fit _ isStart _ next
      rw [List.append_cons] at fit ⊢
      rw [← fits.toInt_ofInt] at next
      rcases induction next fit with ⟨result, whole, passes⟩
      refine ⟨result, whole, fun arguments => ?_⟩
      rw [List.map_cons, List.cons_append, accumulate_of_fits exactly fits, passes]

theorem accumulate_integers {first : Int64} {rest : List Int64}
    (fit : StartsFit combine (first :: rest)) :
    ∃ result : Int64, total? combine (first :: rest) = some result.toInt ∧
      ∀ arguments, accumulate numbers (.integer first) (rest.map .integer ++ arguments) =
        accumulate numbers (.integer result) arguments := by
  have found : total? combine [first] = some first.toInt := rfl
  exact accumulate_starts exactly found fit

omit exactly in
theorem fold_many {first second : Value} {arguments : List Value} :
    fold neutral numbers (first :: second :: arguments) =
      (number first).bind fun total => .number <$> accumulate numbers total (second :: arguments) :=
  rfl

omit exactly in
theorem fold_integer {first : Int64} {arguments : List Value} (more : arguments ≠ []) :
    fold neutral numbers (.integer first :: arguments) =
      .number <$> accumulate numbers (.integer first) arguments := by
  cases arguments with
  | nil => exact absurd rfl more
  | cons second arguments => rfl

theorem fold_single {only result : Int64}
    (same : combine neutral.toInt only.toInt = result.toInt) :
    fold neutral numbers [.integer only] = .ok (.integer result) := by
  have fits : Fits (combine neutral.toInt only.toInt) := by
    rw [same]
    exact fits_toInt result
  change Datum.number <$> accumulate numbers (.integer neutral) [.integer only] = _
  rw [accumulate_of_fits exactly fits, same, Int64.ofInt_toInt]
  rfl

theorem fold_single_of_not_fits {only : Int64} (unfit : ¬Fits (combine neutral.toInt only.toInt)) :
    fold neutral numbers [.integer only] = .error (.arithmetic .overflow) := by
  change Datum.number <$> accumulate numbers (.integer neutral) [.integer only] = _
  rw [accumulate_of_not_fits exactly unfit]
  rfl

/-- Two arguments or more come to what they should. -/
theorem fold_totals {arguments : List Value}
    (discrete : ∀ argument ∈ arguments, argument.Discrete) (two : 2 ≤ arguments.length) :
    Totals combine arguments (fold neutral numbers arguments) := by
  rcases arguments with _ | ⟨first, _ | ⟨second, arguments⟩⟩
  · cases two
  · cases two with
    | step none => cases none
  · rcases List.forall_mem_cons.mp discrete with ⟨here, others⟩
    cases here with
    | integer first => exact accumulate_totals exactly (startsFit_single combine first) rfl others
    | other notNumber =>
        rw [fold_many, number_of_not_isNumber notNumber]
        exact .notNumber (startsFit_nil combine) notNumber

/-- They come to nothing else. -/
theorem fold_of_totals {arguments : List Value} {outcome : Except PrimitiveFault Value}
    (totals : Totals combine arguments outcome) (two : 2 ≤ arguments.length) :
    fold neutral numbers arguments = outcome := by
  cases totals with
  | @exact integers result fit found =>
      cases integers with
      | nil => cases found
      | cons first rest =>
          rcases accumulate_integers exactly fit with ⟨total, whole, passes⟩
          have same : total = result :=
            Int64.toInt_inj.mp (Option.some.inj (whole.symm.trans found))
          have more : (rest.map .integer : List Value) ≠ [] := by
            intro none
            simp [List.map_eq_nil_iff.mp none] at two
          rw [List.map_cons, fold_integer more, ← List.append_nil (rest.map _), passes, same]
          rfl
  | @notNumber earlier argument later fit notNumber =>
      cases earlier with
      | nil =>
          cases later with
          | nil => simp at two
          | cons second later =>
              rw [List.map_nil, List.nil_append, fold_many, number_of_not_isNumber notNumber]
              rfl
      | cons first rest =>
          rcases accumulate_integers exactly fit with ⟨total, _, passes⟩
          rw [List.map_cons, List.cons_append, fold_integer (by simp), passes, accumulate,
            number_of_not_isNumber notNumber]
          rfl
  | @overflow earlier last exact later fit found unfit =>
      cases earlier with
      | nil =>
          -- A single integer fits.
          cases found
          exact absurd (fits_toInt last) unfit
      | cons first rest =>
          rcases accumulate_integers exactly fit with ⟨total, whole, passes⟩
          have next := total?_append whole last
          rw [found] at next
          cases next
          rw [List.map_cons, List.cons_append, fold_integer (by simp), passes,
            accumulate_of_not_fits exactly unfit]
          rfl

end

/-- If all arguments are integers, a result is the exact one. -/
theorem Totals.exact_of_ok {integers : List Int64} {value : Value}
    (totals : Totals combine (integers.map .integer) (.ok value)) :
    ∃ result : Int64, value = .integer result ∧ total? combine integers = some result.toInt := by
  generalize same : (integers.map .integer : List Value) = arguments at totals
  cases totals with
  | @exact others result _ found =>
      rw [List.map_injective_iff.mpr Datum.integer_injective same]
      exact ⟨result, rfl, found⟩

end Operation

namespace Number

/-- An order of the integers does not count, if none counts for two of them. -/
theorem total?_perm {combine : Int → Int → Int} [Std.Commutative combine]
    [Std.Associative combine] {neutral : Int} (isNeutral : ∀ value, combine neutral value = value)
    {integers others : List Int64} (perm : integers.Perm others) :
    total? combine integers = total? combine others := by
  have folded (first : Int64) (rest : List Int64) :
      total? combine (first :: rest) =
        some (((first :: rest).map Int64.toInt).foldl combine neutral) := by
    rw [List.map_cons, List.foldl_cons, isNeutral]
    rfl
  cases integers with
  | nil => rw [List.nil_perm.mp perm]
  | cons first rest =>
      cases others with
      | nil => cases List.perm_nil.mp perm
      | cons second others =>
          rw [folded, folded, (perm.map Int64.toInt).foldl_eq]

end Number

namespace Primitive

open Number Operation

/-- A primitive that combines its arguments from left to right, and what it is for two exact
integers. -/
inductive Combines : Primitive → (Int → Int → Int) → Prop
  | add : Combines .add (· + ·)
  | subtract : Combines .subtract (· - ·)
  | multiply : Combines .multiply (· * ·)

theorem answers_of_folds {operation : Primitive} {least : Nat} {neutral : Int64}
    {numbers : Number → Number → Except ArithmeticFault Number}
    (folds : operation.operation = .functionOfMany least (fold neutral numbers))
    {arguments : List Value} (enough : least ≤ arguments.length) :
    operation.Answers arguments (fold neutral numbers arguments) := by
  intro next
  rw [folds]
  exact if_pos enough

theorem Combines.answers {operation : Primitive} {combine : Int → Int → Int}
    (combines : operation.Combines combine) {arguments : List Value}
    (discrete : ∀ argument ∈ arguments, argument.Discrete) (two : 2 ≤ arguments.length) :
    ∃ outcome, operation.Answers arguments outcome ∧
      ∀ other, Totals combine arguments other ↔ other = outcome := by
  have folded {least : Nat} {neutral : Int64}
      {numbers : Number → Number → Except ArithmeticFault Number}
      (folds : operation.operation = .functionOfMany least (fold neutral numbers))
      (few : least ≤ 1) (exactly : Exactly combine numbers) :
      ∃ outcome, operation.Answers arguments outcome ∧
        ∀ other, Totals combine arguments other ↔ other = outcome := by
    refine ⟨_, answers_of_folds folds (by omega), fun other => ⟨?_, ?_⟩⟩
    · intro totals
      exact (fold_of_totals exactly totals two).symm
    · rintro rfl
      exact fold_totals exactly discrete two
  cases combines with
  | add => exact folded rfl (by decide) fun _ _ => rfl
  | subtract => exact folded rfl (by decide) fun _ _ => rfl
  | multiply => exact folded rfl (by decide) fun _ _ => rfl

/-- One argument is combined with the neutral element. -/
theorem answers_single {operation : Primitive} {least : Nat} {neutral only : Int64}
    {numbers : Number → Number → Except ArithmeticFault Number}
    {outcome : Except PrimitiveFault Value}
    (folds : operation.operation = .functionOfMany least (fold neutral numbers))
    (few : least ≤ 1) (folded : fold neutral numbers [.integer only] = outcome) :
    operation.Answers [.integer only] outcome := by
  rw [← folded]
  exact answers_of_folds folds few

theorem add_single (only : Int64) : add.Answers [.integer only] (.ok (.integer only)) := by
  have exactly : Exactly (· + ·) Number.add := fun _ _ => rfl
  exact answers_single rfl (by decide) (fold_single exactly (Int.zero_add only.toInt))

theorem multiply_single (only : Int64) :
    multiply.Answers [.integer only] (.ok (.integer only)) := by
  have exactly : Exactly (· * ·) Number.multiply := fun _ _ => rfl
  exact answers_single rfl (by decide) (fold_single exactly (Int.one_mul only.toInt))

theorem subtract_single {only : Int64} (notLeast : only ≠ Int64.minValue) :
    subtract.Answers [.integer only] (.ok (.integer (Int64.ofInt (-only.toInt)))) := by
  have exactly : Exactly (· - ·) Number.subtract := fun _ _ => rfl
  have same : (0 : Int64).toInt - only.toInt = (Int64.ofInt (-only.toInt)).toInt := by
    rw [((fits_neg_iff only).mpr notLeast).toInt_ofInt]
    exact Int.zero_sub only.toInt
  exact answers_single rfl (by decide) (fold_single exactly same)

theorem subtract_least :
    subtract.Answers [.integer Int64.minValue] (.error (.arithmetic .overflow)) := by
  have exactly : Exactly (· - ·) Number.subtract := fun _ _ => rfl
  have unfit : ¬Fits ((0 : Int64).toInt - Int64.minValue.toInt) := by decide
  exact answers_single rfl (by decide) (fold_single_of_not_fits exactly unfit)

/-- Two orders of the same integers that both have a result have the same one. -/
theorem answers_perm {operation : Primitive} {combine : Int → Int → Int}
    (combines : operation.Combines combine) [Std.Commutative combine] [Std.Associative combine]
    {neutral : Int} (isNeutral : ∀ value, combine neutral value = value)
    {integers others : List Int64} (perm : integers.Perm others) {left right : Value}
    (one : operation.Answers (integers.map .integer) (.ok left))
    (two : operation.Answers (others.map .integer) (.ok right)) : left = right := by
  by_cases many : 2 ≤ integers.length
  · have discrete (list : List Int64) : ∀ argument ∈ (list.map .integer : List Value),
        argument.Discrete := by
      intro argument member
      rcases List.mem_map.mp member with ⟨value, _, rfl⟩
      exact .integer value
    have exact {list : List Int64} {value : Value} (long : 2 ≤ list.length)
        (answers : operation.Answers (list.map .integer) (.ok value)) :
        ∃ result : Int64, value = .integer result ∧ total? combine list = some result.toInt := by
      rcases combines.answers (discrete list) (by simpa using long) with ⟨outcome, same, totals⟩
      exact ((totals _).mpr (answers.unique same)).exact_of_ok
    rcases exact many one with ⟨first, rfl, here⟩
    rcases exact (perm.length_eq ▸ many) two with ⟨second, rfl, there⟩
    rw [total?_perm isNeutral perm, there] at here
    rw [Int64.toInt_inj.mp (Option.some.inj here)]
  · -- There is only one order of fewer than two integers.
    have same : integers = others := by
      rcases integers with _ | ⟨only, _ | ⟨second, rest⟩⟩
      · exact (List.nil_perm.mp perm).symm
      · exact (List.singleton_perm.mp perm)
      · exact absurd (by simp) many
    subst same
    exact Except.ok.inj (one.unique two)

end Primitive

/-- Two or more arguments, integers and others that are no numbers, are added, subtracted or
multiplied from left to right: the outcome is the exact result if they are all integers and
the exact results for all starts fit, and else it is the first fault. One integer is its own
sum and product, and it is subtracted from zero, which fails for the least one only; no
arguments have the sum 0 and the product 1. So orders of the same integers that have a sum
have the same one, and likewise for products. -/
theorem integers_combine_exactly :
    (∀ operation combine, Primitive.Combines operation combine →
      ∀ arguments : List Value, 2 ≤ arguments.length →
        (∀ argument ∈ arguments, argument.Discrete) →
          ∃ outcome, operation.Answers arguments outcome ∧
            ∀ other, Operation.Totals combine arguments other ↔ other = outcome) ∧
    (∀ only : Int64,
      Primitive.add.Answers [.integer only] (.ok (.integer only)) ∧
      Primitive.multiply.Answers [.integer only] (.ok (.integer only)) ∧
      (only ≠ Int64.minValue → ∃ opposite : Int64, opposite.toInt = -only.toInt ∧
        Primitive.subtract.Answers [.integer only] (.ok (.integer opposite)))) ∧
    Primitive.subtract.Answers [.integer Int64.minValue] (.error (.arithmetic .overflow)) ∧
    Primitive.add.Answers [] (.ok (.integer 0)) ∧
    Primitive.multiply.Answers [] (.ok (.integer 1)) ∧
    ∀ operation ∈ [Primitive.add, .multiply], ∀ integers others : List Int64,
      integers.Perm others → ∀ left right,
        operation.Answers (integers.map .integer) (.ok left) →
          operation.Answers (others.map .integer) (.ok right) → left = right := by
  refine ⟨?_, ?_, Primitive.subtract_least, fun _ => rfl, fun _ => rfl, ?_⟩
  · intro operation combine combines arguments two discrete
    exact combines.answers discrete two
  · intro only
    refine ⟨Primitive.add_single only, Primitive.multiply_single only, fun notLeast => ?_⟩
    exact ⟨_, ((Number.fits_neg_iff only).mpr notLeast).toInt_ofInt,
      Primitive.subtract_single notLeast⟩
  · intro operation member integers others perm left right one two
    rcases List.mem_pair.mp member with rfl | rfl
    · exact Primitive.answers_perm .add Int.zero_add perm one two
    · exact Primitive.answers_perm .multiply Int.one_mul perm one two

/-- In `(+ 9223372036854775807 1 a)` the sum is at fault before the symbol is looked at. In
another order the largest integer comes last, and the sum with -1 and 1 is the same. -/
theorem integers_combine_exactly_largest :
    Primitive.add.Answers [.integer Int64.maxValue, .integer 1, .symbol ⟨"a"⟩]
      (.error (.arithmetic .overflow)) ∧
    ∃ sum other,
      Primitive.add.Answers [.integer Int64.maxValue, .integer (-1), .integer 1] (.ok sum) ∧
      Primitive.add.Answers [.integer (-1), .integer 1, .integer Int64.maxValue] (.ok other) ∧
      sum = other := by
  rcases integers_combine_exactly with ⟨ofMany, _, _, _, _, ofOrders⟩
  have discrete : ∀ argument ∈ [.integer Int64.maxValue, .integer 1, .symbol ⟨"a"⟩],
      Datum.Discrete argument := by
    rintro _ (_ | ⟨_, _ | ⟨_, _ | ⟨_, ⟨⟩⟩⟩⟩)
    · exact .integer _
    · exact .integer _
    · exact .other rfl
  rcases ofMany .add _ .add _ (by decide) discrete with ⟨outcome, answers, totals⟩
  have tooLarge : Operation.Totals (· + ·)
      [.integer Int64.maxValue, .integer 1, .symbol ⟨"a"⟩] (.error (.arithmetic .overflow)) :=
    .overflow (Number.startsFit_single _ Int64.maxValue) rfl (by decide)
  refine ⟨(totals _).mp tooLarge ▸ answers, .integer Int64.maxValue, .integer Int64.maxValue,
    fun _ => rfl, fun _ => rfl, ?_⟩
  exact ofOrders .add (by decide) [Int64.maxValue, -1, 1] [-1, 1, Int64.maxValue] (by decide) _ _
    (fun _ => rfl) fun _ => rfl

end SmallScheme
