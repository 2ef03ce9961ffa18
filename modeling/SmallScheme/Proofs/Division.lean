import Mathlib.Data.Int.ModEq
import SmallScheme.Proofs.Arithmetic

namespace SmallScheme

/-! # Division of integers

Division by zero fails, and so does the one division whose quotient does not fit. In all
other cases quotient and remainder make up the dividend, the remainder has the sign of the
dividend and the modulus that of the divisor. -/

namespace Number

/-! ## Exact division -/

section

variable (dividend : Int) {divisor : Int}

theorem tmod_natAbs_lt (nonzero : divisor ≠ 0) :
    (Int.tmod dividend divisor).natAbs < divisor.natAbs := by
  rw [Int.natAbs_tmod]
  apply Nat.mod_lt
  omega

theorem tmod_sign (divisor : Int) :
    Int.tmod dividend divisor = 0 ∨ (Int.tmod dividend divisor).sign = dividend.sign := by
  rw [Int.sign_tmod]
  by_cases divides : divisor ∣ dividend
  · exact .inl (Int.dvd_iff_tmod_eq_zero.mp divides)
  · exact .inr (if_neg divides)

/-- The modulus is the remainder, or the remainder and the divisor together if their signs
differ. -/
theorem fmod_eq_ite (divisor : Int) :
    Int.fmod dividend divisor =
      if Int.tmod dividend divisor ≠ 0 ∧ ¬(Int.tmod dividend divisor < 0 ↔ divisor < 0) then
        Int.tmod dividend divisor + divisor
      else Int.tmod dividend divisor := by
  have whole : divisor ∣ dividend ↔ Int.tmod dividend divisor = 0 := Int.dvd_iff_tmod_eq_zero
  have positive : 0 ≤ dividend → 0 ≤ Int.tmod dividend divisor := Int.tmod_nonneg divisor
  have negative : dividend < 0 → Int.tmod dividend divisor ≤ 0 := by
    intro below
    have opposite := Int.tmod_nonneg divisor (Int.neg_nonneg_of_nonpos (Int.le_of_lt below))
    rw [Int.neg_tmod] at opposite
    omega
  rw [Int.fmod_eq_tmod]
  split_ifs <;> omega

theorem fmod_natAbs_lt (nonzero : divisor ≠ 0) :
    (Int.fmod dividend divisor).natAbs < divisor.natAbs := by
  have remainder := tmod_natAbs_lt dividend nonzero
  rw [fmod_eq_ite]
  split <;> omega

theorem fmod_sign (nonzero : divisor ≠ 0) :
    Int.fmod dividend divisor = 0 ∨ (Int.fmod dividend divisor).sign = divisor.sign := by
  have remainder := tmod_natAbs_lt dividend nonzero
  have same := fmod_eq_ite dividend divisor
  rcases Int.lt_trichotomy (Int.fmod dividend divisor) 0 with below | zero | above
  · have negative : divisor < 0 := by split at same <;> omega
    rw [Int.sign_eq_neg_one_of_neg below, Int.sign_eq_neg_one_of_neg negative]
    exact .inr rfl
  · exact .inl zero
  · have positive : 0 < divisor := by split at same <;> omega
    rw [Int.sign_eq_one_of_pos above, Int.sign_eq_one_of_pos positive]
    exact .inr rfl

theorem fmod_modEq (divisor : Int) : Int.fmod dividend divisor ≡ dividend [ZMOD divisor] := by
  apply Int.modEq_iff_dvd.mpr
  exact ⟨Int.fdiv dividend divisor, by rw [Int.fmod_def, Int.sub_sub_self]⟩

end

/-! ## Results that fit -/

section

variable {dividend divisor : Int64}

theorem toInt_ne_zero (nonzero : divisor ≠ 0) : divisor.toInt ≠ 0 :=
  fun zero => nonzero (Int64.toInt_inj.mp zero)

/-- What is smaller than an integer that fits does so itself. -/
theorem fits_of_natAbs_lt {value : Int} (smaller : value.natAbs < divisor.toInt.natAbs) :
    Fits value := by
  have lower : Int64.minValue.toInt = -9223372036854775808 := by decide
  have upper : Int64.maxValue.toInt = 9223372036854775807 := by decide
  have bounds := fits_toInt divisor
  unfold Fits at bounds ⊢
  omega

/-- Only the opposite of the least integer is a quotient that does not fit. -/
theorem tdiv_fits (nonzero : divisor ≠ 0)
    (regular : ¬(dividend = Int64.minValue ∧ divisor = -1)) :
    Fits (Int.tdiv dividend.toInt divisor.toInt) := by
  by_cases opposite : divisor = -1
  · subst opposite
    have minusOne : Int.tdiv dividend.toInt (-1 : Int64).toInt = -dividend.toInt := by
      rw [show (-1 : Int64).toInt = -1 by decide, Int.tdiv_neg, Int.tdiv_one]
    rw [minusOne, fits_neg_iff]
    exact fun least => regular ⟨least, rfl⟩
  · have notOpposite : divisor.toInt ≠ -1 := fun same => opposite (Int64.toInt_inj.mp same)
    by_cases one : divisor.toInt = 1
    · rw [one, Int.tdiv_one]
      exact fits_toInt dividend
    · -- Any other divisor halves the dividend at least.
      have lower : Int64.minValue.toInt = -9223372036854775808 := by decide
      have upper : Int64.maxValue.toInt = 9223372036854775807 := by decide
      have bounds := fits_toInt dividend
      have notZero := toInt_ne_zero nonzero
      have halved : (Int.tdiv dividend.toInt divisor.toInt).natAbs ≤ dividend.toInt.natAbs / 2 := by
        rw [Int.natAbs_tdiv]
        apply Nat.div_le_div_left
        · omega
        · decide
      unfold Fits at bounds ⊢
      omega

theorem of_fits (nonzero : divisor ≠ 0)
    (regular : ¬(dividend = Int64.minValue ∧ divisor = -1)) (asked : DivisionResult) :
    Fits (asked.of dividend.toInt divisor.toInt) := by
  have notZero := toInt_ne_zero nonzero
  cases asked with
  | quotient => exact tdiv_fits nonzero regular
  | remainder => exact fits_of_natAbs_lt (tmod_natAbs_lt dividend.toInt notZero)
  | modulo => exact fits_of_natAbs_lt (fmod_natAbs_lt dividend.toInt notZero)

theorem divideWhole_of_regular (nonzero : divisor ≠ 0)
    (regular : ¬(dividend = Int64.minValue ∧ divisor = -1)) (asked : DivisionResult) :
    divideWhole asked dividend divisor =
      .ok (Int64.ofInt (asked.of dividend.toInt divisor.toInt)) := by
  have quotient := checked_of_fits (tdiv_fits nonzero regular)
  have result := checked_of_fits (of_fits nonzero regular asked)
  simp only [divideWhole, if_neg nonzero, quotient, result]
  rfl

theorem divideWhole_least (asked : DivisionResult) :
    divideWhole asked Int64.minValue (-1) = .error .overflow := by
  cases asked <;> rfl

end

/-! ## Laws -/

/-- What quotient, remainder and modulus have to do with dividend and divisor. The modulus is
found from the remainder by one addition of integers, and that does not wrap around. -/
structure Divides (dividend divisor quotient remainder modulus : Int64) : Prop where
  whole : dividend.toInt = quotient.toInt * divisor.toInt + remainder.toInt
  remainder_lt : remainder.toInt.natAbs < divisor.toInt.natAbs
  remainder_sign : remainder = 0 ∨ remainder.toInt.sign = dividend.toInt.sign
  modulus_modEq : modulus.toInt ≡ dividend.toInt [ZMOD divisor.toInt]
  modulus_lt : modulus.toInt.natAbs < divisor.toInt.natAbs
  modulus_sign : modulus = 0 ∨ modulus.toInt.sign = divisor.toInt.sign
  modulus_eq : modulus =
    if remainder ≠ 0 ∧ ¬(remainder < 0 ↔ divisor < 0) then remainder + divisor else remainder
  no_wrap : ¬(remainder < 0 ↔ divisor < 0) →
    (remainder + divisor).toInt = remainder.toInt + divisor.toInt

theorem lt_zero_iff (value : Int64) : value < 0 ↔ value.toInt < 0 :=
  Int64.lt_iff_toInt_lt

/-- A sum of integers with different signs fits. -/
theorem toInt_add_of_signs {left right : Int64} (differ : ¬(left < 0 ↔ right < 0)) :
    (left + right).toInt = left.toInt + right.toInt := by
  have lower : Int64.minValue.toInt = -9223372036854775808 := by decide
  have upper : Int64.maxValue.toInt = 9223372036854775807 := by decide
  have leftBounds := fits_toInt left
  have rightBounds := fits_toInt right
  rw [lt_zero_iff, lt_zero_iff] at differ
  unfold Fits at leftBounds rightBounds
  rw [Int64.toInt_add]
  apply Int.bmod_eq_of_le <;> omega

theorem modulus_eq_ite {dividend : Int} {divisor remainder modulus : Int64}
    (isRemainder : remainder.toInt = Int.tmod dividend divisor.toInt)
    (isModulus : modulus.toInt = Int.fmod dividend divisor.toInt) :
    modulus =
      if remainder ≠ 0 ∧ ¬(remainder < 0 ↔ divisor < 0) then remainder + divisor
      else remainder := by
  have inIntegers : remainder ≠ 0 ∧ ¬(remainder < 0 ↔ divisor < 0) ↔
      remainder.toInt ≠ 0 ∧ ¬(remainder.toInt < 0 ↔ divisor.toInt < 0) := by
    rw [lt_zero_iff, lt_zero_iff, ne_eq, ← Int64.toInt_inj]
    rfl
  apply Int64.toInt_inj.mp
  rw [isModulus, fmod_eq_ite, ← isRemainder]
  by_cases differ : remainder ≠ 0 ∧ ¬(remainder < 0 ↔ divisor < 0)
  · rw [if_pos differ, if_pos (inIntegers.mp differ), toInt_add_of_signs differ.2]
  · rw [if_neg differ, if_neg (mt inIntegers.mpr differ)]

theorem divides_of_regular {dividend divisor : Int64} (nonzero : divisor ≠ 0)
    (regular : ¬(dividend = Int64.minValue ∧ divisor = -1)) :
    Divides dividend divisor (Int64.ofInt (Int.tdiv dividend.toInt divisor.toInt))
      (Int64.ofInt (Int.tmod dividend.toInt divisor.toInt))
      (Int64.ofInt (Int.fmod dividend.toInt divisor.toInt)) := by
  have notZero := toInt_ne_zero nonzero
  have quotient := (of_fits nonzero regular .quotient).toInt_ofInt
  have remainder := (of_fits nonzero regular .remainder).toInt_ofInt
  have modulus := (of_fits nonzero regular .modulo).toInt_ofInt
  simp only [DivisionResult.of] at quotient remainder modulus
  constructor
  · rw [quotient, remainder, Int.tdiv_mul_add_tmod]
  · rw [remainder]
    exact tmod_natAbs_lt dividend.toInt notZero
  · rw [← Int64.toInt_inj, remainder]
    exact tmod_sign dividend.toInt divisor.toInt
  · rw [modulus]
    exact fmod_modEq dividend.toInt divisor.toInt
  · rw [modulus]
    exact fmod_natAbs_lt dividend.toInt notZero
  · rw [← Int64.toInt_inj, modulus]
    exact fmod_sign dividend.toInt notZero
  · exact modulus_eq_ite remainder modulus
  · exact toInt_add_of_signs

/-- The quotient of two integers is an integer exactly if nothing remains. -/
theorem divideIntegers_of_regular {dividend divisor : Int64} (nonzero : divisor ≠ 0)
    (regular : ¬(dividend = Int64.minValue ∧ divisor = -1)) :
    divideIntegers dividend divisor =
      if Int64.ofInt (Int.tmod dividend.toInt divisor.toInt) = 0 then
        .ok (.integer (Int64.ofInt (Int.tdiv dividend.toInt divisor.toInt)))
      else .ok (.real (dividend.toFloat / divisor.toFloat)) := by
  have exact := (of_fits nonzero regular .remainder).toInt_ofInt
  simp only [DivisionResult.of] at exact
  rw [divideIntegers, if_neg nonzero, checked_of_fits (tdiv_fits nonzero regular)]
  simp only [← Int64.toInt_inj, exact]
  rfl

end Number

namespace Primitive

open Number

variable {dividend divisor : Int64}

/-! ## Outcomes -/

/-- The primitive for each result of a division. -/
def ofDivision : DivisionResult → Primitive
  | .quotient => quotient
  | .remainder => remainder
  | .modulo => modulo

theorem operation_ofDivision (asked : DivisionResult) :
    (ofDivision asked).operation = .division asked := by
  cases asked <;> rfl

theorem ofDivision_answers {asked : DivisionResult} {result : Int64}
    (divided : divideWhole asked dividend divisor = .ok result) :
    (ofDivision asked).Answers [.integer dividend, .integer divisor] (.ok (.integer result)) := by
  intro next
  rw [operation_ofDivision]
  simp only [Operation.division, Operation.function₂, Operation.answer?, Datum.integer,
    Operation.integer, bind, Except.bind, divided]
  rfl

theorem ofDivision_fails {asked : DivisionResult} {fault : ArithmeticFault}
    (divided : divideWhole asked dividend divisor = .error fault) :
    (ofDivision asked).Answers [.integer dividend, .integer divisor]
      (.error (.arithmetic fault)) := by
  intro next
  rw [operation_ofDivision]
  simp only [Operation.division, Operation.function₂, Operation.answer?, Datum.integer,
    Operation.integer, bind, Except.bind, divided]
  rfl

theorem divide_answers {result : Number}
    (divided : divideIntegers dividend divisor = .ok result) :
    divide.Answers [.integer dividend, .integer divisor] (.ok (.number result)) := by
  have folded : Operation.fold 1 Number.divide [.integer dividend, .integer divisor] =
      .ok (.number result) := by
    rw [Operation.fold_integer (by simp), Operation.accumulate]
    simp only [Datum.integer, Operation.number, Number.divide, combine, divided]
    rfl
  rw [← folded]
  exact answers_of_folds rfl (Nat.le_add_left 1 1)

theorem divide_fails {fault : ArithmeticFault}
    (divided : divideIntegers dividend divisor = .error fault) :
    divide.Answers [.integer dividend, .integer divisor] (.error (.arithmetic fault)) := by
  have folded : Operation.fold 1 Number.divide [.integer dividend, .integer divisor] =
      .error (.arithmetic fault) := by
    rw [Operation.fold_integer (by simp), Operation.accumulate]
    simp only [Datum.integer, Operation.number, Number.divide, combine, divided]
    rfl
  rw [← folded]
  exact answers_of_folds rfl (Nat.le_add_left 1 1)

/-- An operation that fails in two cases, and in no others, does so exactly in those. -/
theorem fails_iff {operation : Primitive} {arguments : List Value}
    (byZero : divisor = 0 → operation.Answers arguments (.error (.arithmetic .divisionByZero)))
    (tooLarge : dividend = Int64.minValue ∧ divisor = -1 →
      operation.Answers arguments (.error (.arithmetic .overflow)))
    (regular : divisor ≠ 0 → ¬(dividend = Int64.minValue ∧ divisor = -1) →
      ∃ value, operation.Answers arguments (.ok value)) :
    (operation.Answers arguments (.error (.arithmetic .divisionByZero)) ↔ divisor = 0) ∧
      (operation.Answers arguments (.error (.arithmetic .overflow)) ↔
        dividend = Int64.minValue ∧ divisor = -1) := by
  by_cases zero : divisor = 0
  · have fails := byZero zero
    have notLarge : ¬(dividend = Int64.minValue ∧ divisor = -1) := by
      rintro ⟨_, rfl⟩
      cases zero
    refine ⟨iff_of_true fails zero, iff_of_false (fun other => ?_) notLarge⟩
    cases fails.unique other
  · by_cases large : dividend = Int64.minValue ∧ divisor = -1
    · have fails := tooLarge large
      refine ⟨iff_of_false (fun other => ?_) zero, iff_of_true fails large⟩
      cases fails.unique other
    · rcases regular zero large with ⟨value, answers⟩
      refine ⟨iff_of_false (fun other => ?_) zero, iff_of_false (fun other => ?_) large⟩
      · cases answers.unique other
      · cases answers.unique other

theorem ofDivision_fails_iff (asked : DivisionResult) (dividend divisor : Int64) :
    ((ofDivision asked).Answers [.integer dividend, .integer divisor]
        (.error (.arithmetic .divisionByZero)) ↔ divisor = 0) ∧
      ((ofDivision asked).Answers [.integer dividend, .integer divisor]
        (.error (.arithmetic .overflow)) ↔ dividend = Int64.minValue ∧ divisor = -1) := by
  apply fails_iff
  · rintro rfl
    exact ofDivision_fails rfl
  · rintro ⟨rfl, rfl⟩
    exact ofDivision_fails (divideWhole_least asked)
  · intro nonzero regular
    exact ⟨_, ofDivision_answers (divideWhole_of_regular nonzero regular asked)⟩

theorem divide_fails_iff (dividend divisor : Int64) :
    (divide.Answers [.integer dividend, .integer divisor]
        (.error (.arithmetic .divisionByZero)) ↔ divisor = 0) ∧
      (divide.Answers [.integer dividend, .integer divisor]
        (.error (.arithmetic .overflow)) ↔ dividend = Int64.minValue ∧ divisor = -1) := by
  apply fails_iff
  · rintro rfl
    exact divide_fails rfl
  · rintro ⟨rfl, rfl⟩
    exact divide_fails rfl
  · intro nonzero regular
    have divided := divideIntegers_of_regular nonzero regular
    split at divided
    · exact ⟨_, divide_answers divided⟩
    · exact ⟨_, divide_answers divided⟩

end Primitive

/-- Every division of two integers fails for want of a divisor exactly if that is zero, and
because of its size exactly if the least integer is divided by -1. In all other cases there
are quotient, remainder and modulus, with the laws that tie them to each other; and `/` gives
the quotient if nothing remains, and a float if something does. -/
theorem integer_division_laws (dividend divisor : Int64) :
    (∀ operation ∈ [Primitive.quotient, .remainder, .modulo, .divide],
      (operation.Answers [.integer dividend, .integer divisor]
        (.error (.arithmetic .divisionByZero)) ↔ divisor = 0) ∧
      (operation.Answers [.integer dividend, .integer divisor]
        (.error (.arithmetic .overflow)) ↔ dividend = Int64.minValue ∧ divisor = -1)) ∧
    (divisor ≠ 0 → ¬(dividend = Int64.minValue ∧ divisor = -1) →
      ∃ quotient remainder modulus : Int64,
        Primitive.quotient.Answers [.integer dividend, .integer divisor]
          (.ok (.integer quotient)) ∧
        Primitive.remainder.Answers [.integer dividend, .integer divisor]
          (.ok (.integer remainder)) ∧
        Primitive.modulo.Answers [.integer dividend, .integer divisor]
          (.ok (.integer modulus)) ∧
        Number.Divides dividend divisor quotient remainder modulus ∧
        (remainder = 0 → Primitive.divide.Answers [.integer dividend, .integer divisor]
          (.ok (.integer quotient))) ∧
        (remainder ≠ 0 → Primitive.divide.Answers [.integer dividend, .integer divisor]
          (.ok (.number (.real (dividend.toFloat / divisor.toFloat)))))) := by
  constructor
  · intro operation member
    simp only [List.mem_cons, List.not_mem_nil, or_false] at member
    rcases member with rfl | rfl | rfl | rfl
    · exact Primitive.ofDivision_fails_iff .quotient dividend divisor
    · exact Primitive.ofDivision_fails_iff .remainder dividend divisor
    · exact Primitive.ofDivision_fails_iff .modulo dividend divisor
    · exact Primitive.divide_fails_iff dividend divisor
  · intro nonzero regular
    have answers (asked : Number.DivisionResult) :=
      Primitive.ofDivision_answers (Number.divideWhole_of_regular nonzero regular asked)
    have divided := Number.divideIntegers_of_regular nonzero regular
    have laws := Number.divides_of_regular nonzero regular
    refine ⟨_, _, _, answers .quotient, answers .remainder, answers .modulo, laws, ?_, ?_⟩
    · intro nothing
      exact Primitive.divide_answers (divided.trans (if_pos nothing))
    · intro something
      exact Primitive.divide_answers (divided.trans (if_neg something))

/-- `-7` by `2`: the quotient goes towards zero and the modulus is positive, and a float stands
for the ratio. -/
theorem integer_division_laws_minusSeven :
    Primitive.quotient.Answers [.integer (-7), .integer 2] (.ok (.integer (-3))) ∧
    Primitive.remainder.Answers [.integer (-7), .integer 2] (.ok (.integer (-1))) ∧
    Primitive.modulo.Answers [.integer (-7), .integer 2] (.ok (.integer 1)) ∧
    Number.Divides (-7) 2 (-3) (-1) 1 ∧
    ∃ ratio, Primitive.divide.Answers [.integer (-7), .integer 2] (.ok (.number (.real ratio))) := by
  rcases (integer_division_laws (-7) 2).2 (by decide) (by decide) with
    ⟨quotient, remainder, modulus, divided, remains, congruent, laws, _, inexact⟩
  have isQuotient : quotient = -3 := divided.integer_unique fun _ => rfl
  have isRemainder : remainder = -1 := remains.integer_unique fun _ => rfl
  have isModulus : modulus = 1 := congruent.integer_unique fun _ => rfl
  subst isQuotient isRemainder isModulus
  exact ⟨divided, remains, congruent, laws, _, inexact (by decide)⟩

end SmallScheme
