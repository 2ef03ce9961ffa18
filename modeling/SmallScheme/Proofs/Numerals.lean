import SmallScheme.Source.Numeral

namespace SmallScheme

/-! # The parts of a numeral

How the reading of a number depends on the character behind its digits, and how that of
a literal depends on its sign. -/

namespace Number

theorem toInt_of_fitInteger? {value : Int} {fitted : Int64}
    (fits : fitInteger? value = some fitted) : fitted.toInt = value := by
  unfold fitInteger? at fits
  split at fits
  · rename_i bounds
    cases fits
    have above : value < Int64.maxValue.toInt + 1 := Int.lt_add_one_of_le bounds.2
    exact Int64.toInt_ofInt_of_le bounds.1 above
  · cases fits

@[simp] theorem fitInteger?_toInt (value : Int64) : fitInteger? value.toInt = some value := by
  rw [fitInteger?, if_pos ⟨value.minValue_le_toInt, value.toInt_le⟩, Int64.ofInt_toInt]

/-- All but the least integer have an opposite. -/
theorem fitInteger?_neg_toInt {value : Int64} (signed : value ≠ Int64.minValue) :
    fitInteger? (-value.toInt) = some (-value) := by
  have different : value.toInt ≠ Int64.minValue.toInt :=
    fun same => signed (Int64.toInt_inj.mp same)
  have least := value.minValue_le_toInt
  have most := value.toInt_le
  have lower : Int64.minValue.toInt = -9223372036854775808 := by decide
  have upper : Int64.maxValue.toInt = 9223372036854775807 := by decide
  rw [fitInteger?, if_pos (by omega), ← Int64.neg_ofInt, Int64.ofInt_toInt]

end Number

namespace Numeral

/-- Digits with a point behind them. -/
theorem unsigned_of_point {text behind : List Char}
    (point : text.dropWhile Char.isDigit = '.' :: behind) :
    unsigned text =
      if text.takeWhile Char.isDigit = [] ∧ behind.takeWhile Char.isDigit = [] then
        (none, behind.dropWhile Char.isDigit)
      else
        (some (.real (Number.nearest
          (digitsValue (text.takeWhile Char.isDigit ++ behind.takeWhile Char.isDigit))
          (Nat.pow 10 (behind.takeWhile Char.isDigit).length))), behind.dropWhile Char.isDigit) := by
  rw [unsigned, point]
  rfl

/-- Digits without a point behind them. -/
theorem unsigned_of_not_point {text : List Char}
    (whole : (text.dropWhile Char.isDigit).head? ≠ some '.') :
    unsigned text =
      if text.takeWhile Char.isDigit = [] then (none, text.dropWhile Char.isDigit)
      else
        (some (wholeNumber (digitsValue (text.takeWhile Char.isDigit))),
          text.dropWhile Char.isDigit) := by
  unfold unsigned
  split
  · rename_i found
    rw [found] at whole
    exact absurd rfl whole
  · rfl

/-- A literal whose first character is no sign. -/
theorem read_of_not_sign {text : List Char} (notMinus : text.head? ≠ some '-')
    (notPlus : text.head? ≠ some '+') : read text = magnitude text := by
  unfold read
  split <;> simp_all

end Numeral

end SmallScheme
