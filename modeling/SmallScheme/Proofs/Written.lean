import SmallScheme.Datum.Printer

namespace SmallScheme

/-! # Written forms as characters

The written form of a datum as a list of characters, put together from those of its
parts. -/

theorem Text.toList_quoted (written : Char → String) (text : String) :
    (quoted written text).toList =
      '"' :: (text.toList.flatMap (written · |>.toList) ++ ['"']) := by
  have append (characters : List Char) (before : String) :
      (characters.foldl (fun result character => result ++ written character) before).toList =
        before.toList ++ characters.flatMap (written · |>.toList) := by
    induction characters generalizing before with
    | nil => simp
    | cons character characters induction => simp [induction]
  rw [quoted, String.foldl_eq_foldl_toList, String.toList_push, append]
  rfl

namespace Datum

variable {ι : Type}

mutual

/-- The characters of the written form. -/
def written : Datum ι → List Char
  | .pair _ car cdr => '(' :: (car.written ++ cdr.writtenRest)
  | atom => atom.atomText.toList

/-- The characters of the rest of an open list. -/
def writtenRest : Datum ι → List Char
  | .nil => [')']
  | .pair _ car cdr => ' ' :: (car.written ++ cdr.writtenRest)
  | atom => ' ' :: '.' :: ' ' :: (atom.atomText.toList ++ [')'])

end

theorem toList_write_and_writeRest (datum : Datum ι) (before : String) :
    (datum.write before).toList = before.toList ++ datum.written ∧
      (datum.writeRest before).toList = before.toList ++ datum.writtenRest := by
  induction datum generalizing before with
  | pair place car cdr carInduction cdrInduction =>
      constructor
      · simp [write, written, cdrInduction, carInduction]
      · simp [writeRest, writtenRest, cdrInduction, carInduction]
  | _ => simp [write, writeRest, written, writtenRest]

theorem toList_text (datum : Datum ι) : datum.text.toList = datum.written := by
  rw [text, (datum.toList_write_and_writeRest "").1]
  rfl

/-- What follows the first element of a written list starts with a blank or closes it. -/
theorem writtenRest_head (datum : Datum ι) :
    ∃ first rest, datum.writtenRest = first :: rest ∧ (first = ' ' ∨ first = ')') := by
  cases datum <;> simp [writtenRest]

end Datum

end SmallScheme
