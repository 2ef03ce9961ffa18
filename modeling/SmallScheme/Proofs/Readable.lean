import Mathlib.Data.List.TakeWhile
import SmallScheme.Proofs.Lines
import SmallScheme.Proofs.Numerals

namespace SmallScheme

/-! # What can be read

The data that reading can yield: no procedures, no symbols that would be taken for
something else, and not the least integer. -/

/-- The characters are those of a symbol, and all of them are read as its name. -/
def IsSymbolName : List Char → Prop
  | [] => False
  | first :: rest =>
      Text.isBlank first = false ∧ first ≠ ';' ∧ Cursor.StartsWord first rest ∧
        Numeral.startsAt (first :: rest) = false ∧
        ∀ character ∈ rest, Cursor.isDelimiter character = false

instance : DecidablePred IsSymbolName
  | [] => .isFalse id
  | first :: rest =>
      decidable_of_iff
        (Text.isBlank first = false ∧ first ≠ ';' ∧ Cursor.StartsWord first rest ∧
          Numeral.startsAt (first :: rest) = false ∧
          rest.all (!Cursor.isDelimiter ·) = true)
        (by simp [IsSymbolName])

/-- The datum can be read from some text. -/
def Datum.Readable : Source → Prop
  | .number (.integer value) => value ≠ Int64.minValue
  | .symbol name => IsSymbolName name.name.toList
  | .pair _ car cdr => car.Readable ∧ cdr.Readable
  | .procedure _ => False
  | _ => True

/-! ## Numerals -/

namespace Numeral

/-- Not the least integer, which is the only one without an opposite. -/
def IsSigned : Number → Prop
  | .integer value => value ≠ Int64.minValue
  | _ => True

/-- Below zero there is nothing. -/
def IsUnsigned : Number → Prop
  | .integer value => 0 ≤ value.toInt
  | _ => True

theorem IsUnsigned.isSigned {number : Number} (isUnsigned : IsUnsigned number) :
    IsSigned number := by
  cases number with
  | integer value =>
      rintro rfl
      have least : ¬0 ≤ Int64.minValue.toInt := by decide
      exact least isUnsigned
  | _ => trivial

theorem IsUnsigned.negate {number : Number} (isUnsigned : IsUnsigned number) :
    IsSigned number.negate := by
  cases number with
  | integer value =>
      intro least
      have same : value = Int64.minValue := by rw [← Int64.neg_neg (a := value), least]; decide
      exact IsUnsigned.isSigned isUnsigned same
  | _ => trivial

theorem wholeNumber_isUnsigned (value : Nat) : IsUnsigned (wholeNumber value) := by
  unfold wholeNumber
  split
  · rename_i fitted found
    have same : fitted.toInt = value := Number.toInt_of_fitInteger? found
    change 0 ≤ fitted.toInt
    omega
  · trivial

theorem unsigned_isUnsigned {text behind : List Char} {number : Number}
    (read : unsigned text = (some number, behind)) : IsUnsigned number := by
  unfold unsigned at read
  split at read
  · dsimp only at read
    split at read
    · cases read
    · cases read
      trivial
  · dsimp only at read
    split at read
    · cases read
    · cases read
      exact wholeNumber_isUnsigned _

theorem overDenominator_isUnsigned {numerator number : Number} {text behind : List Char}
    (isUnsigned : IsUnsigned numerator)
    (read : overDenominator numerator text = (.ok number, behind)) : IsUnsigned number := by
  unfold overDenominator at read
  split at read
  · split at read
    · cases read
      trivial
    · cases read
  · cases read
    exact isUnsigned

theorem withImaginaryPart_isUnsigned {realPart number : Number} {negative : Bool}
    {text behind : List Char}
    (read : withImaginaryPart realPart negative text = (.ok number, behind)) :
    IsUnsigned number := by
  unfold withImaginaryPart at read
  dsimp only at read
  split at read
  · cases read
    trivial
  · cases read

theorem beforeImaginary_isUnsigned {realPart number : Number} {text behind : List Char}
    (isUnsigned : IsUnsigned realPart)
    (read : beforeImaginary realPart text = (.ok number, behind)) : IsUnsigned number := by
  unfold beforeImaginary at read
  split at read
  · exact withImaginaryPart_isUnsigned read
  · exact withImaginaryPart_isUnsigned read
  · cases read
    exact isUnsigned

theorem magnitude_isUnsigned {text behind : List Char} {number : Number}
    (found : magnitude text = (.ok number, behind)) : IsUnsigned number := by
  unfold magnitude at found
  split at found
  · cases found
  · rename_i first rest read
    split at found
    · cases found
    · rename_i second rest' divided
      have isUnsigned := overDenominator_isUnsigned (unsigned_isUnsigned read) divided
      exact beforeImaginary_isUnsigned isUnsigned found

theorem read_isSigned {text behind : List Char} {number : Number}
    (found : read text = (.ok number, behind)) : IsSigned number := by
  unfold read at found
  split at found
  · split at found
    · rename_i positive rest unsigned
      cases found
      exact (magnitude_isUnsigned unsigned).negate
    · cases found
  · exact (magnitude_isUnsigned found).isSigned
  · exact (magnitude_isUnsigned found).isSigned

end Numeral

/-! ## Words -/

namespace Cursor

theorem isSymbolName_takeWhile {first : Char} {rest : List Char}
    (notBlank : Text.isBlank first = false) (notSemicolon : first ≠ ';')
    (starts : StartsWord first rest) (notNumeral : Numeral.startsAt (first :: rest) = false) :
    IsSymbolName (first :: rest.takeWhile (!isDelimiter ·)) := by
  have inside : ∀ character ∈ rest.takeWhile (!isDelimiter ·), isDelimiter character = false := by
    intro character member
    simpa using List.mem_takeWhile_imp member
  -- The character behind the first one is the same, if the symbol has one.
  rcases rest with _ | ⟨second, rest⟩
  · exact ⟨notBlank, notSemicolon, starts, notNumeral, inside⟩
  by_cases delimiter : isDelimiter second
  · have short : (second :: rest).takeWhile (!isDelimiter ·) = [] :=
      List.takeWhile_cons_of_neg (by simpa using delimiter)
    rw [short]
    refine ⟨notBlank, notSemicolon, ⟨starts.1, nofun⟩, ?_, nofun⟩
    simp only [Numeral.startsAt, Bool.or_eq_false_iff] at notNumeral ⊢
    exact notNumeral.1
  · have long : (second :: rest).takeWhile (!isDelimiter ·) =
        second :: rest.takeWhile (!isDelimiter ·) :=
      List.takeWhile_cons_of_pos (by simpa using delimiter)
    rw [long] at inside ⊢
    exact ⟨notBlank, notSemicolon, ⟨starts.1, starts.2⟩, notNumeral, inside⟩

/-- Whatever stands at the cursor, a datum that is complete with it is readable. -/
theorem opening_readable {cursor behind : Cursor} {first : Char} {rest : List Char}
    {datum : Source} (notBlank : Text.isBlank first = false) (notSemicolon : first ≠ ';')
    (opened : cursor.opening first rest = (.ok (.datum datum), behind)) : datum.Readable := by
  unfold opening at opened
  split at opened
  · cases opened
    trivial
  · cases opened
    trivial
  · cases opened
  · cases opened
  · cases opened
  · unfold stringAt at opened
    split at opened
    · cases opened
      trivial
    · cases opened
  · cases opened
  · cases opened
  · split at opened
    · unfold numberAt at opened
      split at opened
      · rename_i number _ read
        cases opened
        have signed := Numeral.read_isSigned read
        cases number <;> exact signed
      · cases opened
    · rename_i notNumeral
      cases opened
      have starts : StartsWord first rest := by cases rest <;> simp_all [StartsWord]
      change IsSymbolName (String.ofList _).toList
      rw [String.toList_ofList]
      exact isSymbolName_takeWhile notBlank notSemicolon starts (by simpa using notNumeral)

end Cursor

/-! ## Readings -/

def Context.Readable : Context → Prop
  | .list reversed => ∀ datum ∈ reversed, datum.Readable
  | .dotted reversed => ∀ datum ∈ reversed, datum.Readable
  | .quote => True

theorem Source.dotted_readable {reversed : List Source} {last : Source}
    (elements : ∀ datum ∈ reversed, datum.Readable) (readable : last.Readable) :
    (Source.dotted reversed last).Readable := by
  induction reversed generalizing last with
  | nil => exact readable
  | cons element reversed induction =>
      have ⟨first, others⟩ := List.forall_mem_cons.mp elements
      exact induction others ⟨first, readable⟩

theorem Source.quoted_readable {datum : Source} (readable : datum.Readable) :
    (Source.quoted datum).Readable := by
  have inside : ['u', 'o', 't', 'e'].all (!Cursor.isDelimiter ·) = true := by decide
  have starts : Cursor.StartsWord 'q' ['u', 'o', 't', 'e'] :=
    ⟨by decide, fun hash => absurd hash (by decide)⟩
  have name : IsSymbolName ['q', 'u', 'o', 't', 'e'] :=
    ⟨by decide, by decide, starts, by decide, by simpa using inside⟩
  exact ⟨name, readable, trivial⟩

namespace Reading

/-- Everything that has been read so far is readable. -/
def Readable : Reading → Prop
  | .unfinished contexts _ => ∀ context ∈ contexts, context.Readable
  | .finished datum _ => datum.Readable
  | .failed _ _ => True

theorem complete_readable {datum : Source} (readable : datum.Readable) (cursor : Cursor)
    {contexts : List Context} (around : ∀ context ∈ contexts, context.Readable) :
    (complete datum cursor contexts).Readable := by
  induction contexts generalizing datum cursor with
  | nil => exact readable
  | cons context outer induction =>
      have ⟨here, others⟩ := List.forall_mem_cons.mp around
      cases context with
      | list reversed =>
          exact List.forall_mem_cons.mpr ⟨List.forall_mem_cons.mpr ⟨readable, here⟩, others⟩
      | quote => exact induction (Source.quoted_readable readable) cursor others
      | dotted reversed =>
          unfold complete
          dsimp only
          split
          · exact induction (Source.dotted_readable here readable) _ others
          · trivial
          · trivial

theorem enter_readable {contexts : List Context}
    (around : ∀ context ∈ contexts, context.Readable) (cursor : Cursor) {first : Char}
    {rest : List Char} (notBlank : Text.isBlank first = false) (notSemicolon : first ≠ ';') :
    (enter contexts cursor first rest).Readable := by
  unfold enter
  split
  · trivial
  · rename_i opened
    exact complete_readable (Cursor.opening_readable notBlank notSemicolon opened) _ around
  · exact List.forall_mem_cons.mpr ⟨nofun, around⟩
  · exact List.forall_mem_cons.mpr ⟨trivial, around⟩

theorem advance_readable {contexts : List Context}
    (around : ∀ context ∈ contexts, context.Readable) (cursor : Cursor) :
    (advance contexts cursor).Readable := by
  unfold advance
  dsimp only
  split
  · trivial
  · have ⟨here, others⟩ := List.forall_mem_cons.mp around
    have nil : Datum.Readable .nil := trivial
    exact complete_readable (Source.dotted_readable here nil) _ others
  · have ⟨here, others⟩ := List.forall_mem_cons.mp around
    exact List.forall_mem_cons.mpr ⟨here, others⟩
  · rename_i found _ _
    have ⟨notBlank, notSemicolon⟩ := Cursor.skipBlanks_head found
    exact enter_readable around _ notBlank notSemicolon

end Reading

namespace Cursor

theorem readWithin_readable {contexts : List Context} {cursor behind : Cursor} {datum : Source}
    (around : ∀ context ∈ contexts, context.Readable)
    (read : cursor.readWithin contexts = (.ok datum, behind)) : datum.Readable := by
  fun_induction readWithin contexts cursor with
  | case1 contexts cursor found between progress =>
      have readable := Reading.advance_readable around cursor
      rw [progress] at readable
      cases read
      exact readable
  | case2 => cases read
  | case3 contexts cursor inner between progress induction =>
      have readable := Reading.advance_readable around cursor
      rw [progress] at readable
      exact induction readable read

theorem next_readable {cursor behind : Cursor} {datum : Source}
    (found : cursor.next = (.ok (some datum), behind)) : datum.Readable := by
  unfold next at found
  dsimp only at found
  split at found
  · cases found
  split at found
  · rename_i read
    cases found
    exact readWithin_readable (by simp) read
  · cases found

theorem first_readable {cursor : Cursor} {datum : Source} (read : cursor.first = .ok datum) :
    datum.Readable := by
  unfold first at read
  split at read
  · rename_i found
    cases read
    exact next_readable found
  · cases read
  · cases read

end Cursor

end SmallScheme
