import SmallScheme.Proofs.Literals.Integers

namespace SmallScheme

/-! # Written forms that are cut short

A list or a string that is cut short is never read as a datum, wherever the cut falls: the
end of the text is met too early, or a string is not closed. What is left of the last word
before the cut is read as a word of its own, in the list that is still open around it. -/

/-- The written form ends with the parenthesis or the quote that closes it. -/
def Datum.isDelimited {ι : Type} : Datum ι → Bool
  | .nil => true
  | .string .. => true
  | .pair .. => true
  | _ => false

/-- The faults of a text that ends too early. -/
def ReadFault.isShortfall : ReadFault → Bool
  | .unexpectedEnd => true
  | .unterminatedString => true
  | _ => false

/-! ## Cuts -/

/-- A start of a text that is not all of it. -/
def IsCut (part whole : List Char) : Prop :=
  part <+: whole ∧ part ≠ whole

namespace IsCut

variable {part front back whole : List Char} {first : Char}

theorem cons_cases (cut : IsCut part (first :: whole)) :
    part = [] ∨ ∃ rest, part = first :: rest ∧ IsCut rest whole := by
  rcases List.prefix_cons_iff.mp cut.1 with nothing | ⟨rest, rfl, start⟩
  · exact .inl nothing
  · exact .inr ⟨rest, rfl, start, fun same => cut.2 (congrArg (first :: ·) same)⟩

/-- A cut falls into the front or behind it. -/
theorem append_cases (start : part <+: front ++ back) :
    IsCut part front ∨ ∃ rest, part = front ++ rest ∧ rest <+: back := by
  rcases List.prefix_or_prefix_of_prefix start (List.prefix_append front back) with within | beyond
  · by_cases same : part = front
    · exact .inr ⟨[], by rw [same, List.append_nil], List.nil_prefix⟩
    · exact .inl ⟨within, same⟩
  · rcases beyond with ⟨rest, rfl⟩
    exact .inr ⟨rest, rfl, (List.prefix_append_right_inj front).mp start⟩

theorem of_append (cut : IsCut part (front ++ back)) :
    IsCut part front ∨ ∃ rest, part = front ++ rest ∧ IsCut rest back := by
  rcases append_cases cut.1 with within | ⟨rest, rfl, start⟩
  · exact .inl within
  · exact .inr ⟨rest, rfl, start, fun same => cut.2 (by rw [same])⟩

theorem singleton (cut : IsCut part [first]) : part = [] := by
  rcases cut.cons_cases with nothing | ⟨rest, rfl, start, proper⟩
  · exact nothing
  · exact absurd (List.prefix_nil.mp start) proper

end IsCut

/-- What ends a word does so also if it is cut. -/
theorem EndsWord.of_isPrefix {part whole : List Char} (ends : EndsWord whole)
    (start : part <+: whole) : EndsWord part := by
  cases ends with
  | nil =>
      rw [List.prefix_nil.mp start]
      exact .nil
  | blank rest =>
      rcases List.prefix_cons_iff.mp start with rfl | ⟨_, rfl, _⟩
      · exact .nil
      · exact .blank _
  | closing rest =>
      rcases List.prefix_cons_iff.mp start with rfl | ⟨_, rfl, _⟩
      · exact .nil
      · exact .closing _

/-! ## Texts that end too early -/

namespace Reading

/-- The text ends before the reading does. -/
def FallsShort (reading : Reading) : Prop :=
  ∃ fault behind, reading.settle = (.error fault, behind) ∧ fault.isShortfall = true

theorem fallsShort_atEnd (contexts : List Context) (source : String) (line : Nat) :
    FallsShort (.unfinished contexts ⟨source, line, []⟩) := by
  refine ⟨.unexpectedEnd, ⟨source, line, []⟩, ?_, rfl⟩
  rw [settle, Cursor.readWithin_eq]
  rfl

end Reading

/-- In the contexts, the text ends before a datum does. -/
def EndsEarly (contexts : List Context) (text : List Char) : Prop :=
  ∀ source line, (Reading.unfinished contexts ⟨source, line, text⟩).FallsShort

/-- The innermost context is a list. -/
inductive InList : List Context → Prop
  | list (reversed : List Source) (outer : List Context) : InList (.list reversed :: outer)
  | dotted (reversed : List Source) (outer : List Context) : InList (.dotted reversed :: outer)

/-- With a datum at the end of the text, the list around it is not complete. -/
theorem InList.fallsShort_complete {contexts : List Context} (inList : InList contexts)
    (datum : Source) (source : String) (line : Nat) :
    (Reading.complete datum ⟨source, line, []⟩ contexts).FallsShort := by
  cases inList with
  | list reversed outer => exact Reading.fallsShort_atEnd _ _ _
  | dotted reversed outer => exact ⟨.unexpectedEnd, ⟨source, line, []⟩, rfl, rfl⟩

namespace EndsEarly

variable {contexts outer : List Context} {text : List Char} {reversed : List Source}

theorem nil (contexts : List Context) : EndsEarly contexts [] :=
  fun source line => Reading.fallsShort_atEnd contexts source line

/-- A text can be replaced by one that is read in the same way. -/
theorem of_eq {inner : List Context} {rest : List Char} (early : EndsEarly inner rest)
    (same : ∀ source line, Cursor.readWithin contexts ⟨source, line, text⟩ =
      Cursor.readWithin inner ⟨source, line, rest⟩) : EndsEarly contexts text := by
  intro source line
  rcases early source line with ⟨fault, behind, settles, shortfall⟩
  exact ⟨fault, behind, (same source line).trans settles, shortfall⟩

/-- A text is cut before its first character or behind it. -/
theorem of_cut {first : Char} {part : List Char} (cut : IsCut part (first :: text))
    (behind : ∀ rest, IsCut rest text → EndsEarly contexts (first :: rest)) :
    EndsEarly contexts part := by
  rcases cut.cons_cases with rfl | ⟨rest, rfl, further⟩
  · exact nil contexts
  · exact behind rest further

theorem blank (early : EndsEarly contexts text) : EndsEarly contexts (' ' :: text) :=
  early.of_eq fun _ _ => Cursor.readWithin_blank

theorem opening (early : EndsEarly (.list [] :: contexts) text) :
    EndsEarly contexts ('(' :: text) :=
  early.of_eq fun _ _ => Cursor.readWithin_list

theorem dot {last : Source} (early : EndsEarly (.dotted (last :: reversed) :: outer) text) :
    EndsEarly (.list (last :: reversed) :: outer) ('.' :: text) :=
  early.of_eq fun _ _ => Cursor.readWithin_dot last reversed

/-- A datum that is read in a list is one more element of it. -/
theorem element {datum : Source} (readsBack : datum.ReadsBack) (ends : EndsWord text)
    (early : EndsEarly (.list (datum :: reversed) :: outer) text) :
    EndsEarly (.list reversed :: outer) (datum.written ++ text) :=
  early.of_eq fun source line => readsBack source line (.list reversed :: outer) text ends

/-- A list is not complete with its last datum. -/
theorem complete {datum : Source} (readsBack : datum.ReadsBack) (inList : InList contexts) :
    EndsEarly contexts (datum.written ++ []) := by
  intro source line
  rcases inList.fallsShort_complete datum source line with ⟨fault, behind, settles, shortfall⟩
  exact ⟨fault, behind, (readsBack source line contexts [] .nil).trans settles, shortfall⟩

end EndsEarly

/-! ## Words -/

/-- All of the text is read as one word. -/
def IsWord (text : List Char) : Prop :=
  ∃ first rest, text = first :: rest ∧ Text.isBlank first = false ∧ first ∉ [';', ')', '.'] ∧
    ∀ source line, ∃ datum,
      Cursor.opening ⟨source, line, first :: rest⟩ first rest =
        (.ok (.datum datum), ⟨source, line, []⟩)

theorem IsWord.endsEarly {text : List Char} (isWord : IsWord text) {contexts : List Context}
    (inList : InList contexts) : EndsEarly contexts text := by
  rcases isWord with ⟨first, rest, rfl, notBlank, notSpecial, opens⟩
  intro source line
  rcases opens source line with ⟨datum, opened⟩
  rcases inList.fallsShort_complete datum source line with ⟨fault, behind, settles, shortfall⟩
  refine ⟨fault, behind, ?_, shortfall⟩
  rw [Reading.settle, Cursor.readWithin_enter notBlank notSpecial, Reading.enter, opened]
  exact settles

theorem Datum.IsAtom.isWord {datum : Source} (atom : datum.IsAtom) : IsWord datum.written := by
  rcases atom with ⟨first, rest, same, notBlank, notSpecial, opens⟩
  refine ⟨first, rest, same, notBlank, notSpecial, fun source line => ⟨datum, ?_⟩⟩
  have opened := opens source line [] .nil
  rwa [List.append_nil] at opened

/-- A numeral that goes to the end of the text is a word. -/
theorem isWord_of_numeral {text : List Char} {number : Number}
    (starts : Numeral.startsAt text = true) (read : Numeral.read text = (.ok number, [])) :
    IsWord text := by
  rcases Numeral.first_of_startsAt starts with ⟨first, rest, rfl, notBlank, notSemicolon, word⟩
  have notSpecial := word.1
  refine ⟨first, rest, rfl, notBlank, by simp_all, fun source line => ⟨.number number, ?_⟩⟩
  rw [Cursor.opening_of_startsWord word, if_pos starts]
  simp only [Cursor.numberAt, read]

/-- Digits, with or without a sign, are a word. -/
theorem isWord_of_digits {marks digits : List Char} (isSign : marks ∈ Literal.optional Literal.sign)
    (nonempty : digits ≠ []) (isDigits : ∀ character ∈ digits, character.isDigit = true) :
    IsWord (marks ++ digits) := by
  have whole := Numeral.magnitude_of_digits nonempty isDigits
  rcases List.exists_cons_of_ne_nil nonempty with ⟨first, rest, rfl⟩
  have digit := isDigits first List.mem_cons_self
  have read := Numeral.read_sign isSign digit rest
  rw [whole] at read
  exact isWord_of_numeral (Numeral.startsAt_of_sign isSign digit rest) read

theorem isWord_of_isSymbolName {name : List Char} (isName : IsSymbolName name) : IsWord name := by
  have atom : Datum.IsAtom (.symbol ⟨String.ofList name⟩) :=
    Datum.symbol_isAtom (by rwa [String.toList_ofList])
  have written : Datum.written (.symbol ⟨String.ofList name⟩ : Source) = name :=
    String.toList_ofList
  rw [← written]
  exact atom.isWord

/-- The start of a name is a name. -/
theorem IsSymbolName.of_isPrefix {name part : List Char} (isName : IsSymbolName name)
    (start : part <+: name) (nonempty : part ≠ []) : IsSymbolName part := by
  rcases List.exists_cons_of_ne_nil nonempty with ⟨first, rest, rfl⟩
  rcases start with ⟨behind, rfl⟩
  rcases isName with ⟨notBlank, notSemicolon, starts, notNumeral, inside⟩
  have undelimited : ∀ character ∈ rest, Cursor.isDelimiter character = false :=
    fun character member => inside character (List.mem_append_left behind member)
  -- The second character decides, and a start with two characters has the same second one.
  cases rest with
  | nil =>
      refine ⟨notBlank, notSemicolon, ⟨starts.1, fun _ _ none => by cases none⟩, ?_, undelimited⟩
      cases behind with
      | nil => exact notNumeral
      | cons second behind =>
          change (first.isDigit || _) = false at notNumeral
          exact (Bool.or_eq_false_iff.mp notNumeral).1
  | cons second rest =>
      exact ⟨notBlank, notSemicolon, ⟨starts.1, starts.2⟩, notNumeral, undelimited⟩

/-! ## Atoms -/

namespace Datum

/-- In the contexts, the written form falls short wherever it is cut. -/
def CutIn (datum : Source) (contexts : List Context) : Prop :=
  ∀ part, IsCut part datum.written → EndsEarly contexts part

/-- In a list with elements, so does the rest of the written form. -/
def RestCut (datum : Source) : Prop :=
  ∀ part, IsCut part datum.writtenRest → ∀ last reversed outer,
    EndsEarly (.list (last :: reversed) :: outer) part

variable {contexts : List Context}

theorem boolean_cutIn (value : Bool) (inList : InList contexts) :
    CutIn (.boolean value) contexts := by
  intro part cut
  have written : ∃ letter, (boolean value : Source).written = ['#', letter] := by
    cases value
    · exact ⟨'f', rfl⟩
    · exact ⟨'t', rfl⟩
  rcases written with ⟨letter, written⟩
  rw [written] at cut
  apply EndsEarly.of_cut cut
  intro rest further
  rw [further.singleton]
  have hash : IsSymbolName ['#'] := by decide
  exact (isWord_of_isSymbolName hash).endsEarly inList

theorem symbol_cutIn {name : Symbol} (isName : IsSymbolName name.name.toList)
    (inList : InList contexts) : CutIn (.symbol name) contexts := by
  intro part cut
  by_cases nonempty : part = []
  · rw [nonempty]
    exact .nil contexts
  · exact (isWord_of_isSymbolName (isName.of_isPrefix cut.1 nonempty)).endsEarly inList

/-- A start of digits is made of digits. -/
theorem endsEarly_of_digits {digits part : List Char}
    (isDigits : ∀ character ∈ digits, character.isDigit = true) (start : part <+: digits)
    (inList : InList contexts) : EndsEarly contexts part := by
  by_cases nonempty : part = []
  · rw [nonempty]
    exact .nil contexts
  · have word := isWord_of_digits (Literal.nil_mem_optional _) nonempty
      fun character member => isDigits character (start.mem member)
    exact word.endsEarly inList

theorem integer_cutIn (value : Int64) (inList : InList contexts) :
    CutIn (.number (.integer value)) contexts := by
  intro part cut
  have written : (number (.integer value) : Source).written =
      (Number.integerText value.toInt).toList := rfl
  rw [written] at cut
  cases same : value.toInt with
  | ofNat whole =>
      rw [same, Number.integerText, Number.digitsText, String.toList_ofList] at cut
      exact endsEarly_of_digits (Numeral.isDigit_of_mem_toDigits whole) cut.1 inList
  | negSucc below =>
      have signed : (Number.integerText (.negSucc below)).toList =
          '-' :: Nat.toDigits 10 (below + 1) := by
        simp [Number.integerText, Number.digitsText]
      rw [same, signed] at cut
      have digits := Numeral.isDigit_of_mem_toDigits (below + 1)
      apply EndsEarly.of_cut cut
      intro rest further
      by_cases nonempty : rest = []
      · rw [nonempty]
        have minus : IsSymbolName ['-'] := by decide
        exact (isWord_of_isSymbolName minus).endsEarly inList
      · have isSign : ['-'] ∈ Literal.optional Literal.sign := .inr (.inr rfl)
        have word := isWord_of_digits isSign nonempty
          fun character member => digits character (further.1.mem member)
        exact word.endsEarly inList

/-! Strings are not closed, in whatever contexts they are. -/

/-- What is escaped is cut before it or behind its backslash. -/
theorem inString_cut {character : Char} {part : List Char}
    (cut : IsCut part (Text.inString character).toList) : part = [] ∨ part = ['\\'] := by
  have escaped {letter : Char} (cut : IsCut part ['\\', letter]) :
      part = [] ∨ part = ['\\'] := by
    rcases cut.cons_cases with nothing | ⟨rest, rfl, further⟩
    · exact .inl nothing
    · rw [further.singleton]
      exact .inr rfl
  unfold Text.inString at cut
  split at cut
  · exact escaped cut
  · exact escaped cut
  · exact escaped cut
  · exact escaped cut
  · rw [Char.toString_eq_singleton, String.toList_singleton] at cut
    exact .inl cut.singleton

/-- A cut through escaped contents leaves the string open. -/
theorem stringContents_cut {contents part : List Char}
    (start : part <+: contents.flatMap (Text.inString · |>.toList)) (reversed : List Char)
    (line : Nat) :
    Cursor.stringContents reversed line part = (none, line, []) := by
  induction contents generalizing part reversed with
  | nil =>
      rw [List.prefix_nil.mp start]
      rfl
  | cons character contents induction =>
      rw [List.flatMap_cons] at start
      rcases IsCut.append_cases start with cut | ⟨rest, rfl, further⟩
      · rcases inString_cut cut with rfl | rfl
        · rfl
        · rfl
      · rw [stringContents_escape]
        exact induction further _

theorem string_cutIn (contents : String) (contexts : List Context) :
    CutIn (.string () contents) contexts := by
  intro part cut
  have written : (string () contents : Source).written = _ := Text.toList_quoted _ contents
  rw [written] at cut
  apply EndsEarly.of_cut cut
  intro rest further
  have start : rest <+: contents.toList.flatMap (Text.inString · |>.toList) :=
    (List.prefix_concat_iff.mp further.1).resolve_left further.2
  intro source line
  have opened : Cursor.opening ⟨source, line, '"' :: rest⟩ '"' rest =
      (.error .unterminatedString, ⟨source, line, []⟩) := by
    change Cursor.stringAt _ rest = _
    simp only [Cursor.stringAt, stringContents_cut start]
  refine ⟨.unterminatedString, ⟨source, line, []⟩, ?_, rfl⟩
  rw [Reading.settle, Cursor.readWithin_enter (by decide) (by decide), Reading.enter, opened]
  rfl

/-! ## Lists -/

theorem nil_cutIn (contexts : List Context) : CutIn .nil contexts := by
  intro part cut
  apply EndsEarly.of_cut cut
  intro rest further
  rw [IsCut.singleton further]
  exact .opening (.nil _)

theorem nil_restCut : RestCut .nil := by
  intro part cut last reversed outer
  rw [IsCut.singleton cut]
  exact .nil _

/-- The elements of a list fall short wherever they are cut: in the first one or behind it. -/
theorem elements_cut {car cdr : Source} (readsBack : car.ReadsBack)
    (first : ∀ contexts, InList contexts → car.CutIn contexts) (rest : cdr.RestCut)
    {part : List Char} (cut : IsCut part (car.written ++ cdr.writtenRest))
    (reversed : List Source) (outer : List Context) :
    EndsEarly (.list reversed :: outer) part := by
  rcases cut.of_append with within | ⟨behind, rfl, further⟩
  · exact first _ (.list reversed outer) part within
  · have ends : EndsWord behind := .of_isPrefix (.of_writtenRest cdr []) (by
      rw [List.append_nil]
      exact further.1)
    exact .element readsBack ends (rest behind further car reversed outer)

theorem pair_cutIn {car cdr : Source} (readsBack : car.ReadsBack)
    (first : ∀ contexts, InList contexts → car.CutIn contexts) (rest : cdr.RestCut)
    (contexts : List Context) : CutIn (.pair () car cdr) contexts := by
  intro part cut
  rw [written] at cut
  apply EndsEarly.of_cut cut
  intro behind further
  exact .opening (elements_cut readsBack first rest further [] contexts)

theorem pair_restCut {car cdr : Source} (readsBack : car.ReadsBack)
    (first : ∀ contexts, InList contexts → car.CutIn contexts) (rest : cdr.RestCut) :
    RestCut (.pair () car cdr) := by
  intro part cut last reversed outer
  rw [writtenRest] at cut
  apply EndsEarly.of_cut cut
  intro behind further
  exact .blank (elements_cut readsBack first rest further (last :: reversed) outer)

/-- The last datum of a dotted list falls short in it, also if only the closing parenthesis
is missing. -/
theorem restCut_of_dotted {datum : Source} (readsBack : datum.ReadsBack)
    (inLists : ∀ contexts, InList contexts → datum.CutIn contexts)
    (dotted : datum.writtenRest = ' ' :: '.' :: ' ' :: (datum.written ++ [')'])) :
    datum.RestCut := by
  intro part cut last reversed outer
  have inList : InList (.dotted (last :: reversed) :: outer) := .dotted _ _
  rw [dotted] at cut
  apply EndsEarly.of_cut cut
  intro first behindBlank
  apply EndsEarly.blank
  apply EndsEarly.of_cut behindBlank
  intro second behindDot
  apply EndsEarly.dot
  apply EndsEarly.of_cut behindDot
  intro third behindBlanks
  apply EndsEarly.blank
  rcases behindBlanks.of_append with within | ⟨rest, rfl, further⟩
  · exact inLists _ inList third within
  · rw [further.singleton]
    exact .complete readsBack inList

/-- Words fall short only in lists. -/
theorem cuts_of_isAtom {datum : Source} (isAtom : datum.IsAtom)
    (undelimited : datum.isDelimited = false)
    (inLists : ∀ contexts, InList contexts → datum.CutIn contexts)
    (dotted : datum.writtenRest = ' ' :: '.' :: ' ' :: (datum.written ++ [')'])) :
    (∀ contexts, InList contexts ∨ datum.isDelimited = true → datum.CutIn contexts) ∧
      datum.RestCut := by
  refine ⟨fun contexts either => inLists contexts (either.resolve_right ?_),
    restCut_of_dotted isAtom.readsBack inLists dotted⟩
  rw [undelimited]
  exact Bool.false_ne_true

/-- A datum that is read back falls short wherever its written form is cut: in lists, and
anywhere if it is delimited. -/
theorem cutIn_and_restCut {datum : Source} (readable : datum.Readable)
    (isExact : datum.isExact = true) :
    (∀ contexts, InList contexts ∨ datum.isDelimited = true → datum.CutIn contexts) ∧
      datum.RestCut := by
  induction datum with
  | nil => exact ⟨fun contexts _ => nil_cutIn contexts, nil_restCut⟩
  | boolean value =>
      exact cuts_of_isAtom (boolean_isAtom value) rfl (fun _ => boolean_cutIn value) rfl
  | number value =>
      cases value with
      | integer value =>
          exact cuts_of_isAtom (integer_isAtom readable) rfl (fun _ => integer_cutIn value) rfl
      | _ => cases isExact
  | symbol name =>
      exact cuts_of_isAtom (symbol_isAtom readable) rfl (fun _ => symbol_cutIn readable) rfl
  | string place contents =>
      have anywhere (contexts : List Context) := string_cutIn contents contexts
      have readsBack := (string_isAtom contents).readsBack
      exact ⟨fun contexts _ => anywhere contexts,
        restCut_of_dotted readsBack (fun contexts _ => anywhere contexts) rfl⟩
  | pair place car cdr carInduction cdrInduction =>
      simp only [Datum.isExact, Bool.and_eq_true] at isExact
      have readsBack := (readsBack readable.1 isExact.1).1
      have first (contexts : List Context) (inList : InList contexts) : car.CutIn contexts :=
        (carInduction readable.1 isExact.1).1 contexts (.inl inList)
      have rest := (cdrInduction readable.2 isExact.2).2
      exact ⟨fun contexts _ => pair_cutIn readsBack first rest contexts,
        pair_restCut readsBack first rest⟩
  | procedure callee => exact readable.elim

end Datum

/-- A text that ends early outside of all lists has no first datum. -/
theorem EndsEarly.first {text : String} (early : EndsEarly [] text.toList) (source : String) :
    ∃ error, (Cursor.start source text).first = .error error ∧
      error.fault.isShortfall = true := by
  rcases early source 1 with ⟨fault, behind, settles, shortfall⟩
  have read := (Cursor.readWithin_skipBlanks [] (Cursor.start source text)).trans settles
  cases here : (Cursor.start source text).skipBlanks.rest with
  | nil =>
      refine ⟨(Cursor.start source text).skipBlanks.fail .unexpectedEnd, ?_, rfl⟩
      simp only [Cursor.first, Cursor.next_of_nil here]
  | cons character rest =>
      refine ⟨behind.fail fault, ?_, shortfall⟩
      simp only [Cursor.first, Cursor.next_of_cons here, read]

theorem ReadFault.isShortfall_iff (fault : ReadFault) :
    fault.isShortfall = true ↔ fault = .unexpectedEnd ∨ fault = .unterminatedString := by
  cases fault <;> simp [isShortfall]

/-- Whatever is read from a text, if it has only exact numbers in it and is a list or a string,
falls short wherever its written form is cut, be it before its first character. -/
theorem cut_text_falls_short {cursor behind : Cursor} {datum : Source}
    (read : cursor.next = (.ok (some datum), behind)) (isExact : datum.isExact = true)
    (isDelimited : datum.isDelimited = true) (place : Place) {part : String}
    (start : part.toList <+: (Value.place place datum).1.text.toList)
    (proper : part ≠ (Value.place place datum).1.text) (source : String) :
    ∃ error, (Cursor.start source part).first = .error error ∧
      (error.fault = .unexpectedEnd ∨ error.fault = .unterminatedString) := by
  have readable := Cursor.next_readable read
  have written : (Value.place place datum).1.text.toList = datum.written := by
    rw [Datum.toList_text, (datum.written_place place).1]
  have cut : IsCut part.toList datum.written := by
    refine ⟨written ▸ start, fun same => proper ?_⟩
    exact String.toList_injective (same.trans written.symm)
  have cutIn := (Datum.cutIn_and_restCut readable isExact).1 [] (.inr isDelimited)
  rcases (cutIn _ cut).first source with ⟨error, failed, shortfall⟩
  exact ⟨error, failed, error.fault.isShortfall_iff.mp shortfall⟩

/-- Cut behind the backslash of a string in a list, and behind the sign of its last datum. -/
theorem cut_text_falls_short_nested :
    let text := "(a \"\\\"\" . -7)"
    ∃ datum behind, (Cursor.start "a" text).next = (.ok (some datum), behind) ∧
      datum.isExact = true ∧ datum.isDelimited = true ∧ (Value.place 0 datum).1.text = text ∧
      (∃ error, (Cursor.start "b" "(a \"\\").first = .error error ∧
        (error.fault = .unexpectedEnd ∨ error.fault = .unterminatedString)) ∧
      ∃ error, (Cursor.start "b" "(a \"\\\"\" . -").first = .error error ∧
        (error.fault = .unexpectedEnd ∨ error.fault = .unterminatedString) := by
  intro text
  let datum : Source :=
    .pair () (.symbol ⟨"a"⟩) (.pair () (.string () "\"") (.number (.integer (-7))))
  have read : (Cursor.start "a" text).next = (.ok (some datum), ⟨"a", 1, []⟩) := by cbv
  have isExact : datum.isExact = true := by decide
  have same : (Value.place 0 datum).1.text = text := by cbv
  have inString := @cut_text_falls_short _ _ datum read isExact rfl 0 "(a \"\\"
    (by rw [same]; decide) (by rw [same]; decide) "b"
  have behindSign := @cut_text_falls_short _ _ datum read isExact rfl 0 "(a \"\\\"\" . -"
    (by rw [same]; decide) (by rw [same]; decide) "b"
  exact ⟨datum, _, read, isExact, rfl, same, inString, behindSign⟩

end SmallScheme
