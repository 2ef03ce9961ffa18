import SmallScheme.Source.Document

namespace SmallScheme

/-! # Rounds of reading

What one round of reading leaves behind decides the rest: a datum or a fault is what is
read, and an unfinished reading goes on from its cursor. -/

namespace Reading

/-- Where a reading has come to. -/
def cursor : Reading → Cursor
  | .unfinished _ cursor => cursor
  | .finished _ cursor => cursor
  | .failed _ cursor => cursor

/-- The same reading from a changed cursor. -/
def map (change : Cursor → Cursor) : Reading → Reading
  | .unfinished contexts cursor => .unfinished contexts (change cursor)
  | .finished datum cursor => .finished datum (change cursor)
  | .failed fault cursor => .failed fault (change cursor)

/-- What a reading comes to in the end. -/
def settle : Reading → Except ReadFault Source × Cursor
  | .unfinished contexts cursor => cursor.readWithin contexts
  | .finished datum cursor => (.ok datum, cursor)
  | .failed fault cursor => (.error fault, cursor)

variable {cursor : Cursor} {reversed : List Source} {outer : List Context} {rest : List Char}

/-- A dotted list is closed behind its last datum. -/
theorem complete_dotted (closing : cursor.skipBlanks.rest = ')' :: rest) (datum : Source) :
    complete datum cursor (.dotted reversed :: outer) =
      complete (Source.dotted reversed datum) { cursor.skipBlanks with rest := rest } outer := by
  simp only [complete, closing]

theorem advance_close (closing : cursor.skipBlanks.rest = ')' :: rest) :
    advance (.list reversed :: outer) cursor =
      complete (Source.ofReversed reversed) { cursor.skipBlanks with rest := rest } outer := by
  simp only [advance, closing]

theorem advance_dot (dot : cursor.skipBlanks.rest = '.' :: rest) (last : Source) :
    advance (.list (last :: reversed) :: outer) cursor =
      .unfinished (.dotted (last :: reversed) :: outer)
        { cursor.skipBlanks with rest := rest } := by
  simp only [advance, dot]

/-- A round closes a list, passes over the dot of a list or starts on a datum. -/
theorem advance_cases (contexts : List Context) (first : Char) :
    (∃ reversed outer, first = ')' ∧ contexts = .list reversed :: outer) ∨
      (∃ last reversed outer, first = '.' ∧ contexts = .list (last :: reversed) :: outer) ∨
      ∀ cursor rest, cursor.skipBlanks.rest = first :: rest →
        advance contexts cursor = enter contexts cursor.skipBlanks first rest := by
  by_cases closes : ∃ reversed outer, first = ')' ∧ contexts = .list reversed :: outer
  · exact .inl closes
  by_cases dots : ∃ last reversed outer, first = '.' ∧ contexts = .list (last :: reversed) :: outer
  · exact .inr (.inl dots)
  refine .inr (.inr fun cursor rest here => ?_)
  simp only [advance, here]
  split
  · simp_all
  · simp_all
  · simp_all
  · rename_i same _ _
    cases same
    rfl

end Reading

/-- The character opens neither a list, a quote, a string nor a constant, and is not at
fault: a numeral or a symbol starts with it. -/
def Cursor.StartsWord (first : Char) (rest : List Char) : Prop :=
  first ∉ ['(', ')', '\'', '"', '.'] ∧
    (first = '#' → ∀ second, rest.head? = some second → second ∉ ['t', 'f', '('])

instance (first : Char) : (rest : List Char) → Decidable (Cursor.StartsWord first rest)
  | [] =>
      decidable_of_iff (first ∉ ['(', ')', '\'', '"', '.']) (by simp [Cursor.StartsWord])
  | second :: _ =>
      decidable_of_iff
        (first ∉ ['(', ')', '\'', '"', '.'] ∧ (first = '#' → second ∉ ['t', 'f', '(']))
        (by simp [Cursor.StartsWord])

theorem Cursor.opening_of_startsWord {first : Char} {rest : List Char}
    (starts : StartsWord first rest) (cursor : Cursor) :
    cursor.opening first rest =
      if Numeral.startsAt (first :: rest) then cursor.numberAt
      else (.ok (cursor.symbolAt first rest).1, (cursor.symbolAt first rest).2) := by
  unfold opening
  split <;> simp_all [StartsWord]

theorem Cursor.readWithin_eq (contexts : List Context) (cursor : Cursor) :
    cursor.readWithin contexts = (Reading.advance contexts cursor).settle := by
  rw [readWithin]
  split <;> rename_i progress <;> rw [progress] <;> rfl

theorem Cursor.next_of_nil {cursor : Cursor} (atEnd : cursor.skipBlanks.rest = []) :
    cursor.next = (.ok none, cursor.skipBlanks) := by
  simp only [next, atEnd, List.isEmpty_nil, if_true]

theorem Cursor.next_of_cons {cursor : Cursor} {first : Char} {rest : List Char}
    (here : cursor.skipBlanks.rest = first :: rest) :
    cursor.next =
      match cursor.skipBlanks.readWithin [] with
      | (.ok datum, behind) => (.ok (some datum), behind)
      | (.error fault, behind) => (.error (behind.fail fault), behind) := by
  have some : ¬cursor.skipBlanks.rest.isEmpty = true := by simp [here]
  exact if_neg some

theorem Document.read_eq (cursor : Cursor) :
    read cursor =
      match cursor.next with
      | (.ok none, behind) => ⟨[], none, behind⟩
      | (.error error, behind) => ⟨[], some error, behind⟩
      | (.ok (some datum), behind) =>
          ⟨datum :: (read behind).data, (read behind).failure, (read behind).final⟩ := by
  rw [read]
  split <;> rename_i found <;> rw [found]

end SmallScheme
