import SmallScheme.Source.Cursor

namespace SmallScheme

/-! Reading of data. Lists and quotes that have been opened and not yet closed
are kept as a stack of contexts, so nesting of any depth is read by one loop.
Every round of it takes at least one character. -/

/-- An open list or quote around the cursor. -/
inductive Context where
  /-- Elements so far, the last one first. -/
  | list (reversed : List Source)
  /-- The dot has been passed, and the last datum is due. -/
  | dotted (reversed : List Source)
  | quote

/-- How far the reading of one datum has come. -/
inductive Reading where
  | unfinished (contexts : List Context) (cursor : Cursor)
  | finished (datum : Source) (cursor : Cursor)
  | failed (fault : ReadFault) (cursor : Cursor)

namespace Reading

/-- Hands a complete datum to the innermost context. A quote is complete with
it; so is a dotted list, once its closing parenthesis follows. -/
def complete (datum : Source) (cursor : Cursor) : List Context → Reading
  | [] => .finished datum cursor
  | .list reversed :: outer => .unfinished (.list (datum :: reversed) :: outer) cursor
  | .quote :: outer => complete (Source.quoted datum) cursor outer
  | .dotted reversed :: outer =>
      let cursor := cursor.skipBlanks
      match cursor.rest with
      | ')' :: rest =>
          complete (Source.dotted reversed datum) { cursor with rest := rest } outer
      | character :: _ => .failed (.unexpectedCharacter character) cursor
      | [] => .failed .unexpectedEnd cursor

/-- Reads an atom, or opens a list or a quote. -/
def enter (contexts : List Context) (cursor : Cursor) (first : Char) (rest : List Char) :
    Reading :=
  match cursor.opening first rest with
  | (.error fault, cursor) => .failed fault cursor
  | (.ok (.datum datum), cursor) => complete datum cursor contexts
  | (.ok .list, cursor) => .unfinished (.list [] :: contexts) cursor
  | (.ok .quote, cursor) => .unfinished (.quote :: contexts) cursor

/-- One round: what stands at the next character that is not blank. -/
def advance (contexts : List Context) (cursor : Cursor) : Reading :=
  let cursor := cursor.skipBlanks
  match cursor.rest, contexts with
  | [], _ => .failed .unexpectedEnd cursor
  | ')' :: rest, .list reversed :: outer =>
      complete (Source.ofReversed reversed) { cursor with rest := rest } outer
  | '.' :: rest, .list (last :: before) :: outer =>
      .unfinished (.dotted (last :: before) :: outer) { cursor with rest := rest }
  | first :: rest, contexts => enter contexts cursor first rest

/-! ## Reading moves on -/

/-- The text that is left. -/
def rest : Reading → List Char
  | .unfinished _ cursor => cursor.rest
  | .finished _ cursor => cursor.rest
  | .failed _ cursor => cursor.rest

/-- Only a failure may leave the text as it was. -/
def isFailure : Reading → Bool
  | .failed .. => true
  | _ => false

theorem complete_length_le (datum : Source) (cursor : Cursor) (contexts : List Context) :
    (complete datum cursor contexts).rest.length ≤ cursor.rest.length := by
  induction contexts generalizing datum cursor with
  | nil => exact Nat.le_refl _
  | cons context outer induction =>
      cases context with
      | list reversed => exact Nat.le_refl _
      | quote => exact induction _ _
      | dotted reversed =>
          have bound := cursor.skipBlanks_length_le
          unfold complete
          dsimp only
          split
          · rename_i found
            rw [found, List.length_cons] at bound
            exact Nat.le_trans (induction _ _) (by dsimp only; omega)
          · exact bound
          · exact bound

theorem enter_length_lt {contexts : List Context} {cursor : Cursor} {first : Char}
    {rest : List Char} (here : cursor.rest = first :: rest)
    (success : (enter contexts cursor first rest).isFailure = false) :
    (enter contexts cursor first rest).rest.length < cursor.rest.length := by
  unfold enter at success ⊢
  split
  · rename_i read
    rw [read] at success
    simp [isFailure] at success
  · rename_i read
    exact Nat.lt_of_le_of_lt (complete_length_le _ _ _) (Cursor.opening_length_lt here read)
  · rename_i read
    exact Cursor.opening_length_lt here read
  · rename_i read
    exact Cursor.opening_length_lt here read

/-- Every round that does not fail takes at least one character. -/
theorem advance_length_lt {contexts : List Context} {cursor : Cursor}
    (success : (advance contexts cursor).isFailure = false) :
    (advance contexts cursor).rest.length < cursor.rest.length := by
  have bound := cursor.skipBlanks_length_le
  unfold advance at success ⊢
  dsimp only at success ⊢
  split
  · rename_i found
    rw [found] at success
    simp [isFailure] at success
  · rename_i found
    rw [found, List.length_cons] at bound
    exact Nat.lt_of_le_of_lt (complete_length_le _ _ _) (by dsimp only; omega)
  · rename_i found
    rw [found, List.length_cons] at bound
    dsimp only [rest]
    omega
  · rename_i found _ _
    rw [found] at success
    exact Nat.lt_of_lt_of_le (enter_length_lt found (by split at success <;> simp_all)) bound

theorem advance_unfinished_length_lt {contexts inner : List Context} {cursor behind : Cursor}
    (progress : advance contexts cursor = .unfinished inner behind) :
    behind.rest.length < cursor.rest.length := by
  have shorter := @advance_length_lt contexts cursor (by rw [progress]; rfl)
  rwa [progress] at shorter

theorem advance_finished_length_lt {contexts : List Context} {cursor behind : Cursor}
    {datum : Source} (progress : advance contexts cursor = .finished datum behind) :
    behind.rest.length < cursor.rest.length := by
  have shorter := @advance_length_lt contexts cursor (by rw [progress]; rfl)
  rwa [progress] at shorter

end Reading

end SmallScheme
