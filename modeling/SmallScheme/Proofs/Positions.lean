import SmallScheme.Proofs.Lines

namespace SmallScheme

/-! # Positions

Reading only goes forward. Whatever a text holds, and however often it is asked for the next
datum, the cursor stands at some position of the text; a datum takes at least one character,
and a call that finds none has come to the end. So every call ends, and a text has no more
data than characters. -/

/-! ## Blanks and comments -/

/-- Nothing but blanks and comments. A comment goes from a semicolon to the end of its line,
or to that of the text. -/
inductive Ignored : List Char → Prop
  | nil : Ignored []
  | blank {character : Char} {text : List Char} :
      Text.isBlank character = true → Ignored text → Ignored (character :: text)
  | comment {inside text : List Char} :
      '\n' ∉ inside → Ignored text → Ignored (';' :: (inside ++ '\n' :: text))
  | lastComment {inside : List Char} : '\n' ∉ inside → Ignored (';' :: inside)

namespace Ignored

variable {character : Char} {text : List Char}

theorem blank_iff (isBlank : Text.isBlank character = true) :
    Ignored (character :: text) ↔ Ignored text := by
  constructor
  · intro ignored
    cases ignored with
    | blank _ rest => exact rest
    | comment => exact absurd isBlank (by decide)
    | lastComment => exact absurd isBlank (by decide)
  · exact .blank isBlank

theorem not_of_other (notBlank : Text.isBlank character = false) (notSemicolon : character ≠ ';') :
    ¬Ignored (character :: text) := by
  intro ignored
  cases ignored with
  | blank isBlank => rw [notBlank] at isBlank; cases isBlank
  | comment => exact notSemicolon rfl
  | lastComment => exact notSemicolon rfl

/-- A line feed ends a comment. -/
theorem lineFeed_iff : Ignored (';' :: '\n' :: text) ↔ Ignored text := by
  constructor
  · intro ignored
    generalize same : '\n' :: text = rest at ignored
    cases ignored with
    | blank isBlank => exact absurd isBlank (by decide)
    | @comment inside more outside ignored =>
        cases inside with
        | nil =>
            cases same
            exact ignored
        | cons first inside =>
            cases same
            simp at outside
    | lastComment outside => simp [← same] at outside
  · intro ignored
    exact @comment [] text List.not_mem_nil ignored

/-- Any other character in a comment is passed over. -/
theorem inside_iff (sameLine : character ≠ '\n') :
    Ignored (';' :: character :: text) ↔ Ignored (';' :: text) := by
  constructor
  · intro ignored
    generalize same : character :: text = rest at ignored
    cases ignored with
    | blank isBlank => exact absurd isBlank (by decide)
    | @comment inside more outside ignored =>
        cases inside with
        | nil =>
            cases same
            exact absurd rfl sameLine
        | cons first inside =>
            cases same
            exact .comment (fun member => outside (List.mem_cons_of_mem _ member)) ignored
    | lastComment outside =>
        subst same
        exact .lastComment fun member => outside (List.mem_cons_of_mem _ member)
  · intro ignored
    generalize same : text = rest at ignored
    cases ignored with
    | blank isBlank => exact absurd isBlank (by decide)
    | @comment inside more outside ignored =>
        rw [← List.cons_append]
        exact .comment (List.not_mem_cons_of_ne_of_not_mem (Ne.symm sameLine) outside) ignored
    | lastComment outside =>
        exact .lastComment (List.not_mem_cons_of_ne_of_not_mem (Ne.symm sameLine) outside)

end Ignored

namespace Cursor

theorem skip_eq_nil_iff (comment : Bool) (line : Nat) (text : List Char) :
    (skip comment line text).2 = [] ↔ Ignored (if comment then ';' :: text else text) := by
  induction text generalizing comment line with
  | nil =>
      cases comment with
      | false => exact iff_of_true rfl .nil
      | true => exact iff_of_true rfl (.lastComment List.not_mem_nil)
  | cons character text induction =>
      unfold skip
      by_cases lineFeed : character = '\n'
      · subst lineFeed
        rw [if_pos rfl, induction]
        cases comment with
        | false => exact (Ignored.blank_iff (by decide)).symm
        | true => exact Ignored.lineFeed_iff.symm
      rw [if_neg lineFeed]
      cases comment with
      | true =>
          rw [if_pos rfl, induction]
          exact (Ignored.inside_iff lineFeed).symm
      | false =>
          simp only [Bool.false_eq_true, if_false]
          split
          · rename_i isBlank
            rw [induction]
            exact (Ignored.blank_iff isBlank).symm
          split
          · rename_i semicolon
            rw [induction, semicolon]
            rfl
          · rename_i notBlank notSemicolon
            have other : ¬Ignored (character :: text) :=
              Ignored.not_of_other (by simpa using notBlank) notSemicolon
            exact iff_of_false (List.cons_ne_nil _ _) other

/-- There is no next datum exactly if only blanks and comments are left. -/
theorem next_eq_none_iff (cursor : Cursor) : cursor.next.1 = .ok none ↔ Ignored cursor.rest := by
  have ignored : cursor.skipBlanks.rest = [] ↔ Ignored cursor.rest :=
    skip_eq_nil_iff false cursor.line cursor.rest
  rw [← ignored]
  cases here : cursor.skipBlanks.rest with
  | nil => simp [next_of_nil here]
  | cons first rest =>
      rw [next_of_cons here]
      split <;> simp

theorem rest_of_next_none {cursor : Cursor} (none : cursor.next.1 = .ok none) :
    cursor.next.2.rest = [] := by
  have ignored : cursor.skipBlanks.rest = [] :=
    (skip_eq_nil_iff false cursor.line cursor.rest).mpr ((next_eq_none_iff cursor).mp none)
  rw [next_of_nil ignored]
  exact ignored

/-! ## Positions in a text -/

/-- How many characters of a text the cursor has passed. -/
def position (text : String) (cursor : Cursor) : Nat :=
  text.toList.length - cursor.rest.length

theorem ScansTo.suffix {before after : Cursor} (scans : before.ScansTo after) :
    after.rest <:+ before.rest := by
  rcases scans.2.exists_passed with ⟨passed, whole, _⟩
  exact ⟨passed, whole⟩

theorem rest_eq_drop {text : String} {cursor : Cursor} (suffix : cursor.rest <:+ text.toList) :
    cursor.rest = text.toList.drop (cursor.position text) :=
  List.suffix_iff_eq_drop.mp suffix

theorem position_le (text : String) (cursor : Cursor) :
    cursor.position text ≤ text.toList.length :=
  Nat.sub_le _ _

theorem position_of_nil {cursor : Cursor} (atEnd : cursor.rest = []) (text : String) :
    cursor.position text = text.toList.length := by
  rw [position, atEnd, List.length_nil, Nat.sub_zero]

theorem position_mono {before after : Cursor} (scans : before.ScansTo after) (text : String) :
    before.position text ≤ after.position text :=
  Nat.sub_le_sub_left scans.suffix.length_le _

/-- A shorter rest of the text starts at a later position. -/
theorem position_lt {before after : Cursor} {text : String}
    (suffix : before.rest <:+ text.toList) (shorter : after.rest.length < before.rest.length) :
    before.position text < after.position text := by
  have within := suffix.length_le
  unfold position
  omega

end Cursor

/-! ## Rounds -/

namespace Reading

/-- One more round, if the reading is not finished. -/
def goOn : Reading → Reading
  | .unfinished contexts cursor => advance contexts cursor
  | reading => reading

def goOnFor (reading : Reading) : Nat → Reading
  | 0 => reading
  | rounds + 1 => reading.goOn.goOnFor rounds

/-- The reading has come to a datum or a fault. -/
def isSettled : Reading → Bool
  | .unfinished .. => false
  | _ => true

/-- As many rounds as there are characters, and one more, bring a reading to its end. -/
theorem exists_settled (contexts : List Context) (cursor : Cursor) :
    ∃ rounds ≤ cursor.rest.length + 1, ∃ reading,
      goOnFor (.unfinished contexts cursor) rounds = reading ∧ reading.isSettled = true ∧
        reading.settle = cursor.readWithin contexts := by
  fun_induction Cursor.readWithin contexts cursor with
  | case1 contexts cursor datum behind progress =>
      exact ⟨1, by omega, .finished datum behind, progress, rfl, rfl⟩
  | case2 contexts cursor fault behind progress =>
      exact ⟨1, by omega, .failed fault behind, progress, rfl, rfl⟩
  | case3 contexts cursor inner between progress induction =>
      rcases induction with ⟨rounds, bound, reading, reached, settled, same⟩
      have shorter := advance_unfinished_length_lt progress
      refine ⟨rounds + 1, by omega, reading, ?_, settled, same⟩
      rw [goOnFor, goOn, progress]
      exact reached

end Reading

/-! ## Data one by one -/

theorem Document.length_data_le (cursor : Cursor) :
    (read cursor).data.length ≤ cursor.rest.length := by
  fun_induction read cursor with
  | case1 => exact Nat.zero_le _
  | case2 => exact Nat.zero_le _
  | case3 cursor datum behind found further induction =>
      have shorter := Cursor.next_length_lt found
      have fewer : further.data.length ≤ behind.rest.length := induction
      rw [List.length_cons]
      omega

/-- A cursor that is asked for data until it has met a fault. -/
structure Iteration where
  cursor : Cursor
  failed : Bool

namespace Iteration

def start (source text : String) : Iteration :=
  ⟨Cursor.start source text, false⟩

/-- The next datum or the first fault, or nothing at the end and after a fault. -/
def next (iteration : Iteration) : Option (Except ReadError Source) × Iteration :=
  if iteration.failed then (none, iteration)
  else
    match iteration.cursor.next with
    | (.ok none, behind) => (none, ⟨behind, false⟩)
    | (.ok (some datum), behind) => (some (.ok datum), ⟨behind, false⟩)
    | (.error error, behind) => (some (.error error), ⟨behind, true⟩)

/-- What `count` calls yield. -/
def results (iteration : Iteration) : Nat → List (Option (Except ReadError Source))
  | 0 => []
  | count + 1 => iteration.next.1 :: iteration.next.2.results count

/-- After a fault there is nothing. -/
theorem results_failed (cursor : Cursor) (count : Nat) :
    results ⟨cursor, true⟩ count = List.replicate count none := by
  induction count with
  | zero => rfl
  | succ count induction => exact congrArg (none :: ·) induction

/-- At the end there is nothing, however often it is asked for. -/
theorem results_atEnd {cursor : Cursor} (atEnd : cursor.next.1 = .ok none) (count : Nat) :
    results ⟨cursor, false⟩ count = List.replicate count none := by
  induction count generalizing cursor with
  | zero => rfl
  | succ count induction =>
      cases found : cursor.next with
      | mk result behind =>
          rw [found] at atEnd
          cases atEnd
          have nothing : behind.rest = [] := by
            have left := cursor.rest_of_next_none (by rw [found])
            rwa [found] at left
          have again : behind.next.1 = .ok none := by
            rw [Cursor.next_eq_none_iff, nothing]
            exact .nil
          have first : next ⟨cursor, false⟩ = (none, ⟨behind, false⟩) := by
            simp [next, found]
          rw [results, first, induction again]
          rfl

/-- The data of a document, then its fault if it has one. -/
def items (document : Document) : List (Except ReadError Source) :=
  document.data.map .ok ++ document.failure.toList.map .error

/-- What is yielded are the items of the document that is read at once, and then nothing. -/
theorem results_eq (cursor : Cursor) (count : Nat) :
    results ⟨cursor, false⟩ count =
      ((items (Document.read cursor)).map some ++ List.replicate count none).take count := by
  fun_induction Document.read cursor generalizing count with
  | case1 cursor behind found =>
      rw [results_atEnd (by rw [found])]
      simp [items]
  | case2 cursor error behind found =>
      cases count with
      | zero => rfl
      | succ count =>
          have first : next ⟨cursor, false⟩ = (some (.error error), ⟨behind, true⟩) := by
            simp [next, found]
          rw [results, first, results_failed]
          simp [items, List.take_replicate]
  | case3 cursor datum behind found further induction =>
      cases count with
      | zero => rfl
      | succ count =>
          have first : next ⟨cursor, false⟩ = (some (.ok datum), ⟨behind, false⟩) := by
            simp [next, found]
          rw [results, first, induction]
          simp [items, further, List.replicate_succ', ← List.append_assoc, List.take_append]

end Iteration

/-- After any number of calls, also of calls that failed, the cursor stands at a position of
the text, with the rest of the text behind it. The next call never goes back, goes forward if
it yields a datum, and yields nothing exactly if only blanks and comments are left, which it
then passes to the end. It comes to its end after at most one round for each character that is
left, and one more. So data that are asked for one by one are no more than the characters of
the text; after them comes one fault at most, and then nothing, however often it is asked. -/
theorem reading_goes_forward (source text : String) (calls count : Nat) :
    let cursor := (Cursor.start source text).after calls
    let behind := (Cursor.start source text).after (calls + 1)
    let document := Document.ofText source text
    cursor.rest = text.toList.drop (cursor.position text) ∧
      cursor.position text ≤ behind.position text ∧
      behind.position text ≤ text.toList.length ∧
      (∀ datum, cursor.next.1 = .ok (some datum) →
        cursor.position text < behind.position text) ∧
      (cursor.next.1 = .ok none ↔ Ignored cursor.rest) ∧
      (cursor.next.1 = .ok none → behind.position text = text.toList.length) ∧
      (∃ rounds ≤ cursor.rest.length + 1, ∃ reading,
        Reading.goOnFor (.unfinished [] cursor.skipBlanks) rounds = reading ∧
          reading.isSettled = true ∧ reading.settle = cursor.skipBlanks.readWithin []) ∧
      document.data.length ≤ text.toList.length ∧
      (Iteration.start source text).results count =
        ((Iteration.items document).map some ++ List.replicate count none).take count := by
  intro cursor behind document
  have suffix : cursor.rest <:+ text.toList := (Cursor.after_scans _ calls).suffix
  have next : behind = cursor.next.2 := Cursor.after_succ _ calls
  have forward : cursor.position text ≤ behind.position text := by
    rw [next]
    exact Cursor.position_mono cursor.next_scans text
  have strictly (datum : Source) (found : cursor.next.1 = .ok (some datum)) :
      cursor.position text < behind.position text := by
    rw [next]
    exact Cursor.position_lt suffix (Cursor.next_length_lt (Prod.ext found rfl))
  have toTheEnd (nothing : cursor.next.1 = .ok none) :
      behind.position text = text.toList.length := by
    rw [next]
    exact Cursor.position_of_nil (Cursor.rest_of_next_none nothing) text
  rcases Reading.exists_settled [] cursor.skipBlanks with ⟨rounds, bound, settled⟩
  have fewer : cursor.skipBlanks.rest.length ≤ cursor.rest.length := cursor.skipBlanks_length_le
  exact ⟨Cursor.rest_eq_drop suffix, forward, Cursor.position_le text behind, strictly,
    cursor.next_eq_none_iff, toTheEnd, ⟨rounds, by omega, settled⟩,
    Document.length_data_le (Cursor.start source text),
    Iteration.results_eq (Cursor.start source text) count⟩

end SmallScheme
