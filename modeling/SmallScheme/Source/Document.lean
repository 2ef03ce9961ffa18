import SmallScheme.Source.Reading

namespace SmallScheme

/-! Data one by one, and all data of a text. -/

namespace Cursor

/-- Reads the datum inside the given contexts to its end. After a fault the
cursor stays where the fault was met. -/
def readWithin (contexts : List Context) (cursor : Cursor) : Except ReadFault Source × Cursor :=
  match _ : Reading.advance contexts cursor with
  | .finished datum behind => (.ok datum, behind)
  | .failed fault behind => (.error fault, behind)
  | .unfinished inner behind => behind.readWithin inner
termination_by cursor.rest.length
decreasing_by exact Reading.advance_unfinished_length_lt ‹_›

theorem readWithin_length_lt {contexts : List Context} {cursor behind : Cursor}
    {datum : Source} (read : cursor.readWithin contexts = (.ok datum, behind)) :
    behind.rest.length < cursor.rest.length := by
  fun_induction readWithin contexts cursor with
  | case1 contexts cursor datum behind progress =>
      simp only [Prod.mk.injEq] at read
      rw [← read.2]
      exact Reading.advance_finished_length_lt progress
  | case2 => simp at read
  | case3 contexts cursor inner between progress induction =>
      exact Nat.lt_trans (induction read) (Reading.advance_unfinished_length_lt progress)

/-- The next datum, or nothing if only blanks and comments are left. -/
def next (cursor : Cursor) : Except ReadError (Option Source) × Cursor :=
  let cursor := cursor.skipBlanks
  if cursor.rest.isEmpty then (.ok none, cursor)
  else
    match cursor.readWithin [] with
    | (.ok datum, behind) => (.ok (some datum), behind)
    | (.error fault, behind) => (.error (behind.fail fault), behind)

theorem next_length_lt {cursor behind : Cursor} {datum : Source}
    (read : cursor.next = (.ok (some datum), behind)) :
    behind.rest.length < cursor.rest.length := by
  unfold next at read
  dsimp only at read
  split at read
  · simp at read
  · split at read
    · rename_i found
      simp only [Prod.mk.injEq] at read
      rw [← read.2]
      exact Nat.lt_of_lt_of_le (readWithin_length_lt found) cursor.skipBlanks_length_le
    · simp at read

/-- The first datum of a text, which has to hold one. -/
def first (cursor : Cursor) : Except ReadError Source :=
  match cursor.next with
  | (.ok (some datum), _) => .ok datum
  | (.ok none, behind) => .error (behind.fail .unexpectedEnd)
  | (.error error, _) => .error error

/-- The results of reading `count` times, also after faults. -/
def attempts (cursor : Cursor) : Nat → List (Except ReadError (Option Source))
  | 0 => []
  | count + 1 =>
      let (result, behind) := cursor.next
      result :: behind.attempts count

end Cursor

/-- All data of a text up to its end or to its first fault. -/
structure Document where
  data : List Source
  failure : Option ReadError
  /-- Where reading ended. -/
  final : Cursor

/-- Reads everything behind a cursor. -/
def Document.read (cursor : Cursor) : Document :=
  match _ : cursor.next with
  | (.ok none, behind) => ⟨[], none, behind⟩
  | (.error error, behind) => ⟨[], some error, behind⟩
  | (.ok (some datum), behind) =>
      let further := read behind
      ⟨datum :: further.data, further.failure, further.final⟩
termination_by cursor.rest.length
decreasing_by exact Cursor.next_length_lt ‹_›

/-- The name of a text that does not come from a file. -/
def Document.unnamed : String := "<input>"

/-- The data of a text with the given name. -/
def Document.ofText (source text : String) : Document :=
  read (Cursor.start source text)

end SmallScheme
