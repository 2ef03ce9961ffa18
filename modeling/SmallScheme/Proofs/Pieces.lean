import SmallScheme.Proofs.Seams
import SmallScheme.Proofs.Sessions

namespace SmallScheme

/-! # Texts in pieces

Whether a program is evaluated as one text or line by line makes no difference: two texts
that are joined by a line feed are evaluated as the first one and then, if it succeeds, the
second one in the session that the first one left behind. -/

/-- A fault of a text is further down if lines are put before that text. -/
def EvalError.later (lines : Nat) : EvalError → EvalError
  | .read error => .read (error.later lines)
  | .compile error => .compile error
  | .run error => .run error

namespace Document

/-- What is read from a text that is put behind another one. -/
theorem read_behind (source text : String) (lines : Nat) :
    read ⟨source, lines + 1, text.toList⟩ = (ofText source text).later lines := by
  rw [Nat.add_comm]
  exact read_later lines (Cursor.start source text)

theorem ofText_lineFeed {source text : String} (clean : (ofText source text).failure = none)
    (other : String) :
    ofText source (text ++ "\n" ++ other) =
      (ofText source text).append
        ((ofText source other).later (ofText source text).final.line) := by
  have start : Cursor.start source (text ++ "\n" ++ other) =
      (Cursor.start source text).before other.toList := by
    simp [Cursor.start, Cursor.before, String.toList_append]
  rw [← read_behind, ofText, start]
  exact read_lineFeed other.toList clean

end Document

namespace Session

variable (session : Session) (fuel : Nat) (value : Value)

/-- Data are evaluated up to some point and then from there on, unless there is a failure
before that point. -/
theorem evalData_append (first second : List Source) :
    session.evalData fuel value (first ++ second) =
      match session.evalData fuel value first with
      | some (.ok value, middle) => middle.evalData fuel value second
      | unsuccessful => unsuccessful := by
  induction first generalizing session value with
  | nil => rfl
  | cons datum first induction =>
      simp only [List.cons_append, evalData]
      rcases session.evalDatum fuel datum with _ | ⟨error | value, middle⟩
      · rfl
      · rfl
      · exact induction middle value

/-- The value before some data is that of the whole if there are no data behind it. -/
theorem evalData_of_value (data : List Source) :
    session.evalData fuel value data =
      (session.evalData fuel .nil data).map fun (result, last) =>
        (if data.isEmpty then result.map fun _ => value else result, last) := by
  cases data with
  | nil => rfl
  | cons datum data =>
      simp only [evalData, List.isEmpty_cons, Bool.false_eq_true, if_false, Option.map_id']

/-- The failures of data are no faults of a text, and have no lines. -/
theorem later_of_evalDatum {session last : Session} {fuel : Nat} {datum : Source}
    {error : EvalError} (failed : session.evalDatum fuel datum = some (.error error, last))
    (lines : Nat) : error.later lines = error := by
  cases compiled : Node.ofDatum (session.placed datum) with
  | error failure =>
      rw [evalDatum_of_error compiled] at failed
      cases failed
      rfl
  | ok code =>
      rw [evalDatum_of_ok compiled, Option.map_eq_some_iff] at failed
      rcases failed with ⟨⟨outcome, world⟩, _, same⟩
      cases outcome <;> cases same
      rfl

theorem later_of_evalData {session last : Session} {fuel : Nat} {value : Value}
    {data : List Source} {error : EvalError}
    (failed : session.evalData fuel value data = some (.error error, last)) (lines : Nat) :
    error.later lines = error := by
  induction data generalizing session value with
  | nil => cases failed
  | cons datum data induction =>
      rw [evalData] at failed
      split at failed
      · cases failed
      · rename_i here
        cases failed
        exact later_of_evalDatum here lines
      · exact induction failed

theorem eval_of_clean {document : Document} (clean : document.failure = none) :
    session.eval fuel document = session.evalData fuel .nil document.data := by
  rw [eval, clean]
  rcases session.evalData fuel .nil document.data with _ | ⟨_ | _, _⟩ <;> rfl

/-- Lines before a document move its own fault only. -/
theorem eval_later (lines : Nat) (document : Document) :
    session.eval fuel (document.later lines) =
      (session.eval fuel document).map fun (result, last) =>
        (result.mapError (EvalError.later lines), last) := by
  simp only [eval, Document.later]
  rcases ended : session.evalData fuel .nil document.data with _ | ⟨error | value, last⟩
  · rfl
  · have unmoved := later_of_evalData ended lines
    simp [Except.mapError, unmoved]
  · cases document.failure <;> rfl

/-- Two documents in one, of which the first one has no fault. -/
theorem eval_append {first : Document} (clean : first.failure = none) (second : Document) :
    session.eval fuel (first.append second) =
      match session.eval fuel first with
      | some (.ok value, middle) =>
          (middle.eval fuel second).map fun (result, last) =>
            (if second.data.isEmpty then result.map fun _ => value else result, last)
      | unsuccessful => unsuccessful := by
  rw [eval_of_clean session fuel clean]
  simp only [eval, Document.append, evalData_append]
  rcases session.evalData fuel .nil first.data with _ | ⟨error | value, middle⟩
  · rfl
  · rfl
  · simp only [middle.evalData_of_value fuel value]
    rcases middle.evalData fuel .nil second.data with _ | ⟨error | found, last⟩ <;>
      cases second.failure <;> cases second.data.isEmpty <;> rfl

end Session

/-- If a text can be read to its end, then that text, a line feed and another text are
evaluated as the first text and, if it has a value, the other one after it, and leave the
same session behind, with its frames, output and counts. The value is that of the other
text, or that of the first one if the other one holds no datum, and `()` if neither does.
A failure of the first text ends the evaluation, and a fault in the other text is reported
further down, by the line on which the first one ends. -/
theorem eval_joined (session : Session) (fuel : Nat) (source text other : String)
    (clean : (Document.ofText source text).failure = none) :
    let first := Document.ofText source text
    let second := Document.ofText source other
    session.eval fuel (.ofText source (text ++ "\n" ++ other)) =
      (match session.eval fuel first with
      | some (.ok value, middle) =>
          (middle.eval fuel second).map fun (result, last) =>
            let result := result.mapError (EvalError.later first.final.line)
            (if second.data.isEmpty then result.map fun _ => value else result, last)
      | unsuccessful => unsuccessful) ∧
    (first.data = [] → session.eval fuel first = some (.ok .nil, session)) := by
  intro first second
  have clean : first.failure = none := clean
  constructor
  · have pieces : Document.ofText source (text ++ "\n" ++ other) =
        first.append (second.later first.final.line) :=
      Document.ofText_lineFeed clean other
    rw [pieces, Session.eval_append session fuel clean]
    simp only [Session.eval_later, Option.map_map]
    rfl
  · intro empty
    rw [Session.eval_of_clean session fuel clean, empty]
    rfl

/-- The first text has a value and a comment, and the second one a fault on its second line,
behind the datum `#f`, which is evaluated before. -/
theorem eval_joined_fault :
    let text := "#t\n;a"
    let other := "#f\n)"
    (Document.ofText "" text).failure = none ∧
      (Session.bare.eval 9 (.ofText "" (text ++ "\n" ++ other))).map (·.1) =
        some (.error (.read ⟨"", 4, .unexpectedCharacter ')'⟩)) := by
  intro text other
  have truth : (Cursor.start "" text).next =
      (.ok (some (.boolean true)), ⟨"", 1, ['\n', ';', 'a']⟩) := by cbv
  have comment : (⟨"", 1, ['\n', ';', 'a']⟩ : Cursor).next = (.ok none, ⟨"", 2, []⟩) := by cbv
  have falsity : (Cursor.start "" other).next =
      (.ok (some (.boolean false)), ⟨"", 1, ['\n', ')']⟩) := by cbv
  have fault : (⟨"", 1, ['\n', ')']⟩ : Cursor).next =
      (.error ⟨"", 2, .unexpectedCharacter ')'⟩, ⟨"", 2, [')']⟩) := by cbv
  have first : Document.ofText "" text = ⟨[.boolean true], none, ⟨"", 2, []⟩⟩ := by
    rw [Document.ofText, Document.read_eq, truth]
    dsimp only
    rw [Document.read_eq, comment]
  have second : Document.ofText "" other =
      ⟨[.boolean false], some ⟨"", 2, .unexpectedCharacter ')'⟩, ⟨"", 2, [')']⟩⟩ := by
    rw [Document.ofText, Document.read_eq, falsity]
    dsimp only
    rw [Document.read_eq, fault]
  have clean : (Document.ofText "" text).failure = none := congrArg Document.failure first
  refine ⟨clean, ?_⟩
  rw [(eval_joined Session.bare 9 "" text other clean).1, first, second]
  cbv

end SmallScheme
