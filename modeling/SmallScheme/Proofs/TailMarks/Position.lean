import SmallScheme.Proofs.TailMarks.Compiled

namespace SmallScheme

/-! # In tail position and out of it

The position of an expression makes no difference to what is compiled, except for
the marks of the calls in tail position. For a form that hands its own position to
no part, this follows from the marks alone. -/

namespace Compiler

open Node

section

variable {expression : Compiler}
  (marks : ∀ tail datum, Yields (expression tail datum) (Node.Marked tail))
  (uniform : ∀ datum, expression true datum = setTail true <$> expression false datum)

/-- Where the position makes no difference to what is compiled. -/
theorem eq_map_setTail {computation : Except CompileError Node}
    (marked : Yields computation (Marked true)) :
    computation = setTail true <$> computation := by
  cases computation with
  | error failure => rfl
  | ok node => exact congrArg Except.ok (marked node rfl).tailIs.symm

include uniform

theorem inOrder_uniform (data : List Value) :
    inOrder expression true data = setLastTail true <$> inOrder expression false data := by
  rcases List.eq_nil_or_concat data with rfl | ⟨data, last, rfl⟩
  · rfl
  · rw [List.concat_eq_append, inOrder_concat, inOrder_concat, uniform]
    simp [setLastTail_concat]

theorem sequence_uniform (data : List Value) :
    sequence expression true data = setTail true <$> sequence expression false data := by
  rcases data with _ | ⟨first, _ | ⟨second, rest⟩⟩
  · rfl
  · exact uniform first
  · simp only [sequence, inOrder_uniform uniform, Functor.map_map]
    rfl

theorem compileSequence_uniform (operands : List Value) :
    compileSequence expression true operands =
      setTail true <$> compileSequence expression false operands := by
  cases operands with
  | nil => rfl
  | cons first rest => exact sequence_uniform uniform _

omit uniform in
theorem compileNamedLet_uniform (name : Value) (operands : List Value) :
    compileNamedLet expression true name operands =
      setTail true <$> compileNamedLet expression false name operands := by
  cases operands with
  | nil =>
      rw [compileNamedLet, compileNamedLet]
      cases variableName name <;> rfl
  | cons datum body => simp [compileNamedLet, setTail]

omit uniform in
theorem compileLet_uniform (operands : List Value) :
    compileLet expression true operands =
      setTail true <$> compileLet expression false operands := by
  unfold compileLet
  split
  · rfl
  · exact compileNamedLet_uniform _ _
  · simp [setTail]

theorem compileBranch_uniform (operands : List Value) :
    compileBranch expression true operands =
      setTail true <$> compileBranch expression false operands := by
  unfold compileBranch
  split
  · simp [uniform, setTail]
  · simp [uniform, setTail]
  · rfl

theorem clauseBody_uniform (test : Node) (data : List Value) :
    clauseBody expression true test data =
      Clause.setTail true <$> clauseBody expression false test data := by
  cases data with
  | nil => rfl
  | cons first more =>
      simp only [clauseBody]
      split
      · split
        · simp [Clause.setTail]
        · rfl
      · simp [sequence_uniform uniform, Clause.setTail]

theorem clause_uniform (last : Bool) (datum : Value) :
    clause expression true last datum =
      Clause.setTail true <$> clause expression false last datum := by
  unfold clause
  split
  · split
    · split
      · simp [sequence_uniform uniform, Clause.setTail]
      · rfl
    · simp [clauseBody_uniform uniform]
  · rfl

theorem clauses_uniform (data : List Value) :
    clauses expression true data = Clause.setTails true <$> clauses expression false data := by
  induction data with
  | nil => rfl
  | cons datum data induction =>
      simp [clauses, clause_uniform uniform, induction, Clause.setTails]

theorem compileCond_uniform (operands : List Value) :
    compileCond expression true operands =
      setTail true <$> compileCond expression false operands := by
  cases operands with
  | nil => rfl
  | cons first rest => simp [compileCond, clauses_uniform uniform, setTail]

include marks

theorem compileForm_uniform (operands : List Value) (form : Form) :
    compileForm expression true operands form =
      setTail true <$> compileForm expression false operands form := by
  cases form with
  | branch => exact compileBranch_uniform uniform operands
  | sequence => exact compileSequence_uniform uniform operands
  | letIn => exact compileLet_uniform operands
  | cond => exact compileCond_uniform uniform operands
  | conjunction => simp [compileForm, inOrder_uniform uniform, setTail]
  | disjunction => simp [compileForm, inOrder_uniform uniform, setTail]
  | quote | lambda | define | assign | letStar | letrec | loop =>
      exact eq_map_setTail (compileForm_marked marks true operands _)

omit uniform marks in
theorem compileCall_uniform (operator operands : Value) :
    compileCall expression true operator operands =
      setTail true <$> compileCall expression false operator operands := by
  unfold compileCall
  split
  · simp [setTail]
  · rfl

theorem compileWith_uniform (datum : Value) :
    compileWith expression true datum = setTail true <$> compileWith expression false datum := by
  unfold compileWith
  split
  · simp [setTail]
  · split
    · split
      · exact compileForm_uniform marks uniform _ _
      · rfl
    · exact compileCall_uniform _ _
  · rfl

end

theorem withinHeight_uniform (height : Nat) (datum : Value) :
    withinHeight height true datum = setTail true <$> withinHeight height false datum := by
  induction height generalizing datum with
  | zero =>
      exact compileWith_uniform (fun tail datum => .ok (literal_marked tail datum))
        (fun _ => rfl) datum
  | succ height induction =>
      exact compileWith_uniform (withinHeight_marked height) induction datum

end Compiler

/-- The position of an expression decides the marks of its tail calls and nothing
else: in tail position or out of it, a datum fails to compile in the same way or
compiles to the same node up to these marks. Inside compiled nodes, the bodies of
procedures and bindings and the results of loops are in tail position, and tests,
operators, operands, inits, steps, commands, receivers, values of definitions and
assignments, and all but the last part of a sequence, `and` or `or` are not. -/
theorem compile_tail_marks (datum : Value) :
    Node.compile true datum = Node.setTail true <$> Node.compile false datum ∧
    (∀ node, Node.compile false datum = .ok node → node.setTail false = node) ∧
    ∀ tail node, Node.compile tail datum = .ok node →
      ∀ inner : Node, inner.Within node → inner.MarksFit := by
  refine ⟨Compiler.withinHeight_uniform _ datum, ?_, ?_⟩
  · intro node compiled
    exact (Compiler.withinHeight_marked _ false datum node compiled).tailIs
  · intro tail node compiled
    exact (Compiler.withinHeight_marked _ tail datum node compiled).everywhere

/-- `(if (test) (let () (body)) (done))` -/
def branchDatum : Value :=
  let list (items : List Value) : Value := (Value.newList 0 items).1
  let call (name : String) : Value := list [.symbol ⟨name⟩]
  list [.symbol ⟨"if"⟩, call "test", list [.symbol ⟨"let"⟩, .nil, call "body"], call "done"]

theorem compile_tail_marks_branch :
    ∃ node, Node.compile false branchDatum = .ok node ∧ node.setTail false = node ∧
      Node.compile true branchDatum = .ok (node.setTail true) ∧ node.setTail true ≠ node ∧
      ∀ inner : Node, inner.Within node → inner.MarksFit := by
  rcases compile_tail_marks branchDatum with ⟨uniform, outside, fit⟩
  have compiled : Node.compile false branchDatum = .ok
      (.branch (.call (.variable ⟨"test"⟩) [] false)
        (.letIn [] (.call (.variable ⟨"body"⟩) [] true))
        (some (.call (.variable ⟨"done"⟩) [] false))) := rfl
  refine ⟨_, compiled, outside _ compiled, ?_, ?_, fit false _ compiled⟩
  · rw [uniform, compiled]
    rfl
  · simp [Node.setTail]

end SmallScheme
