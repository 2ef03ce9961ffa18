import SmallScheme.Proofs.Alike
import SmallScheme.Proofs.Expansion

namespace SmallScheme

/-! # Conditionals as nested branches

`and` and `cond` have nodes of their own and are run by rules of their own. Still they do what
nested `if`s do: `(and a b c)` what `(if a (if b c #f) #f)` does, and `(cond (a b ...) ...)`
what `(if a (begin b ...) ...)` does. Both compile or fail to compile in the same way, and
both runs end in the same way under every limit, so that neither form needs more levels than
the other. -/

namespace Grammar

/-! ## Conditionals and their branches -/

/-- `(if a (if b c #f) #f)` for the operands of `(and a b c)`, and the operand itself if there
is but one. -/
inductive AreNestedTests : List Value → Value → Prop
  | last (datum : Value) : AreNestedTests [datum] datum
  | test {datum first inner : Value} {rest : List Value} :
      datum.items? = some [.symbol ⟨"if"⟩, first, inner, .boolean false] →
      AreNestedTests rest inner → AreNestedTests (first :: rest) datum

/-- `(begin body ...)` -/
def IsSequence (datum : Value) (body : List Value) : Prop :=
  datum.items? = some (.symbol ⟨"begin"⟩ :: body)

/-- `(test body ...)` with a body, and not `(test => receiver)`. -/
def IsBodyClause (clause test : Value) (body : List Value) : Prop :=
  clause.items? = some (test :: body) ∧ test ≠ .symbol elseSymbol ∧ body ≠ [] ∧
    body.head? ≠ some (.symbol arrowSymbol)

/-- `(if test (begin body ...) ...)` for the clauses of a `cond`, the innermost without an
alternate if there is no clause with `else`. -/
inductive AreNestedClauses : List Value → Value → Prop
  | otherwise {clause datum : Value} {body : List Value} :
      clause.items? = some (.symbol elseSymbol :: body) → IsSequence datum body →
      AreNestedClauses [clause] datum
  | last {clause test sequence datum : Value} {body : List Value} :
      IsBodyClause clause test body → IsSequence sequence body →
      datum.items? = some [.symbol ⟨"if"⟩, test, sequence] → AreNestedClauses [clause] datum
  | clause {clause test sequence inner datum : Value} {body rest : List Value} :
      IsBodyClause clause test body → IsSequence sequence body →
      datum.items? = some [.symbol ⟨"if"⟩, test, sequence, inner] →
      AreNestedClauses rest inner → AreNestedClauses (clause :: rest) datum

theorem AreNestedTests.nonempty {operands : List Value} {datum : Value}
    (nested : AreNestedTests operands datum) : operands ≠ [] := by
  cases nested <;> exact List.cons_ne_nil _ _

theorem AreNestedClauses.nonempty {clauses : List Value} {datum : Value}
    (nested : AreNestedClauses clauses datum) : clauses ≠ [] := by
  cases nested <;> exact List.cons_ne_nil _ _

/-- A conditional and the branches that it stands for. -/
inductive Unfolds : Value → Value → Prop
  | conjunction {datum branches : Value} {operands : List Value} :
      datum.items? = some (.symbol ⟨"and"⟩ :: operands) → AreNestedTests operands branches →
      Unfolds datum branches
  | cond {datum branches : Value} {clauses : List Value} :
      datum.items? = some (.symbol ⟨"cond"⟩ :: clauses) → AreNestedClauses clauses branches →
      Unfolds datum branches

end Grammar

/-! ## Nodes -/

/-- Tests and their nested branches. -/
inductive NestsTests : List Node → Node → Prop
  | last (node : Node) : NestsTests [node] node
  | test (first : Node) {inner : Node} {rest : List Node} :
      NestsTests rest inner →
      NestsTests (first :: rest) (.branch first inner (some (.literal (.boolean false))))

/-- Clauses and their nested branches. -/
inductive NestsClauses : List Clause → Node → Prop
  | otherwise (body : Node) : NestsClauses [.otherwise body] body
  /-- A body without expressions is not compiled in the same way in both. -/
  | nothing : NestsClauses [.otherwise (.literal .nil)] (.sequence [])
  | last (test body : Node) : NestsClauses [.body test body] (.branch test body none)
  | clause (test body : Node) {inner : Node} {rest : List Clause} :
      NestsClauses rest inner →
      NestsClauses (.body test body :: rest) (.branch test body (some inner))

open Turn (Alike)

theorem eq_false_of_not_isTrue {value : Value} (isFalse : ¬ value.isTrue = true) :
    value = .boolean false := by
  cases value with
  | boolean value =>
      cases value
      · rfl
      · exact absurd rfl isFalse
  | _ => exact absurd rfl isFalse

/-- A level with a branch goes on as its consequent, if the value is true. -/
theorem alike_consequent {meter : Meter} (unobserved : meter.Unobserved) {value : Value}
    (isTrue : value.isTrue = true) (consequent : Node) (alternate : Option Node)
    (frame : FrameId) :
    Alike meter (.resume value (.branch consequent alternate frame)) (.start consequent frame) :=
  .proceed unobserved fun _ _ => if_pos isTrue

theorem alike_alternate {meter : Meter} (unobserved : meter.Unobserved) {value : Value}
    (isFalse : ¬ value.isTrue = true) (consequent alternate : Node) (frame : FrameId) :
    Alike meter (.resume value (.branch consequent (some alternate) frame))
      (.start alternate frame) :=
  .proceed unobserved fun _ _ => if_neg isFalse

theorem alike_body {meter : Meter} (unobserved : meter.Unobserved) {value : Value}
    (isTrue : value.isTrue = true) (test body : Node) (rest : List Clause) (frame : FrameId) :
    Alike meter (.resume value (.clause (.body test body) rest frame)) (.start body frame) :=
  .proceed unobserved fun _ _ => if_pos isTrue

/-- Before the last test, one that is false yields its value, which is that of the alternate. -/
theorem NestsTests.alike {tests : List Node} {node : Node} (nests : NestsTests tests node) :
    (Node.conjunction tests).Alike node := by
  induction nests with
  | last node =>
      intro frame meter unobserved
      exact .proceed unobserved fun _ _ => rfl
  | @test first inner rest nests induction =>
      intro frame meter unobserved
      have waits : (Turn.start (.conjunction (first :: rest)) frame).Makes meter
          (.suspend (.conjunction rest frame) first frame) meter.world := by
        intro limit levels
        cases nests <;> rfl
      apply Alike.suspend unobserved waits fun _ _ => rfl
      intro value middle unobserved
      by_cases isTrue : value.isTrue = true
      · have others : Alike middle (.resume value (.conjunction rest frame))
            (.start (.conjunction rest) frame) := .of_take fun _ _ => if_pos isTrue
        have taken := alike_consequent unobserved isTrue inner
          (some (.literal (.boolean false))) frame
        exact others.trans ((induction frame middle unobserved).trans taken.symm)
      · have given : (Turn.resume value (.conjunction rest frame)).Makes middle (.give value)
            middle.world := fun _ _ => if_neg isTrue
        have literal : (Turn.start (.literal (.boolean false)) frame).Makes middle (.give value)
            middle.world := by
          rw [eq_false_of_not_isTrue isTrue]
          exact fun _ _ => rfl
        have taken := alike_alternate unobserved isTrue inner (.literal (.boolean false)) frame
        exact (Alike.of_makes given literal).trans taken.symm

/-- If the test of a clause is true, its body is in the place of the `cond`, and if not, the
clauses behind it are. -/
theorem NestsClauses.alike {clauses : List Clause} {node : Node}
    (nests : NestsClauses clauses node) : (Node.cond clauses).Alike node := by
  induction nests with
  | otherwise body =>
      intro frame meter unobserved
      exact .proceed unobserved fun _ _ => rfl
  | nothing =>
      intro frame meter unobserved
      have proceeds : Alike meter (.start (.cond [.otherwise (.literal .nil)]) frame)
          (.start (.literal .nil) frame) := .proceed unobserved fun _ _ => rfl
      have literal : (Turn.start (.literal .nil) frame).Makes meter (.give .nil) meter.world :=
        fun _ _ => rfl
      exact proceeds.trans (.of_makes literal fun _ _ => rfl)
  | last test body =>
      intro frame meter unobserved
      apply Alike.suspend unobserved (fun _ _ => rfl) fun _ _ => rfl
      intro value middle unobserved
      by_cases isTrue : value.isTrue = true
      · have chosen := alike_body unobserved isTrue test body [] frame
        exact chosen.trans (alike_consequent unobserved isTrue body none frame).symm
      · have given : (Turn.resume value (.clause (.body test body) [] frame)).Makes middle
            (.give .nil) middle.world := fun _ _ => if_neg isTrue
        exact .of_makes given fun _ _ => if_neg isTrue
  | @clause test body inner rest nests induction =>
      intro frame meter unobserved
      apply Alike.suspend unobserved (fun _ _ => rfl) fun _ _ => rfl
      intro value middle unobserved
      by_cases isTrue : value.isTrue = true
      · have chosen := alike_body unobserved isTrue test body rest frame
        exact chosen.trans (alike_consequent unobserved isTrue body (some inner) frame).symm
      · have others : Alike middle (.resume value (.clause (.body test body) rest frame))
            (.start (.cond rest) frame) := .of_take fun _ _ => if_neg isTrue
        have taken := alike_alternate unobserved isTrue body inner frame
        exact others.trans ((induction frame middle unobserved).trans taken.symm)

/-! ## Compilation -/

namespace Compiler

/-- Two compilations fail in the same way, or their results are related. -/
inductive Agree {α β : Type} (related : α → β → Prop) :
    Except CompileError α → Except CompileError β → Prop
  | fail (error : CompileError) : Agree related (.error error) (.error error)
  | ok {one : α} {two : β} : related one two → Agree related (.ok one) (.ok two)

namespace Agree

variable {α β γ δ : Type} {related : α → β → Prop} {relatedToo : γ → δ → Prop}

theorem bind {one : Except CompileError α} {two : Except CompileError β}
    {next : α → Except CompileError γ} {nextToo : β → Except CompileError δ}
    (agree : Agree related one two)
    (behind : ∀ first second, related first second →
      Agree relatedToo (next first) (nextToo second)) :
    Agree relatedToo (one >>= next) (two >>= nextToo) := by
  cases agree with
  | fail error => exact .fail error
  | ok here => exact behind _ _ here

/-- What both do first is the same. -/
theorem same (first : Except CompileError α) {next : α → Except CompileError γ}
    {nextToo : α → Except CompileError δ}
    (behind : ∀ result, Agree relatedToo (next result) (nextToo result)) :
    Agree relatedToo (first >>= next) (first >>= nextToo) := by
  cases first with
  | error error => exact .fail error
  | ok result => exact behind result

theorem map {wrap : α → γ} {one : Except CompileError α} {two : Except CompileError β}
    {relatedToo : γ → β → Prop} (agree : Agree related one two)
    (wrapped : ∀ first second, related first second → relatedToo (wrap first) second) :
    Agree relatedToo (wrap <$> one) two := by
  cases agree with
  | fail error => exact .fail error
  | ok here => exact .ok (wrapped _ _ here)

end Agree

open Grammar

theorem inOrder_cons (expression : Compiler) (tail : Bool) (datum : Value) {data : List Value}
    (nonempty : data ≠ []) :
    inOrder expression tail (datum :: data) = do
      let node ← expression false datum
      let nodes ← inOrder expression tail data
      return node :: nodes := by
  rcases List.exists_cons_of_ne_nil nonempty with ⟨second, rest, rfl⟩
  rfl

theorem nestedTests_agree {operands : List Value} {branches : Value}
    (nested : AreNestedTests operands branches) (tail : Bool) :
    Agree NestsTests (inOrder Node.compile tail operands) (Node.compile tail branches) := by
  induction nested with
  | last datum =>
      rw [← bind_pure (Node.compile tail datum)]
      exact .same _ fun node => .ok (.last node)
  | @test datum first inner rest list nested induction =>
      rw [inOrder_cons _ _ _ nested.nonempty, Node.compile_form .branch list, compileForm,
        compileBranch]
      apply Agree.same
      intro test
      apply Agree.bind induction
      intro tests node nests
      exact .ok (.test test nests)

theorem compileCond_of_nonempty {items : List Value} (nonempty : items ≠ []) (tail : Bool) :
    compileCond Node.compile tail items = Node.cond <$> clauses Node.compile tail items := by
  rcases List.exists_cons_of_ne_nil nonempty with ⟨first, rest, rfl⟩
  rfl

theorem compile_sequence {datum : Value} {body : List Value} (isSequence : IsSequence datum body)
    (nonempty : body ≠ []) (tail : Bool) :
    Node.compile tail datum = sequence Node.compile tail body := by
  rcases List.exists_cons_of_ne_nil nonempty with ⟨first, rest, rfl⟩
  exact Node.compile_form .sequence isSequence tail

theorem clause_of_isBodyClause {datum test : Value} {body : List Value}
    (isClause : IsBodyClause datum test body) (tail last : Bool) :
    clause Node.compile tail last datum = do
      let test ← Node.compile false test
      let body ← sequence Node.compile tail body
      return .body test body := by
  rcases isClause with ⟨list, notElse, nonempty, notArrow⟩
  rcases List.exists_cons_of_ne_nil nonempty with ⟨first, more, rfl⟩
  have hasTest : ¬ isSymbol elseSymbol test = true := by
    rw [isSymbol_iff]
    exact notElse
  have hasBody : ¬ isSymbol arrowSymbol first = true := by
    rw [isSymbol_iff]
    rintro rfl
    exact notArrow rfl
  simp only [clause, list, clauseBody, if_neg hasTest, if_neg hasBody]
  rfl

theorem clause_of_else {datum : Value} {body : List Value}
    (list : datum.items? = some (.symbol elseSymbol :: body)) (tail : Bool) :
    clause Node.compile tail true datum = do
      let body ← sequence Node.compile tail body
      return .otherwise body := by
  have isElse : isSymbol elseSymbol (.symbol elseSymbol) = true := by decide
  simp only [clause, list, isElse, if_true]
  rfl

theorem nestedClauses_agree {items : List Value} {branches : Value}
    (nested : AreNestedClauses items branches) (tail : Bool) :
    Agree NestsClauses (clauses Node.compile tail items) (Node.compile tail branches) := by
  induction nested with
  | @otherwise clause datum body list isSequence =>
      rw [clauses, List.isEmpty_nil, clause_of_else list]
      by_cases nonempty : body = []
      · subst nonempty
        rw [Node.compile_form .sequence isSequence]
        exact .ok .nothing
      · rw [compile_sequence isSequence nonempty, bind_assoc]
        rw [← bind_pure (sequence Node.compile tail body), bind_assoc]
        apply Agree.same
        intro body
        exact .ok (.otherwise body)
  | last isClause isSequence list =>
      rw [clauses, clause_of_isBodyClause isClause, Node.compile_form .branch list, compileForm,
        compileBranch, compile_sequence isSequence isClause.2.2.1]
      simp only [bind_assoc]
      apply Agree.same
      intro test
      apply Agree.same
      intro body
      exact .ok (.last test body)
  | clause isClause isSequence list _ induction =>
      rw [clauses, clause_of_isBodyClause isClause, Node.compile_form .branch list, compileForm,
        compileBranch, compile_sequence isSequence isClause.2.2.1]
      simp only [bind_assoc]
      apply Agree.same
      intro test
      apply Agree.same
      intro body
      apply Agree.bind induction
      intro others node nests
      exact .ok (.clause test body nests)

end Compiler

open Grammar

/-- `and` and `cond` do what nested `if`s do, in tail position or out of it: both fail to
compile in the same way, or both compile, and then their runs end with the same outcome in the
same scene, from every world, in every frame and under every limit. -/
theorem conditionals_unfold {datum branches : Value} (unfolds : Unfolds datum branches)
    (tail : Bool) :
    (∃ error, Node.compile tail datum = .error error ∧
      Node.compile tail branches = .error error) ∨
    ∃ code nested, Node.compile tail datum = .ok code ∧ Node.compile tail branches = .ok nested ∧
      ∀ world limit frame outcome scene,
        World.EndsIn world limit code frame outcome scene ↔
          World.EndsIn world limit nested frame outcome scene := by
  have agree : Compiler.Agree Node.Alike (Node.compile tail datum)
      (Node.compile tail branches) := by
    cases unfolds with
    | conjunction list nested =>
        rw [Node.compile_form .conjunction list]
        exact (Compiler.nestedTests_agree nested tail).map fun _ _ nests => nests.alike
    | cond list nested =>
        rw [Node.compile_form .cond list, Compiler.compileForm,
          Compiler.compileCond_of_nonempty nested.nonempty]
        exact (Compiler.nestedClauses_agree nested tail).map fun _ _ nests => nests.alike
  generalize Node.compile tail datum = one at agree
  generalize Node.compile tail branches = two at agree
  cases agree with
  | fail error => exact .inl ⟨error, rfl, rfl⟩
  | ok alike =>
      exact .inr ⟨_, _, rfl, rfl, fun world limit frame outcome scene =>
        alike.endsIn_iff world limit frame outcome scene⟩

/-- `(and #t a 1)` is `(if #t (if a 1 #f) #f)`, and `(cond (a 1 a) (else))` is
`(if a (begin 1 a) (begin))`. -/
theorem conditionals_unfold_examples :
    let list (place : Place) (items : List Value) : Value := (Value.newList place items).1
    let symbol (name : String) : Value := .symbol ⟨name⟩
    let one : Value := .number (.integer 1)
    let inner := list 20 [symbol "if", symbol "a", one, .boolean false]
    let branches := list 10 [symbol "if", .boolean true, inner, .boolean false]
    let conjunction := list 0 [symbol "and", .boolean true, symbol "a", one]
    let sequence := list 50 [symbol "begin", one, symbol "a"]
    let choice := list 40 [symbol "if", symbol "a", sequence, list 60 [symbol "begin"]]
    let cond := list 30 [symbol "cond", list 34 [symbol "a", one, symbol "a"],
      list 38 [symbol "else"]]
    let a : Node := .variable ⟨"a"⟩
    let no : Node := .literal (.boolean false)
    Unfolds conjunction branches ∧ Unfolds cond choice ∧
      ∀ world limit frame outcome scene,
        (World.EndsIn world limit (.conjunction [.literal (.boolean true), a, .literal one])
            frame outcome scene ↔
          World.EndsIn world limit (.branch (.literal (.boolean true))
            (.branch a (.literal one) (some no)) (some no)) frame outcome scene) ∧
        (World.EndsIn world limit
            (.cond [.body a (.sequence [.literal one, a]), .otherwise (.literal .nil)])
            frame outcome scene ↔
          World.EndsIn world limit
            (.branch a (.sequence [.literal one, a]) (some (.sequence []))) frame outcome
            scene) := by
  intro list symbol one inner branches conjunction sequence choice cond a no
  have tests : Unfolds conjunction branches :=
    .conjunction rfl (.test rfl (.test rfl (.last one)))
  have isClause : IsBodyClause (list 34 [symbol "a", one, symbol "a"]) (symbol "a")
      [one, symbol "a"] :=
    ⟨rfl, by simp [symbol, elseSymbol], List.cons_ne_nil _ _, by simp [one]⟩
  have isSequence : IsSequence sequence [one, symbol "a"] := rfl
  have isEmpty : IsSequence (list 60 [symbol "begin"]) [] := rfl
  have clauses : Unfolds cond choice :=
    .cond rfl (.clause isClause isSequence rfl (.otherwise rfl isEmpty))
  refine ⟨tests, clauses, fun world limit frame outcome scene => ⟨?_, ?_⟩⟩
  · rcases conditionals_unfold tests true with ⟨_, failed, _⟩ | ⟨code, nested, one, two, alike⟩
    · cases failed
    · cases one
      cases two
      exact alike world limit frame outcome scene
  · rcases conditionals_unfold clauses true with ⟨_, failed, _⟩ | ⟨code, nested, one, two, alike⟩
    · cases failed
    · cases one
      cases two
      exact alike world limit frame outcome scene

end SmallScheme
