import SmallScheme.Node.Compile
import SmallScheme.Proofs.TailMarks
import SmallScheme.Proofs.Yields

namespace SmallScheme

/-! # Marks of compiled expressions

If the compiler for the parts sets marks that fit, so does the compiler of each
form. What is compiled in tail position or out of it has the mark of that. -/

namespace Compiler

open Node

/-- All data but the last one are out of tail position. -/
theorem inOrder_concat (expression : Compiler) (tail : Bool) (data : List Value)
    (last : Value) :
    inOrder expression tail (data ++ [last]) = do
      let nodes ← each expression data
      let node ← expression tail last
      return nodes ++ [node] := by
  induction data with
  | nil => simp [inOrder, each]
  | cons datum data induction =>
      have split : inOrder expression tail (datum :: (data ++ [last])) = do
          let node ← expression false datum
          let nodes ← inOrder expression tail (data ++ [last])
          return node :: nodes := by
        cases data <;> rfl
      rw [List.cons_append, split, induction]
      simp [each, List.mapM_cons, bind_assoc]

/-! ## Sequences and definitions -/

section

variable {expression : Compiler}
  (marks : ∀ tail datum, Yields (expression tail datum) (Node.Marked tail))

include marks

theorem each_marked (data : List Value) :
    Yields (each expression data) fun nodes => ∀ node ∈ nodes, node.Marked false :=
  .forall_mapM fun datum _ => marks false datum

theorem inOrder_marked (tail : Bool) (data : List Value) :
    Yields (inOrder expression tail data) (LastMarked tail) := by
  rcases List.eq_nil_or_concat data with rfl | ⟨data, last, rfl⟩
  · exact .ok ⟨rfl, by simp, by simp⟩
  · rw [List.concat_eq_append, inOrder_concat]
    refine (each_marked marks data).bind fun nodes others => ?_
    exact (marks tail last).bind fun node marked => .ok (.concat others marked)

theorem sequence_marked (tail : Bool) (data : List Value) :
    Yields (sequence expression tail data) (Marked tail) := by
  rcases data with _ | ⟨first, _ | ⟨second, rest⟩⟩
  · exact .ok (literal_marked tail .nil)
  · exact marks tail first
  · exact .map ((inOrder_marked marks tail _).mono fun _ marked => marked.sequence)

theorem compileSequence_marked (tail : Bool) (operands : List Value) :
    Yields (compileSequence expression tail operands) (Marked tail) := by
  cases operands with
  | nil => exact .ok (.of_parts rfl (by simp [MarksFit]) (by simp [parts]))
  | cons first rest => exact sequence_marked marks tail _

theorem procedure_marked (name : Option Symbol) (parameters : Value) (body : List Value) :
    Yields (procedure expression name parameters body) fun node =>
      ∀ tail, node.Marked tail := by
  refine .skip fun formals => ?_
  refine (sequence_marked marks true body).bind fun body marked => .ok fun tail => ?_
  exact .of_parts rfl marked.tailIs (by simpa [parts] using marked.everywhere)

theorem compileLambda_marked (tail : Bool) (operands : List Value) :
    Yields (compileLambda expression operands) (Marked tail) := by
  cases operands with
  | nil => exact .error _
  | cons parameters body =>
      exact (procedure_marked marks none parameters body).mono fun _ marked => marked tail

omit marks in
theorem named_marked (name : Symbol) {node : Node} (marked : node.Marked false) :
    (named name node).Marked false := by
  unfold named
  split
  · rcases everywhere_iff.mp marked.everywhere with ⟨fit, below⟩
    exact .of_parts rfl fit below
  · exact marked

theorem compileDefine_marked (tail : Bool) (operands : List Value) :
    Yields (compileDefine expression operands) (Marked tail) := by
  have defined (name : Symbol) {value : Node} (marked : value.Marked false) :
      (Node.define name value).Marked tail :=
    .of_parts rfl marked.tailIs (by simpa [parts] using marked.everywhere)
  unfold compileDefine
  split
  · exact .error _
  · refine .skip fun name => ?_
    refine (procedure_marked marks (some name) _ _).bind fun value marked => ?_
    exact .ok (defined name (marked false))
  · refine .skip fun name => ?_
    split
    · exact (marks false _).bind fun value marked => .ok (defined name (named_marked name marked))
    · exact .error _

theorem compileAssign_marked (tail : Bool) (operands : List Value) :
    Yields (compileAssign expression operands) (Marked tail) := by
  unfold compileAssign
  split
  · refine .skip fun name => ?_
    refine (marks false _).bind fun value marked => .ok ?_
    exact .of_parts rfl marked.tailIs (by simpa [parts] using marked.everywhere)
  · exact .error _

/-! ## Bindings -/

theorem bindings_marked (form : Form) (datum : Value) :
    Yields (bindings expression form datum) fun bindings =>
      ∀ binding ∈ bindings, binding.2.Marked false := by
  refine .skip fun split => .forall_mapM fun item _ => ?_
  refine .skip fun name => ?_
  exact (marks false item.2).bind fun init marked => .ok marked

omit marks in
theorem everywhere_of_bindings {bindings : List (Symbol × Node)} {body : Node}
    (inits : ∀ binding ∈ bindings, binding.2.Marked false) (marked : body.Marked true) :
    ∀ part ∈ body :: bindings.map (·.2), part.Everywhere MarksFit := by
  refine List.forall_mem_cons.mpr ⟨marked.everywhere, fun part member => ?_⟩
  rcases List.mem_map.mp member with ⟨binding, found, rfl⟩
  exact (inits binding found).everywhere

omit marks in
theorem letIn_marked (tail : Bool) {bindings : List (Symbol × Node)} {body : Node}
    (inits : ∀ binding ∈ bindings, binding.2.Marked false) (marked : body.Marked true) :
    (Node.letIn bindings body).Marked tail :=
  .of_parts rfl ⟨marked.tailIs, fun binding member => (inits binding member).tailIs⟩
    (everywhere_of_bindings inits marked)

omit marks in
theorem letrec_marked (tail : Bool) {bindings : List (Symbol × Node)} {body : Node}
    (inits : ∀ binding ∈ bindings, binding.2.Marked false) (marked : body.Marked true) :
    (Node.letrec bindings body).Marked tail :=
  .of_parts rfl ⟨marked.tailIs, fun binding member => (inits binding member).tailIs⟩
    (everywhere_of_bindings inits marked)

omit marks in
theorem call_marked (tail : Bool) {operator : Node} {operands : List Node}
    (head : operator.Marked false) (others : ∀ operand ∈ operands, operand.Marked false) :
    (Node.call operator operands tail).Marked tail :=
  .of_parts rfl ⟨head.tailIs, fun operand member => (others operand member).tailIs⟩
    (List.forall_mem_cons.mpr
      ⟨head.everywhere, fun operand member => (others operand member).everywhere⟩)

theorem compileNamedLet_marked (tail : Bool) (name : Value) (operands : List Value) :
    Yields (compileNamedLet expression tail name operands) (Marked tail) := by
  cases operands with
  | nil => exact .skip fun _ => .error _
  | cons datum body =>
      refine .skip fun name => ?_
      refine .skip fun split => ?_
      refine .skip fun required => ?_
      refine .skip fun _ => ?_
      refine (sequence_marked marks true body).bind fun body marked => ?_
      refine (each_marked marks _).bind fun operands others => .ok (call_marked tail ?_ others)
      refine letrec_marked false ?_ (.of_parts rfl trivial (by simp [parts]))
      refine List.forall_mem_singleton.mpr ?_
      exact .of_parts rfl marked.tailIs (by simpa [parts] using marked.everywhere)

theorem compileLet_marked (tail : Bool) (operands : List Value) :
    Yields (compileLet expression tail operands) (Marked tail) := by
  unfold compileLet
  split
  · exact .error _
  · exact compileNamedLet_marked marks tail _ _
  · refine (bindings_marked marks .letIn _).bind fun bindings inits => ?_
    refine .skip fun _ => ?_
    exact (sequence_marked marks true _).bind fun body marked =>
      .ok (letIn_marked tail inits marked)

omit marks in
theorem nest_marked (tail : Bool) {body : Node} (marked : body.Marked true)
    {bindings : List (Symbol × Node)} (inits : ∀ binding ∈ bindings, binding.2.Marked false) :
    (nest body bindings).Marked tail := by
  induction bindings generalizing tail with
  | nil => exact letIn_marked tail inits marked
  | cons binding more induction =>
      rcases List.forall_mem_cons.mp inits with ⟨init, inits⟩
      have single : ∀ other ∈ [binding], other.2.Marked false :=
        List.forall_mem_singleton.mpr init
      cases more with
      | nil => exact letIn_marked tail single marked
      | cons second rest => exact letIn_marked tail single (induction true inits)

theorem compileLetStar_marked (tail : Bool) (operands : List Value) :
    Yields (compileLetStar expression operands) (Marked tail) := by
  cases operands with
  | nil => exact .error _
  | cons datum body =>
      refine (bindings_marked marks .letStar datum).bind fun bindings inits => ?_
      exact (sequence_marked marks true body).bind fun body marked =>
        .ok (nest_marked tail marked inits)

theorem compileLetrec_marked (tail : Bool) (operands : List Value) :
    Yields (compileLetrec expression operands) (Marked tail) := by
  cases operands with
  | nil => exact .error _
  | cons datum body =>
      refine (bindings_marked marks .letrec datum).bind fun bindings inits => ?_
      refine .skip fun _ => ?_
      exact (sequence_marked marks true body).bind fun body marked =>
        .ok (letrec_marked tail inits marked)

theorem loopVariable_marked (datum : Value) :
    Yields (loopVariable expression datum) fun item =>
      ∀ part ∈ item.parts, part.Marked false := by
  unfold loopVariable
  split
  · refine .skip fun name => ?_
    exact (marks false _).bind fun init marked => .ok (by simpa [LoopVariable.parts] using marked)
  · refine .skip fun name => ?_
    refine (marks false _).bind fun init initMarked => ?_
    refine (marks false _).bind fun step stepMarked => .ok ?_
    simpa [LoopVariable.parts] using ⟨initMarked, stepMarked⟩
  · exact .error _

theorem loopResult_marked (data : List Value) :
    Yields (loopResult expression data) fun result => ∀ node ∈ result, node.Marked true := by
  cases data with
  | nil => exact .ok (by simp)
  | cons datum data =>
      refine .map ((sequence_marked marks true _).mono fun node marked => ?_)
      simpa using marked

omit marks in
theorem loop_marked (tail : Bool) {varying : List LoopVariable} {test : Node}
    {result : Option Node} {commands : List Node}
    (items : ∀ item ∈ varying, ∀ part ∈ item.parts, part.Marked false)
    (testMarked : test.Marked false) (resultMarked : ∀ node ∈ result, node.Marked true)
    (others : ∀ command ∈ commands, command.Marked false) :
    (Node.loop varying test result commands).Marked tail := by
  refine .of_parts rfl ⟨?_, testMarked.tailIs, ?_, ?_⟩ ?_
  · exact fun item member part inItem => (items item member part inItem).tailIs
  · exact fun node member => (resultMarked node member).tailIs
  · exact fun command member => (others command member).tailIs
  · intro part member
    simp only [parts, List.mem_cons, List.mem_append, List.mem_flatMap, Option.mem_toList] at member
    rcases member with rfl | ⟨item, found, inItem⟩ | found | found
    · exact testMarked.everywhere
    · exact (items item found part inItem).everywhere
    · exact (resultMarked part found).everywhere
    · exact (others part found).everywhere

theorem compileLoop_marked (tail : Bool) (operands : List Value) :
    Yields (compileLoop expression operands) (Marked tail) := by
  unfold compileLoop
  split
  · split
    · refine (Yields.forall_mapM fun datum _ => loopVariable_marked marks datum).bind
        fun varying items => ?_
      refine .skip fun _ => ?_
      split
      · refine (marks false _).bind fun test testMarked => ?_
        refine (loopResult_marked marks _).bind fun result resultMarked => ?_
        exact (each_marked marks _).bind fun commands others =>
          .ok (loop_marked tail items testMarked resultMarked others)
      · exact .error _
    · exact .error _
  · exact .error _

/-! ## Conditionals -/

omit marks in
theorem branch_marked {tail : Bool} {test consequent : Node} {alternate : Option Node}
    (testMarked : test.Marked false) (consequentMarked : consequent.Marked tail)
    (alternateMarked : ∀ node ∈ alternate, node.Marked tail) :
    (Node.branch test consequent alternate).Marked tail := by
  cases alternate with
  | none =>
      refine .of_parts ?_ testMarked.tailIs ?_
      · rw [TailIs, setTail, consequentMarked.tailIs]
      · simpa [parts] using ⟨testMarked.everywhere, consequentMarked.everywhere⟩
  | some alternate =>
      have marked := alternateMarked alternate rfl
      refine .of_parts ?_ testMarked.tailIs ?_
      · rw [TailIs, setTail, consequentMarked.tailIs, marked.tailIs]
      · simpa [parts] using
          ⟨testMarked.everywhere, consequentMarked.everywhere, marked.everywhere⟩

theorem compileBranch_marked (tail : Bool) (operands : List Value) :
    Yields (compileBranch expression tail operands) (Marked tail) := by
  unfold compileBranch
  split
  · refine (marks false _).bind fun test testMarked => ?_
    exact (marks tail _).bind fun consequent consequentMarked =>
      .ok (branch_marked testMarked consequentMarked (by simp))
  · refine (marks false _).bind fun test testMarked => ?_
    refine (marks tail _).bind fun consequent consequentMarked => ?_
    exact (marks tail _).bind fun alternate alternateMarked =>
      .ok (branch_marked testMarked consequentMarked (by simpa using alternateMarked))
  · exact .error _

theorem clauseBody_marked (tail : Bool) {test : Node} (testMarked : test.Marked false)
    (data : List Value) :
    Yields (clauseBody expression tail test data) (Clause.Marked tail) := by
  cases data with
  | nil =>
      exact .ok ⟨rfl, testMarked.tailIs, by simpa [Clause.parts] using testMarked.everywhere⟩
  | cons first more =>
      simp only [clauseBody]
      split
      · split
        · refine (marks false _).bind fun receiver marked => .ok ⟨rfl, ?_, ?_⟩
          · exact ⟨testMarked.tailIs, marked.tailIs⟩
          · simpa [Clause.parts] using ⟨testMarked.everywhere, marked.everywhere⟩
        · exact .error _
      · refine .map ((sequence_marked marks tail _).mono fun body marked =>
          ⟨?_, testMarked.tailIs, ?_⟩)
        · exact congrArg (Clause.body test) marked.tailIs
        · simpa [Clause.parts] using ⟨testMarked.everywhere, marked.everywhere⟩

theorem clause_marked (tail last : Bool) (datum : Value) :
    Yields (clause expression tail last datum) (Clause.Marked tail) := by
  unfold clause
  split
  · split
    · split
      · refine .map ((sequence_marked marks tail _).mono fun body marked => ⟨?_, trivial, ?_⟩)
        · exact congrArg Clause.otherwise marked.tailIs
        · simpa [Clause.parts] using marked.everywhere
      · exact .error _
    · exact (marks false _).bind fun test testMarked => clauseBody_marked marks tail testMarked _
  · exact .error _

theorem clauses_marked (tail : Bool) (data : List Value) :
    Yields (clauses expression tail data) fun items =>
      ∀ clause ∈ items, clause.Marked tail := by
  induction data with
  | nil => exact .ok (by simp)
  | cons datum data induction =>
      refine (clause_marked marks tail data.isEmpty datum).bind fun first marked => ?_
      exact induction.bind fun more others => .ok (List.forall_mem_cons.mpr ⟨marked, others⟩)

theorem compileCond_marked (tail : Bool) (operands : List Value) :
    Yields (compileCond expression tail operands) (Marked tail) := by
  cases operands with
  | nil => exact .error _
  | cons first rest =>
      refine .map ((clauses_marked marks tail _).mono fun items marked => ?_)
      refine .of_parts ?_ (fun clause member => (marked clause member).fit) ?_
      · exact congrArg Node.cond (Clause.setTails_eq_self marked)
      · intro part member
        rcases List.mem_flatMap.mp member with ⟨clause, found, inClause⟩
        exact (marked clause found).everywhere part inClause

/-! ## Expressions -/

theorem compileForm_marked (tail : Bool) (operands : List Value) (form : Form) :
    Yields (compileForm expression tail operands form) (Marked tail) := by
  cases form with
  | quote =>
      simp only [compileForm, compileQuote]
      split
      · exact .ok (.of_parts rfl trivial (by simp [parts]))
      · exact .error _
  | branch => exact compileBranch_marked marks tail operands
  | sequence => exact compileSequence_marked marks tail operands
  | lambda => exact compileLambda_marked marks tail operands
  | define => exact compileDefine_marked marks tail operands
  | assign => exact compileAssign_marked marks tail operands
  | letIn => exact compileLet_marked marks tail operands
  | letStar => exact compileLetStar_marked marks tail operands
  | letrec => exact compileLetrec_marked marks tail operands
  | loop => exact compileLoop_marked marks tail operands
  | cond => exact compileCond_marked marks tail operands
  | conjunction =>
      exact .map ((inOrder_marked marks tail operands).mono fun _ marked => marked.conjunction)
  | disjunction =>
      exact .map ((inOrder_marked marks tail operands).mono fun _ marked => marked.disjunction)

theorem compileCall_marked (tail : Bool) (operator operands : Value) :
    Yields (compileCall expression tail operator operands) (Marked tail) := by
  unfold compileCall
  split
  · refine (marks false operator).bind fun operator head => ?_
    exact (each_marked marks _).bind fun operands others => .ok (call_marked tail head others)
  · exact .error _

theorem compileWith_marked (tail : Bool) (datum : Value) :
    Yields (compileWith expression tail datum) (Marked tail) := by
  unfold compileWith
  split
  · exact .map fun name _ => .of_parts rfl trivial (by simp [parts])
  · split
    · split
      · exact compileForm_marked marks tail _ _
      · exact .error _
    · exact compileCall_marked marks tail _ _
  · exact .ok (literal_marked tail datum)

end

theorem withinHeight_marked (height : Nat) (tail : Bool) (datum : Value) :
    Yields (withinHeight height tail datum) (Marked tail) := by
  induction height generalizing tail datum with
  | zero =>
      exact compileWith_marked (fun tail datum => .ok (literal_marked tail datum)) tail datum
  | succ height induction => exact compileWith_marked induction tail datum

end Compiler

end SmallScheme
