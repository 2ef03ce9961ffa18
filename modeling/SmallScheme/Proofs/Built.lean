import SmallScheme.Proofs.Names
import SmallScheme.Proofs.Parts
import SmallScheme.Proofs.Procedures

namespace SmallScheme

/-! # What the compiler builds

Everywhere in compiled code, the names that one node binds are variables and differ,
constants have no procedures in them that the datum had not, a sequence is not that of a
single expression, and only the last clause of a `cond` has no test. -/

open Grammar

/-- Names that can be bound together. -/
def AreVariables (names : List Symbol) : Prop :=
  names.Nodup ∧ ∀ name ∈ names, IsVariable name

/-- What the compiler ensures of a node, apart from the nodes below it. -/
def Node.Built (known : Procedure → Prop) : Node → Prop
  | .literal value => value.Procedures known
  | .quote value => value.Procedures known
  | .variable name => IsVariable name
  | .define name _ => IsVariable name
  | .assign name _ => IsVariable name
  | .lambda name formals _ => (∀ own ∈ name, IsVariable own) ∧ AreVariables formals.names
  | .letIn bindings _ => AreVariables (bindings.map (·.1))
  | .letrec bindings _ => AreVariables (bindings.map (·.1))
  | .loop varying _ _ _ => AreVariables (varying.map (·.name))
  | .cond clauses => clauses ≠ [] ∧ ∀ clause ∈ clauses.dropLast, ∀ body, clause ≠ .otherwise body
  | .sequence parts => parts.length ≠ 1
  | _ => True

/-- Built by the compiler, with all nodes below. -/
def Node.AllBuilt (known : Procedure → Prop) : Node → Prop :=
  Node.Everywhere (Node.Built known)

theorem Node.AllBuilt.of_parts {known : Procedure → Prop} {node : Node}
    (built : node.Built known) (below : ∀ part ∈ node.parts, part.AllBuilt known) :
    node.AllBuilt known :=
  everywhere_iff.mpr ⟨built, below⟩

namespace Compiler

open Node

/-! ## Names -/

theorem variableName_isVariable (datum : Value) : Yields (variableName datum) IsVariable :=
  (variableName_sound datum).mono fun _ free => free.2

theorem isVariable_of_formalNames {datum : Value} {names : List Symbol}
    (written : FormalNames datum names) : ∀ name ∈ names, IsVariable name := by
  induction written with
  | nil => simp
  | rest free => simpa using free
  | cons free _ induction => exact List.forall_mem_cons.mpr ⟨free, induction⟩

theorem formals_areVariables (datum : Value) :
    Yields (formals datum) fun formals => AreVariables formals.names := by
  refine (formalNames_sound datum).bind fun formals written => ?_
  exact (distinct_sound _).bind fun _ distinct =>
    .ok ⟨distinct, isVariable_of_formalNames written⟩

/-! ## Sequences and definitions -/

section

variable {known : Procedure → Prop} {expression : Compiler}
  (builds : ∀ tail datum, datum.Procedures known →
    Yields (expression tail datum) (AllBuilt known))
  {data operands : List Value}

theorem literal_built {value : Value} (procedures : value.Procedures known) :
    (literal value).AllBuilt known :=
  .of_parts procedures (by simp [parts])

include builds

theorem each_built (procedures : ∀ datum ∈ data, datum.Procedures known) :
    Yields (each expression data) fun nodes => ∀ node ∈ nodes, node.AllBuilt known :=
  .forall_mapM fun datum member => builds false datum (procedures datum member)

theorem inOrder_built (tail : Bool) (procedures : ∀ datum ∈ data, datum.Procedures known) :
    Yields (inOrder expression tail data) fun nodes =>
      nodes.length = data.length ∧ ∀ node ∈ nodes, node.AllBuilt known := by
  fun_induction inOrder expression tail data with
  | case1 => exact .ok ⟨rfl, by simp⟩
  | case2 last =>
      refine (builds tail last (by simpa using procedures)).bind fun node built => ?_
      exact .ok ⟨rfl, by simpa using built⟩
  | case3 datum data _ induction =>
      have ⟨first, others⟩ := List.forall_mem_cons.mp procedures
      refine (builds false datum first).bind fun node built => ?_
      refine (induction others).bind fun nodes ⟨length, allBuilt⟩ => .ok ⟨?_, ?_⟩
      · simp [length]
      · exact List.forall_mem_cons.mpr ⟨built, allBuilt⟩

theorem sequence_built (tail : Bool) (procedures : ∀ datum ∈ data, datum.Procedures known) :
    Yields (sequence expression tail data) (AllBuilt known) := by
  unfold sequence
  split
  · exact .ok (literal_built trivial)
  · exact builds tail _ (by simpa using procedures)
  · rename_i notEmpty notSingle
    refine .map ((inOrder_built builds tail procedures).mono fun nodes ⟨length, built⟩ => ?_)
    refine .of_parts ?_ built
    intro single
    obtain ⟨only, rfl⟩ := List.length_eq_one_iff.mp (length.symm.trans single)
    exact notSingle only rfl

theorem compileSequence_built (tail : Bool)
    (procedures : ∀ datum ∈ operands, datum.Procedures known) :
    Yields (compileSequence expression tail operands) (AllBuilt known) := by
  unfold compileSequence
  split
  · exact .ok (.of_parts (by simp [Built]) (by simp [parts]))
  · exact sequence_built builds tail procedures

theorem procedure_built {name : Option Symbol} (free : ∀ own ∈ name, IsVariable own)
    (parameters : Value) (procedures : ∀ datum ∈ data, datum.Procedures known) :
    Yields (procedure expression name parameters data) (AllBuilt known) := by
  refine (formals_areVariables parameters).bind fun formals areVariables => ?_
  refine (sequence_built builds true procedures).bind fun body built => ?_
  exact .ok (.of_parts ⟨free, areVariables⟩ (by simpa [parts] using built))

theorem compileLambda_built (procedures : ∀ datum ∈ operands, datum.Procedures known) :
    Yields (compileLambda expression operands) (AllBuilt known) := by
  unfold compileLambda
  split
  · exact procedure_built builds (by simp) _ (List.forall_mem_cons.mp procedures).2
  · exact .error _

omit builds in
theorem named_built {name : Symbol} (isVariable : IsVariable name) {node : Node}
    (built : node.AllBuilt known) : (named name node).AllBuilt known := by
  unfold named
  split
  · have ⟨here, below⟩ := everywhere_iff.mp built
    exact .of_parts ⟨by simpa using isVariable, here.2⟩ below
  · exact built

theorem compileDefine_built (procedures : ∀ datum ∈ operands, datum.Procedures known) :
    Yields (compileDefine expression operands) (AllBuilt known) := by
  unfold compileDefine
  split
  · exact .error _
  · refine (variableName_isVariable _).bind fun name isVariable => ?_
    have body := (List.forall_mem_cons.mp procedures).2
    refine (procedure_built builds (by simpa using isVariable) _ body).bind fun value built => ?_
    exact .ok (.of_parts isVariable (by simpa [parts] using built))
  · refine (variableName_isVariable _).bind fun name isVariable => ?_
    split
    · have value := (List.forall_mem_cons.mp procedures).2
      refine (builds false _ (by simpa using value)).bind fun value built => ?_
      exact .ok (.of_parts isVariable (by simpa [parts] using named_built isVariable built))
    · exact .error _

theorem compileAssign_built (procedures : ∀ datum ∈ operands, datum.Procedures known) :
    Yields (compileAssign expression operands) (AllBuilt known) := by
  unfold compileAssign
  split
  · refine (variableName_isVariable _).bind fun name isVariable => ?_
    refine (builds false _ (procedures _ (by simp))).bind fun value built => ?_
    exact .ok (.of_parts isVariable (by simpa [parts] using built))
  · exact .error _

/-! ## Bindings -/

omit builds in
theorem splitBindings_procedures (form : Form) {datum : Value}
    (procedures : datum.Procedures known) :
    Yields (splitBindings form datum) fun split =>
      ∀ item ∈ split, item.2.Procedures known := by
  unfold splitBindings
  split
  · rename_i items found
    refine .forall_mapM fun binding member => ?_
    have inBinding := procedures.items found binding member
    split
    · rename_i two
      exact .ok (inBinding.items two _ (by simp))
    · exact .error _
  · exact .error _

theorem bindings_built (form : Form) {datum : Value} (procedures : datum.Procedures known) :
    Yields (bindings expression form datum) fun bindings =>
      ∀ binding ∈ bindings, IsVariable binding.1 ∧ binding.2.AllBuilt known := by
  refine (splitBindings_procedures form procedures).bind fun split inits => ?_
  refine .forall_mapM fun item member => ?_
  refine (variableName_isVariable item.1).bind fun name isVariable => ?_
  exact (builds false item.2 (inits item member)).bind fun init built => .ok ⟨isVariable, built⟩

omit builds in
theorem areVariables_bindings {bindings : List (Symbol × Node)}
    (built : ∀ binding ∈ bindings, IsVariable binding.1 ∧ binding.2.AllBuilt known)
    (distinct : (bindings.map (·.1)).Nodup) : AreVariables (bindings.map (·.1)) := by
  refine ⟨distinct, fun name member => ?_⟩
  obtain ⟨binding, found, rfl⟩ := List.mem_map.mp member
  exact (built binding found).1

omit builds in
theorem bindings_parts {bindings : List (Symbol × Node)} {body : Node}
    (built : ∀ binding ∈ bindings, IsVariable binding.1 ∧ binding.2.AllBuilt known)
    (bodyBuilt : body.AllBuilt known) :
    ∀ part ∈ body :: bindings.map (·.2), part.AllBuilt known := by
  refine List.forall_mem_cons.mpr ⟨bodyBuilt, fun part member => ?_⟩
  obtain ⟨binding, found, rfl⟩ := List.mem_map.mp member
  exact (built binding found).2

theorem compileNamedLet_built (tail : Bool) (name : Value)
    (procedures : ∀ datum ∈ operands, datum.Procedures known) :
    Yields (compileNamedLet expression tail name operands) (AllBuilt known) := by
  cases operands with
  | nil => exact .skip fun _ => .error _
  | cons datum body =>
      have ⟨split, bodyProcedures⟩ := List.forall_mem_cons.mp procedures
      refine (variableName_isVariable name).bind fun name isVariable => ?_
      refine (splitBindings_procedures .letIn split).bind fun split inits => ?_
      refine (Yields.forall_mapM fun item _ => variableName_isVariable item.1).bind
        fun required areVariables => ?_
      refine (distinct_sound required).bind fun _ distinct => ?_
      refine (sequence_built builds true bodyProcedures).bind fun body bodyBuilt => ?_
      have operandsKnown : ∀ init ∈ split.map (·.2), init.Procedures known :=
        List.forall_mem_map.mpr inits
      refine (each_built builds operandsKnown).bind fun operands built => ?_
      have lambdaBuilt : (Node.lambda none ⟨required, none⟩ body).AllBuilt known :=
        .of_parts ⟨by simp, by simpa [AreVariables, Formals.names] using ⟨distinct, areVariables⟩⟩
          (by simpa [parts] using bodyBuilt)
      have variableBuilt : (Node.variable name).AllBuilt known :=
        .of_parts isVariable (by simp [parts])
      have loopBuilt : (Node.letrec [(name, .lambda none ⟨required, none⟩ body)]
          (.variable name)).AllBuilt known :=
        .of_parts (by simpa [Built, AreVariables] using isVariable)
          (by simpa [parts] using ⟨variableBuilt, lambdaBuilt⟩)
      exact .ok (.of_parts trivial (List.forall_mem_cons.mpr ⟨loopBuilt, built⟩))

theorem compileLet_built (tail : Bool) (procedures : ∀ datum ∈ operands, datum.Procedures known) :
    Yields (compileLet expression tail operands) (AllBuilt known) := by
  unfold compileLet
  split
  · exact .error _
  · exact compileNamedLet_built builds tail _ (List.forall_mem_cons.mp procedures).2
  · have ⟨first, body⟩ := List.forall_mem_cons.mp procedures
    refine (bindings_built builds .letIn first).bind fun bindings built => ?_
    refine (distinct_sound _).bind fun _ distinct => ?_
    refine (sequence_built builds true body).bind fun body bodyBuilt => ?_
    exact .ok (.of_parts (areVariables_bindings built distinct) (bindings_parts built bodyBuilt))

omit builds in
theorem nest_built {body : Node} (bodyBuilt : body.AllBuilt known)
    {bindings : List (Symbol × Node)}
    (built : ∀ binding ∈ bindings, IsVariable binding.1 ∧ binding.2.AllBuilt known) :
    (nest body bindings).AllBuilt known := by
  have single {binding : Symbol × Node} {inner : Node}
      (built : IsVariable binding.1 ∧ binding.2.AllBuilt known)
      (innerBuilt : inner.AllBuilt known) : (Node.letIn [binding] inner).AllBuilt known :=
    .of_parts (by simpa [Built, AreVariables] using built.1)
      (by simpa [parts] using ⟨innerBuilt, built.2⟩)
  induction bindings with
  | nil =>
      simp only [nest]
      exact .of_parts (by simp [Built, AreVariables]) (by simpa [parts] using bodyBuilt)
  | cons binding more induction =>
      have ⟨first, others⟩ := List.forall_mem_cons.mp built
      cases more with
      | nil => exact single first bodyBuilt
      | cons second rest => exact single first (induction others)

theorem compileLetStar_built (procedures : ∀ datum ∈ operands, datum.Procedures known) :
    Yields (compileLetStar expression operands) (AllBuilt known) := by
  cases operands with
  | nil => exact .error _
  | cons datum body =>
      have ⟨first, body⟩ := List.forall_mem_cons.mp procedures
      refine (bindings_built builds .letStar first).bind fun bindings built => ?_
      exact (sequence_built builds true body).bind fun body bodyBuilt =>
        .ok (nest_built bodyBuilt built)

theorem compileLetrec_built (procedures : ∀ datum ∈ operands, datum.Procedures known) :
    Yields (compileLetrec expression operands) (AllBuilt known) := by
  cases operands with
  | nil => exact .error _
  | cons datum body =>
      have ⟨first, body⟩ := List.forall_mem_cons.mp procedures
      refine (bindings_built builds .letrec first).bind fun bindings built => ?_
      refine (distinct_sound _).bind fun _ distinct => ?_
      refine (sequence_built builds true body).bind fun body bodyBuilt => ?_
      exact .ok (.of_parts (areVariables_bindings built distinct) (bindings_parts built bodyBuilt))

theorem loopVariable_built {datum : Value} (procedures : datum.Procedures known) :
    Yields (loopVariable expression datum) fun item =>
      IsVariable item.name ∧ ∀ part ∈ item.parts, part.AllBuilt known := by
  unfold loopVariable
  split
  · rename_i name init found
    have inDatum := procedures.items found
    refine (variableName_isVariable _).bind fun name isVariable => ?_
    refine (builds false init (inDatum init (by simp))).bind fun init built => ?_
    exact .ok ⟨isVariable, by simpa [LoopVariable.parts] using built⟩
  · rename_i name init step found
    have inDatum := procedures.items found
    refine (variableName_isVariable _).bind fun name isVariable => ?_
    refine (builds false init (inDatum init (by simp))).bind fun init built => ?_
    refine (builds false step (inDatum step (by simp))).bind fun step stepBuilt => ?_
    exact .ok ⟨isVariable, by simpa [LoopVariable.parts] using ⟨built, stepBuilt⟩⟩
  · exact .error _

theorem loopResult_built (procedures : ∀ datum ∈ data, datum.Procedures known) :
    Yields (loopResult expression data) fun result => ∀ node ∈ result, node.AllBuilt known := by
  unfold loopResult
  split
  · exact .ok (by simp)
  · exact .map ((sequence_built builds true procedures).mono fun node built => by simpa using built)

theorem compileLoop_built (procedures : ∀ datum ∈ operands, datum.Procedures known) :
    Yields (compileLoop expression operands) (AllBuilt known) := by
  unfold compileLoop
  split
  · rename_i specifications clause commands
    have ⟨inSpecifications, others⟩ := List.forall_mem_cons.mp procedures
    have ⟨inClause, inCommands⟩ := List.forall_mem_cons.mp others
    split
    · rename_i items found
      refine (Yields.forall_mapM fun item member =>
        loopVariable_built builds (inSpecifications.items found item member)).bind
          fun varying built => ?_
      refine (distinct_sound _).bind fun _ distinct => ?_
      split
      · rename_i test results split
        have ⟨inTest, inResults⟩ := List.forall_mem_cons.mp (inClause.items split)
        refine (builds false test inTest).bind fun test testBuilt => ?_
        refine (loopResult_built builds inResults).bind fun result resultBuilt => ?_
        refine (each_built builds inCommands).bind fun commands commandsBuilt => ?_
        have areVariables : AreVariables (varying.map (·.name)) :=
          ⟨distinct, List.forall_mem_map.mpr fun item member => (built item member).1⟩
        refine .ok (.of_parts areVariables ?_)
        simp only [parts, List.mem_cons, List.mem_append, List.mem_flatMap, Option.mem_toList]
        rintro part (rfl | ⟨item, member, inItem⟩ | member | member)
        · exact testBuilt
        · exact (built item member).2 part inItem
        · exact resultBuilt part member
        · exact commandsBuilt part member
      · exact .error _
    · exact .error _
  · exact .error _

/-! ## Conditionals -/

theorem compileBranch_built (tail : Bool)
    (procedures : ∀ datum ∈ operands, datum.Procedures known) :
    Yields (compileBranch expression tail operands) (AllBuilt known) := by
  unfold compileBranch
  split
  · refine (builds false _ (procedures _ (by simp))).bind fun test testBuilt => ?_
    refine (builds tail _ (procedures _ (by simp))).bind fun consequent consequentBuilt => ?_
    exact .ok (.of_parts trivial (by simpa [parts] using ⟨testBuilt, consequentBuilt⟩))
  · refine (builds false _ (procedures _ (by simp))).bind fun test testBuilt => ?_
    refine (builds tail _ (procedures _ (by simp))).bind fun consequent consequentBuilt => ?_
    refine (builds tail _ (procedures _ (by simp))).bind fun alternate alternateBuilt => ?_
    exact .ok (.of_parts trivial
      (by simpa [parts] using ⟨testBuilt, consequentBuilt, alternateBuilt⟩))
  · exact .error _

theorem clauseBody_built (tail : Bool) {test : Node} (testBuilt : test.AllBuilt known)
    (procedures : ∀ datum ∈ data, datum.Procedures known) :
    Yields (clauseBody expression tail test data) fun clause =>
      (∀ body, clause ≠ .otherwise body) ∧ ∀ part ∈ clause.parts, part.AllBuilt known := by
  cases data with
  | nil => exact .ok ⟨by simp, by simpa [Clause.parts] using testBuilt⟩
  | cons first more =>
      simp only [clauseBody]
      split
      · split
        · refine (builds false _ (procedures _ (by simp))).bind fun receiver built => ?_
          exact .ok ⟨by simp, by simpa [Clause.parts] using ⟨testBuilt, built⟩⟩
        · exact .error _
      · refine .map ((sequence_built builds tail procedures).mono fun body built => ?_)
        exact ⟨by simp, by simpa [Clause.parts] using ⟨testBuilt, built⟩⟩

theorem clause_built (tail last : Bool) {datum : Value} (procedures : datum.Procedures known) :
    Yields (clause expression tail last datum) fun clause =>
      (last = false → ∀ body, clause ≠ .otherwise body) ∧
        ∀ part ∈ clause.parts, part.AllBuilt known := by
  unfold clause
  split
  · rename_i head more found
    have ⟨inHead, inMore⟩ := List.forall_mem_cons.mp (procedures.items found)
    split
    · split
      · rename_i isLast
        refine .map ((sequence_built builds tail inMore).mono fun body built => ?_)
        exact ⟨by simp [isLast], by simpa [Clause.parts] using built⟩
      · exact .error _
    · refine (builds false head inHead).bind fun test testBuilt => ?_
      exact (clauseBody_built builds tail testBuilt inMore).mono fun clause built =>
        ⟨fun _ => built.1, built.2⟩
  · exact .error _

theorem clauses_built (tail : Bool) (procedures : ∀ datum ∈ data, datum.Procedures known) :
    Yields (clauses expression tail data) fun items =>
      items.length = data.length ∧ (∀ clause ∈ items.dropLast, ∀ body, clause ≠ .otherwise body) ∧
        ∀ clause ∈ items, ∀ part ∈ clause.parts, part.AllBuilt known := by
  induction data with
  | nil => exact .ok (by simp)
  | cons datum data induction =>
      have ⟨first, others⟩ := List.forall_mem_cons.mp procedures
      refine (clause_built builds tail data.isEmpty first).bind fun item ⟨inner, built⟩ => ?_
      refine (induction others).bind fun items ⟨length, tested, allBuilt⟩ => .ok ⟨?_, ?_, ?_⟩
      · simp [length]
      · cases items with
        | nil => simp
        | cons second rest =>
            have notLast : data.isEmpty = false := by cases data <;> simp_all
            exact List.forall_mem_cons.mpr ⟨inner notLast, tested⟩
      · exact List.forall_mem_cons.mpr ⟨built, allBuilt⟩

theorem compileCond_built (tail : Bool)
    (procedures : ∀ datum ∈ operands, datum.Procedures known) :
    Yields (compileCond expression tail operands) (AllBuilt known) := by
  cases operands with
  | nil => exact .error _
  | cons first rest =>
      refine .map ((clauses_built builds tail procedures).mono
        fun items ⟨length, tested, built⟩ => ?_)
      refine .of_parts ⟨?_, tested⟩ ?_
      · rintro rfl
        cases length
      · intro part member
        obtain ⟨clause, found, inClause⟩ := List.mem_flatMap.mp member
        exact built clause found part inClause

/-! ## Expressions -/

theorem compileForm_built (tail : Bool) (procedures : ∀ datum ∈ operands, datum.Procedures known)
    (form : Form) : Yields (compileForm expression tail operands form) (AllBuilt known) := by
  cases form with
  | quote =>
      simp only [compileForm, compileQuote]
      split
      · exact .ok (.of_parts (procedures _ (by simp)) (by simp [parts]))
      · exact .error _
  | branch => exact compileBranch_built builds tail procedures
  | sequence => exact compileSequence_built builds tail procedures
  | lambda => exact compileLambda_built builds procedures
  | define => exact compileDefine_built builds procedures
  | assign => exact compileAssign_built builds procedures
  | letIn => exact compileLet_built builds tail procedures
  | letStar => exact compileLetStar_built builds procedures
  | letrec => exact compileLetrec_built builds procedures
  | loop => exact compileLoop_built builds procedures
  | cond => exact compileCond_built builds tail procedures
  | conjunction =>
      refine .map ((inOrder_built builds tail procedures).mono fun nodes built => ?_)
      exact .of_parts trivial built.2
  | disjunction =>
      refine .map ((inOrder_built builds tail procedures).mono fun nodes built => ?_)
      exact .of_parts trivial built.2

theorem compileCall_built (tail : Bool) {operator rest : Value}
    (head : operator.Procedures known) (procedures : rest.Procedures known) :
    Yields (compileCall expression tail operator rest) (AllBuilt known) := by
  unfold compileCall
  split
  · rename_i operands found
    refine (builds false operator head).bind fun operator operatorBuilt => ?_
    refine (each_built builds (procedures.items found)).bind fun operands built => ?_
    exact .ok (.of_parts trivial (List.forall_mem_cons.mpr ⟨operatorBuilt, built⟩))
  · exact .error _

theorem compileWith_built (tail : Bool) {datum : Value} (procedures : datum.Procedures known) :
    Yields (compileWith expression tail datum) (AllBuilt known) := by
  unfold compileWith
  split
  · refine .map ((variableName_isVariable _).mono fun name isVariable => ?_)
    exact .of_parts isVariable (by simp [parts])
  · split
    · split
      · rename_i found
        exact compileForm_built builds tail (procedures.2.items found) _
      · exact .error _
    · exact compileCall_built builds tail procedures.1 procedures.2
  · exact .ok (literal_built procedures)

end

theorem withinHeight_built {known : Procedure → Prop} (height : Nat) (tail : Bool) (datum : Value)
    (procedures : datum.Procedures known) :
    Yields (withinHeight height tail datum) (AllBuilt known) := by
  induction height generalizing tail datum with
  | zero => exact compileWith_built (fun _ _ inner => .ok (literal_built inner)) tail procedures
  | succ height induction => exact compileWith_built induction tail procedures

end Compiler

theorem Node.compile_built {known : Procedure → Prop} (tail : Bool) {datum : Value}
    (procedures : datum.Procedures known) : Yields (compile tail datum) (AllBuilt known) :=
  Compiler.withinHeight_built datum.height tail datum procedures

end SmallScheme
