import SmallScheme.Proofs.Names

namespace SmallScheme

/-! # What is compiled is an expression

If the compiler for the parts accepts only data with a property, then what a form
compiler accepts is divided as the grammar has it, into parts with the property.
The proofs follow the form compilers, each in the order in which it looks at its
operands. -/

namespace Compiler

open Grammar

section

variable {expression : Compiler} {accepted : Value → Prop}
  (sound : ∀ tail datum, Yields (expression tail datum) fun _ => accepted datum)

include sound

theorem each_sound (data : List Value) :
    Yields (each expression data) fun _ => ∀ datum ∈ data, accepted datum :=
  .items_mapM fun datum _ => sound false datum

theorem inOrder_sound (tail : Bool) (data : List Value) :
    Yields (inOrder expression tail data) fun _ => ∀ datum ∈ data, accepted datum := by
  induction data with
  | nil => exact .ok (by simp)
  | cons datum data induction =>
      cases data with
      | nil => exact (sound tail datum).bind fun _ first => .ok (by simpa using first)
      | cons second rest =>
          refine (sound false datum).bind fun _ first => ?_
          exact induction.bind fun _ others => .ok (List.forall_mem_cons.mpr ⟨first, others⟩)

theorem sequence_sound (tail : Bool) (data : List Value) :
    Yields (sequence expression tail data) fun _ => ∀ datum ∈ data, accepted datum := by
  rcases data with _ | ⟨first, _ | ⟨second, rest⟩⟩
  · exact .ok (by simp)
  · exact (sound tail first).mono fun _ holds => by simpa using holds
  · exact .map (inOrder_sound sound tail _)

theorem compileSequence_sound (tail : Bool) (operands : List Value) :
    Yields (compileSequence expression tail operands) fun _ =>
      ∀ datum ∈ operands, accepted datum := by
  cases operands with
  | nil => exact .ok (by simp)
  | cons first rest => exact sequence_sound sound tail _

theorem procedure_sound (name : Option Symbol) (parameters : Value) (body : List Value) :
    Yields (procedure expression name parameters body) fun _ =>
      IsFormals parameters ∧ ∀ datum ∈ body, accepted datum := by
  refine (formals_sound parameters).bind fun _ formals => ?_
  exact (sequence_sound sound true body).bind fun _ parts => .ok ⟨formals, parts⟩

omit sound in
theorem splitBindings_sound (form : Form) (datum : Value) :
    Yields (splitBindings form datum) fun split =>
      ∃ items, datum.items? = some items ∧
        List.Forall₂ (fun item binding => item.items? = some [binding.1, binding.2])
          items split := by
  unfold splitBindings
  split
  · rename_i items list
    refine (Yields.mapM fun item _ => ?_).mono fun split related => ⟨items, list, related⟩
    split
    · exact .ok ‹_›
    · exact .error _
  · exact .error _

omit sound in
/-- Bindings whose names have been checked. -/
theorem isBindings_of_split {items : List Value} {split : List (Value × Value)}
    {names : List Symbol}
    (written : List.Forall₂
      (fun item binding => item.items? = some [binding.1, binding.2]) items split)
    (named : List.Forall₂
      (fun binding name => binding.1 = .symbol name ∧ IsVariable name) split names) :
    ∃ bindings, List.Forall₂ IsBinding items bindings ∧ bindings.map (·.1) = names ∧
      bindings.map (·.2) = split.map (·.2) := by
  induction written generalizing names with
  | nil =>
      cases named
      exact ⟨[], .nil, rfl, rfl⟩
  | @cons item binding items split list _ induction =>
      cases named with
      | @cons _ name _ names free named =>
          rcases induction named with ⟨bindings, forms, firsts, seconds⟩
          rcases free with ⟨isName, free⟩
          rw [isName] at list
          refine ⟨(name, binding.2) :: bindings, .cons ⟨list, free⟩ forms, ?_, ?_⟩
          · rw [List.map_cons, firsts]
          · rw [List.map_cons, List.map_cons, seconds]

theorem bindings_sound (form : Form) (datum : Value) :
    Yields (bindings expression form datum) fun compiled =>
      ∃ bindings, IsBindings datum bindings ∧ bindings.map (·.1) = compiled.map (·.1) ∧
        ∀ init ∈ bindings.map (·.2), accepted init := by
  have each (binding : Value × Value) :
      Yields (do
        let name ← variableName binding.1
        let init ← expression false binding.2
        return (name, init)) fun compiled =>
          accepted binding.2 ∧ binding.1 = .symbol compiled.1 ∧ IsVariable compiled.1 := by
    refine (variableName_sound binding.1).bind fun name free => ?_
    exact (sound false binding.2).bind fun _ init => .ok ⟨init, free⟩
  refine (splitBindings_sound form datum).bind fun split ⟨items, list, written⟩ => ?_
  refine (Yields.mapM fun binding _ => each binding).mono fun compiled related => ?_
  rcases (List.forall₂_and_left _ _).mp related with ⟨inits, named⟩
  rcases isBindings_of_split written (List.forall₂_map_right_iff.mpr named) with
    ⟨bindings, forms, firsts, seconds⟩
  refine ⟨bindings, ⟨items, list, forms⟩, firsts, ?_⟩
  rw [seconds]
  exact List.forall_mem_map.mpr inits

theorem compileDefine_sound (operands : List Value) :
    Yields (compileDefine expression operands) fun _ =>
      MadeOf accepted (FormParts .define operands) := by
  unfold compileDefine
  split
  · exact .error _
  · refine (variableName_sound _).bind fun name ⟨equal, free⟩ => ?_
    subst equal
    exact (procedure_sound sound _ _ _).bind fun _ ⟨formals, parts⟩ =>
      .ok ⟨_, .defineProcedure _ free formals, parts⟩
  · refine (variableName_sound _).bind fun name ⟨equal, free⟩ => ?_
    subst equal
    split
    · exact (sound false _).bind fun _ holds =>
        .ok ⟨_, .define _ free, by simpa using holds⟩
    · exact .error _

theorem compileNamedLet_sound (tail : Bool) (name : Value) (operands : List Value) :
    Yields (compileNamedLet expression tail name operands) fun _ =>
      MadeOf accepted (FormParts .letIn (name :: operands)) := by
  cases operands with
  | nil => exact .skip fun _ => .error _
  | cons datum body =>
      refine (variableName_sound name).bind fun symbol ⟨equal, free⟩ => ?_
      subst equal
      refine (splitBindings_sound .letIn datum).bind fun split ⟨items, list, written⟩ => ?_
      refine (Yields.mapM fun binding _ => variableName_sound binding.1).bind
        fun required named => ?_
      refine (distinct_sound required).bind fun _ distinct => ?_
      refine (sequence_sound sound true body).bind fun _ parts => ?_
      refine (each_sound sound _).bind fun _ inits => .ok ?_
      rcases isBindings_of_split written named with ⟨bindings, forms, firsts, seconds⟩
      refine ⟨_, .namedLet body free ⟨items, list, forms⟩ (firsts ▸ distinct), ?_⟩
      rw [seconds]
      exact List.forall_mem_append.mpr ⟨inits, parts⟩

theorem compileLet_sound (tail : Bool) (operands : List Value) :
    Yields (compileLet expression tail operands) fun _ =>
      MadeOf accepted (FormParts .letIn operands) := by
  unfold compileLet
  split
  · exact .error _
  · exact compileNamedLet_sound sound tail _ _
  · refine (bindings_sound sound .letIn _).bind fun compiled ⟨bindings, list, firsts, inits⟩ => ?_
    refine (distinct_sound _).bind fun _ distinct => ?_
    refine (sequence_sound sound true _).bind fun _ parts => .ok ?_
    exact ⟨_, .letIn _ list (firsts ▸ distinct), List.forall_mem_append.mpr ⟨inits, parts⟩⟩

theorem compileLetStar_sound (operands : List Value) :
    Yields (compileLetStar expression operands) fun _ =>
      MadeOf accepted (FormParts .letStar operands) := by
  cases operands with
  | nil => exact .error _
  | cons datum body =>
      refine (bindings_sound sound .letStar datum).bind fun _ ⟨bindings, list, _, inits⟩ => ?_
      exact (sequence_sound sound true body).bind fun _ parts =>
        .ok ⟨_, .letStar body list, List.forall_mem_append.mpr ⟨inits, parts⟩⟩

theorem compileLetrec_sound (operands : List Value) :
    Yields (compileLetrec expression operands) fun _ =>
      MadeOf accepted (FormParts .letrec operands) := by
  cases operands with
  | nil => exact .error _
  | cons datum body =>
      refine (bindings_sound sound .letrec datum).bind fun _ ⟨bindings, list, firsts, inits⟩ => ?_
      refine (distinct_sound _).bind fun _ distinct => ?_
      refine (sequence_sound sound true body).bind fun _ parts => .ok ?_
      exact ⟨_, .letrec body list (firsts ▸ distinct), List.forall_mem_append.mpr ⟨inits, parts⟩⟩

theorem loopVariable_sound (datum : Value) :
    Yields (loopVariable expression datum) fun item =>
      ∃ varying : Varying, IsVarying datum varying ∧ varying.name = item.name ∧
        ∀ part ∈ varying.parts, accepted part := by
  unfold loopVariable
  split
  · rename_i name init list
    refine (variableName_sound name).bind fun symbol ⟨equal, free⟩ => ?_
    subst equal
    refine (sound false init).bind fun _ first => .ok ?_
    exact ⟨⟨symbol, init, none⟩, ⟨list, free⟩, rfl, by simpa [Varying.parts] using first⟩
  · rename_i name init step list
    refine (variableName_sound name).bind fun symbol ⟨equal, free⟩ => ?_
    subst equal
    refine (sound false init).bind fun _ first => ?_
    refine (sound false step).bind fun _ second => .ok ?_
    exact ⟨⟨symbol, init, some step⟩, ⟨list, free⟩, rfl,
      by simpa [Varying.parts] using ⟨first, second⟩⟩
  · exact .error _

omit sound in
/-- The unreserved of a loop, of which the compiled ones have the names. -/
theorem exists_varying {items : List Value} {compiled : List LoopVariable}
    (related : List.Forall₂
      (fun datum item => ∃ varying : Varying, IsVarying datum varying ∧
        varying.name = item.name ∧ ∀ part ∈ varying.parts, accepted part) items compiled) :
    ∃ varying : List Varying, List.Forall₂ IsVarying items varying ∧
      varying.map (·.name) = compiled.map (·.name) ∧
      ∀ part ∈ varying.flatMap Varying.parts, accepted part := by
  induction related with
  | nil => exact ⟨[], .nil, rfl, by simp⟩
  | cons first _ induction =>
      rcases first with ⟨one, written, named, parts⟩
      rcases induction with ⟨rest, forms, names, others⟩
      refine ⟨one :: rest, .cons written forms, ?_, ?_⟩
      · rw [List.map_cons, List.map_cons, named, names]
      · rw [List.flatMap_cons]
        exact List.forall_mem_append.mpr ⟨parts, others⟩

theorem loopResult_sound (data : List Value) :
    Yields (loopResult expression data) fun _ => ∀ datum ∈ data, accepted datum := by
  cases data with
  | nil => exact .ok (by simp)
  | cons first rest => exact .map (sequence_sound sound true _)

theorem compileLoop_sound (operands : List Value) :
    Yields (compileLoop expression operands) fun _ =>
      MadeOf accepted (FormParts .loop operands) := by
  unfold compileLoop
  split
  · split
    · rename_i items list
      refine (Yields.mapM fun datum _ => loopVariable_sound sound datum).bind
        fun compiled related => ?_
      rcases exists_varying related with ⟨varying, forms, names, steps⟩
      refine (distinct_sound _).bind fun _ distinct => ?_
      split
      · rename_i test results clause
        refine (sound false test).bind fun _ first => ?_
        refine (loopResult_sound sound results).bind fun _ others => ?_
        refine (each_sound sound _).bind fun _ commands => .ok ?_
        refine ⟨_, .loop _ list forms (names ▸ distinct) clause, ?_⟩
        refine List.forall_mem_append.mpr ⟨steps, List.forall_mem_append.mpr ⟨?_, commands⟩⟩
        exact List.forall_mem_cons.mpr ⟨first, others⟩
      · exact .error _
    · exact .error _
  · exact .error _

theorem compileBranch_sound (tail : Bool) (operands : List Value) :
    Yields (compileBranch expression tail operands) fun _ =>
      MadeOf accepted (FormParts .branch operands) := by
  unfold compileBranch
  split
  · refine (sound false _).bind fun _ first => ?_
    refine (sound tail _).bind fun _ second => .ok ⟨_, .branch _ _, ?_⟩
    simpa using ⟨first, second⟩
  · refine (sound false _).bind fun _ first => ?_
    refine (sound tail _).bind fun _ second => ?_
    refine (sound tail _).bind fun _ third => .ok ⟨_, .branchElse _ _ _, ?_⟩
    simpa using ⟨first, second, third⟩
  · exact .error _

theorem clauseBody_sound (tail last : Bool) (test : Node) {datum head : Value}
    {more : List Value} (list : datum.items? = some (head :: more)) (first : accepted head) :
    Yields (clauseBody expression tail test more) fun _ =>
      MadeOf accepted (ClauseParts last datum) := by
  cases more with
  | nil => exact .ok ⟨_, .body list, by simpa using first⟩
  | cons second others =>
      unfold clauseBody
      dsimp only
      split
      · rename_i isArrow
        rw [(isSymbol_iff _ _).mp isArrow] at list
        split
        · exact (sound false _).bind fun _ receiver =>
            .ok ⟨_, .arrow list, by simpa using ⟨first, receiver⟩⟩
        · exact .error _
      · exact .map ((sequence_sound sound tail _).mono fun _ parts =>
          ⟨_, .body list, List.forall_mem_cons.mpr ⟨first, parts⟩⟩)

theorem clause_sound (tail last : Bool) (datum : Value) :
    Yields (clause expression tail last datum) fun _ =>
      MadeOf accepted (ClauseParts last datum) := by
  unfold clause
  split
  · rename_i head more list
    split
    · rename_i isElse
      rw [(isSymbol_iff _ _).mp isElse] at list
      split
      · rename_i isLast
        exact .map ((sequence_sound sound tail more).mono fun _ parts =>
          ⟨more, .otherwise isLast list, parts⟩)
      · exact .error _
    · exact (sound false head).bind fun test first =>
        clauseBody_sound sound tail last test list first
  · exact .error _

theorem clauses_sound (tail : Bool) (data : List Value) (nonempty : data ≠ []) :
    Yields (clauses expression tail data) fun _ =>
      MadeOf accepted (ClausesParts data) := by
  induction data with
  | nil => exact absurd rfl nonempty
  | cons datum data induction =>
      refine (clause_sound sound tail data.isEmpty datum).bind
        fun _ ⟨parts, clause, first⟩ => ?_
      cases data with
      | nil => exact .skip fun _ => .ok ⟨parts, .last clause, first⟩
      | cons next data =>
          exact (induction (by simp)).bind fun _ ⟨more, rest, others⟩ =>
            .ok ⟨parts ++ more, .cons clause rest, List.forall_mem_append.mpr ⟨first, others⟩⟩

theorem compileAssign_sound (operands : List Value) :
    Yields (compileAssign expression operands) fun _ =>
      MadeOf accepted (FormParts .assign operands) := by
  unfold compileAssign
  split
  · refine (variableName_sound _).bind fun name ⟨equal, free⟩ => ?_
    subst equal
    exact (sound false _).bind fun _ holds => .ok ⟨_, .assign _ free, by simpa using holds⟩
  · exact .error _

theorem compileForm_sound (tail : Bool) (operands : List Value) (form : Form) :
    Yields (compileForm expression tail operands form) fun _ =>
      MadeOf accepted (FormParts form operands) := by
  cases form with
  | quote =>
      change Yields (compileQuote operands) _
      unfold compileQuote
      split
      · exact .ok ⟨[], .quote _, by simp⟩
      · exact .error _
  | branch => exact compileBranch_sound sound tail operands
  | sequence =>
      exact (compileSequence_sound sound tail operands).mono fun _ parts =>
        ⟨operands, .sequence operands, parts⟩
  | lambda =>
      cases operands with
      | nil => exact .error _
      | cons parameters body =>
          exact (procedure_sound sound none parameters body).mono fun _ ⟨formals, parts⟩ =>
            ⟨body, .lambda body formals, parts⟩
  | define => exact compileDefine_sound sound operands
  | assign => exact compileAssign_sound sound operands
  | letIn => exact compileLet_sound sound tail operands
  | letStar => exact compileLetStar_sound sound operands
  | letrec => exact compileLetrec_sound sound operands
  | loop => exact compileLoop_sound sound operands
  | cond =>
      cases operands with
      | nil => exact .error _
      | cons datum data =>
          exact .map ((clauses_sound sound tail _ (by simp)).mono fun _ ⟨parts, written, holds⟩ =>
            ⟨parts, .cond written, holds⟩)
  | conjunction =>
      exact .map ((inOrder_sound sound tail operands).mono fun _ parts =>
        ⟨operands, .conjunction operands, parts⟩)
  | disjunction =>
      exact .map ((inOrder_sound sound tail operands).mono fun _ parts =>
        ⟨operands, .disjunction operands, parts⟩)

theorem compileWith_sound (tail : Bool) (datum : Value) :
    Yields (compileWith expression tail datum) fun _ => MadeOf accepted (Phrase datum) := by
  cases datum with
  | symbol name =>
      refine .map ((variableName_sound _).mono fun _ ⟨equal, free⟩ => ?_)
      cases equal
      exact ⟨[], .name free, by simp⟩
  | pair place head operands =>
      rw [compileWith]
      split
      · rename_i form found
        split
        · rename_i items list
          refine (compileForm_sound sound tail items form).mono fun _ ⟨parts, written, holds⟩ => ?_
          have whole : (Datum.pair place head operands).items? =
              some (.symbol ⟨form.name⟩ :: items) := by
            rw [Datum.items?, list, (formOf?_eq_some_iff head form).mp found]
            rfl
          exact ⟨parts, .form whole written, holds⟩
        · exact .error _
      · rename_i noForm
        unfold compileCall
        split
        · rename_i items list
          refine (sound false head).bind fun _ first => ?_
          refine (each_sound sound items).bind fun _ others => .ok ?_
          have whole : (Datum.pair place head operands).items? = some (head :: items) := by
            rw [Datum.items?, list]
            rfl
          refine ⟨_, .call whole fun form equal => ?_, List.forall_mem_cons.mpr ⟨first, others⟩⟩
          rw [(formOf?_eq_some_iff head form).mpr equal] at noForm
          cases noForm
        · exact .error _
  | _ => exact .ok ⟨[], .literal rfl rfl, by simp⟩

end

end Compiler

end SmallScheme
