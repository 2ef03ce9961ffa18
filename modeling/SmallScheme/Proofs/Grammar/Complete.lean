import SmallScheme.Proofs.Names

namespace SmallScheme

/-! # Expressions are compiled

If the compiler for the parts accepts all data with a property, then operands that
the grammar divides into parts with the property are accepted. The proofs follow
the grammar. -/

namespace Compiler

open Grammar

section

variable {expression : Compiler} {accepted : Value → Prop}
  (complete : ∀ tail datum, accepted datum → Gives (expression tail datum) fun _ => True)

include complete

theorem each_complete {data : List Value} (parts : ∀ datum ∈ data, accepted datum) :
    Gives (each expression data) fun _ => True := by
  have same : List.Forall₂ (· = ·) data data := List.forall₂_same.mpr fun _ _ => rfl
  have compiled (item : Value) (datum) (member : datum ∈ data) (equal : item = datum) :
      Gives (expression false item) fun _ => True := by
    rw [equal]
    exact complete false datum (parts datum member)
  exact (Gives.mapM same compiled).mono fun _ _ => trivial

theorem inOrder_complete (tail : Bool) {data : List Value}
    (parts : ∀ datum ∈ data, accepted datum) :
    Gives (inOrder expression tail data) fun _ => True := by
  induction data with
  | nil => exact .ok trivial
  | cons datum data induction =>
      rcases List.forall_mem_cons.mp parts with ⟨first, others⟩
      cases data with
      | nil => exact (complete tail datum first).bind fun _ _ => .ok trivial
      | cons second rest =>
          refine (complete false datum first).bind fun _ _ => ?_
          exact (induction others).bind fun _ _ => .ok trivial

theorem sequence_complete (tail : Bool) {data : List Value}
    (parts : ∀ datum ∈ data, accepted datum) :
    Gives (sequence expression tail data) fun _ => True := by
  rcases data with _ | ⟨first, _ | ⟨second, rest⟩⟩
  · exact .ok trivial
  · exact complete tail first (parts first (by simp))
  · exact .map (inOrder_complete complete tail parts)

theorem procedure_complete (name : Option Symbol) {parameters : Value} {body : List Value}
    (formals : IsFormals parameters) (parts : ∀ datum ∈ body, accepted datum) :
    Gives (procedure expression name parameters body) fun _ => True := by
  refine (formals_complete formals).bind fun _ _ => ?_
  exact (sequence_complete complete true parts).bind fun _ _ => .ok trivial

omit complete in
theorem splitBindings_complete (form : Form) {datum : Value}
    {bindings : List (Symbol × Value)} (written : IsBindings datum bindings) :
    Gives (splitBindings form datum) fun split =>
      List.Forall₂ (fun pair binding => pair = (.symbol binding.1, binding.2) ∧
        IsVariable binding.1) split bindings := by
  rcases written with ⟨items, list, forms⟩
  unfold splitBindings
  rw [list]
  refine Gives.mapM forms fun item binding _ ⟨binds, free⟩ => ?_
  rw [binds]
  exact .ok ⟨rfl, free⟩

omit complete in
theorem map_eq_map_of_forall₂ {α β γ : Type} {first : α → γ} {second : β → γ} {xs : List α}
    {ys : List β} (related : List.Forall₂ (fun x y => first x = second y) xs ys) :
    xs.map first = ys.map second := by
  rw [← List.forall₂_eq_eq_eq]
  exact List.forall₂_map_left_iff.mpr (List.forall₂_map_right_iff.mpr related)

theorem bindings_complete (form : Form) {datum : Value} {bindings : List (Symbol × Value)}
    (written : IsBindings datum bindings) (inits : ∀ init ∈ bindings.map (·.2), accepted init) :
    Gives (Compiler.bindings expression form datum) fun compiled =>
      compiled.map (·.1) = bindings.map (·.1) := by
  refine (splitBindings_complete form written).bind fun split related => ?_
  refine (Gives.mapM related fun pair binding member ⟨equal, free⟩ => ?_).mono
    fun compiled names => map_eq_map_of_forall₂ names
  subst equal
  have init : accepted binding.2 := inits _ (List.mem_map_of_mem member)
  dsimp only
  rw [variableName_symbol free]
  exact (complete false binding.2 init).bind fun _ _ => .ok rfl

theorem compileNamedLet_complete (tail : Bool) {name : Symbol} {datum : Value}
    {bindings : List (Symbol × Value)} {body : List Value} (free : IsVariable name)
    (written : IsBindings datum bindings) (apart : (bindings.map (·.1)).Nodup)
    (inits : ∀ init ∈ bindings.map (·.2), accepted init)
    (parts : ∀ part ∈ body, accepted part) :
    Gives (compileNamedLet expression tail (.symbol name) (datum :: body)) fun _ => True := by
  rw [compileNamedLet, variableName_symbol free]
  refine (splitBindings_complete .letIn written).bind fun split related => ?_
  have names : Gives (split.mapM fun pair => variableName pair.1) fun required =>
      List.Forall₂ (fun required binding => required = binding.1) required bindings := by
    refine Gives.mapM related fun pair binding _ ⟨equal, free⟩ => ?_
    rw [equal, variableName_symbol free]
    exact .ok rfl
  have operands : split.map (·.2) = bindings.map (·.2) :=
    map_eq_map_of_forall₂ (related.imp fun _ _ holds => by rw [holds.1])
  refine names.bind fun required equal => ?_
  have same : required.map id = bindings.map (·.1) := map_eq_map_of_forall₂ equal
  rw [List.map_id] at same
  rw [same, operands]
  refine (distinct_complete apart).bind fun _ _ => ?_
  refine (sequence_complete complete true parts).bind fun _ _ => ?_
  exact (each_complete complete inits).bind fun _ _ => .ok trivial

theorem compileLet_complete (tail : Bool) {datum : Value} {bindings : List (Symbol × Value)}
    {body : List Value} (written : IsBindings datum bindings)
    (apart : (bindings.map (·.1)).Nodup)
    (inits : ∀ init ∈ bindings.map (·.2), accepted init)
    (parts : ∀ part ∈ body, accepted part) :
    Gives (compileLet expression tail (datum :: body)) fun _ => True := by
  have notSymbol (name : Symbol) : datum ≠ .symbol name := by
    rintro rfl
    rcases written with ⟨items, list, _⟩
    cases list
  rw [compileLet]
  · refine (bindings_complete complete .letIn written inits).bind fun compiled names => ?_
    rw [names]
    refine (distinct_complete apart).bind fun _ _ => ?_
    exact (sequence_complete complete true parts).bind fun _ _ => .ok trivial
  · exact notSymbol

theorem loopVariable_complete {datum : Value} {varying : Varying}
    (written : IsVarying datum varying) (parts : ∀ part ∈ varying.parts, accepted part) :
    Gives (loopVariable expression datum) fun item => item.name = varying.name := by
  rcases written with ⟨list, free⟩
  rcases varying with ⟨name, init, _ | step⟩
  · have shape : datum.items? = some [.symbol name, init] := list
    rw [loopVariable, shape]
    dsimp only
    rw [variableName_symbol free]
    refine (complete false init (parts init ?_)).bind fun _ _ => .ok rfl
    exact List.mem_cons_self
  · have shape : datum.items? = some [.symbol name, init, step] := list
    rw [loopVariable, shape]
    dsimp only
    rw [variableName_symbol free]
    refine (complete false init (parts init ?_)).bind fun _ _ => ?_
    · exact List.mem_cons_self
    refine (complete false step (parts step ?_)).bind fun _ _ => .ok rfl
    exact List.mem_cons_of_mem _ List.mem_cons_self

theorem compileLoop_complete {datum clause test : Value} {items results commands : List Value}
    {varying : List Varying} (list : datum.items? = some items)
    (forms : List.Forall₂ IsVarying items varying) (apart : (varying.map (·.name)).Nodup)
    (ends : clause.items? = some (test :: results))
    (parts : ∀ part ∈ varying.flatMap Varying.parts ++ (test :: results ++ commands),
      accepted part) :
    Gives (compileLoop expression (datum :: clause :: commands)) fun _ => True := by
  rcases List.forall_mem_append.mp parts with ⟨varied, others⟩
  rcases List.forall_mem_append.mp others with ⟨ending, effects⟩
  rcases List.forall_mem_cons.mp ending with ⟨first, final⟩
  rw [compileLoop, list, ends]
  refine (Gives.mapM forms fun item one member written => loopVariable_complete complete written
    fun part partMember => varied part (List.mem_flatMap.mpr ⟨one, member, partMember⟩)).bind
    fun compiled names => ?_
  rw [map_eq_map_of_forall₂ names]
  refine (distinct_complete apart).bind fun _ _ => ?_
  refine (complete false test first).bind fun _ _ => ?_
  have result : Gives (loopResult expression results) fun _ => True := by
    cases results with
    | nil => exact .ok trivial
    | cons => exact .map (sequence_complete complete true final)
  refine result.bind fun _ _ => ?_
  exact (each_complete complete effects).bind fun _ _ => .ok trivial

section

variable (unreserved : ∀ name, accepted (.symbol name) → IsVariable name)

include unreserved

omit complete in
/-- A reserved name is not among the accepted data. -/
theorem isSymbol_eq_false {symbol : Symbol} {datum : Value} (reserved : ¬IsVariable symbol)
    (holds : accepted datum) : ¬isSymbol symbol datum = true := by
  intro equal
  rw [isSymbol_iff] at equal
  subst equal
  exact reserved (unreserved symbol holds)

theorem clause_complete (tail : Bool) {last : Bool} {datum : Value} {parts : List Value}
    (written : ClauseParts last datum parts) (holds : ∀ part ∈ parts, accepted part) :
    Gives (clause expression tail last datum) fun _ => True := by
  -- Where `else` or `=>` would change the kind of the clause, an expression stands.
  have notElse : ¬IsVariable elseSymbol := by decide
  have notArrow : ¬IsVariable arrowSymbol := by decide
  unfold clause
  cases written with
  | @body test parts list =>
      rcases List.forall_mem_cons.mp holds with ⟨first, others⟩
      rw [list]
      dsimp only
      rw [if_neg (isSymbol_eq_false unreserved notElse first)]
      refine (complete false test first).bind fun _ _ => ?_
      cases parts with
      | nil => exact .ok trivial
      | cons second rest =>
          have second := (List.forall_mem_cons.mp others).1
          unfold clauseBody
          dsimp only
          rw [if_neg (isSymbol_eq_false unreserved notArrow second)]
          exact .map (sequence_complete complete tail others)
  | @arrow test receiver list =>
      rcases List.forall_mem_cons.mp holds with ⟨first, others⟩
      rw [list]
      dsimp only
      rw [if_neg (isSymbol_eq_false unreserved notElse first)]
      refine (complete false test first).bind fun _ _ => ?_
      exact (complete false receiver (others receiver (by simp))).bind fun _ _ => .ok trivial
  | otherwise isLast list =>
      rw [list, isLast]
      exact .map (sequence_complete complete tail holds)

theorem clauses_complete (tail : Bool) {data parts : List Value}
    (written : ClausesParts data parts) (holds : ∀ part ∈ parts, accepted part) :
    Gives (clauses expression tail data) fun _ => True := by
  induction written with
  | last clause =>
      exact (clause_complete complete unreserved tail clause holds).bind fun _ _ => .ok trivial
  | cons clause _ induction =>
      rcases List.forall_mem_append.mp holds with ⟨first, others⟩
      refine (clause_complete complete unreserved tail clause first).bind fun _ _ => ?_
      exact (induction others).bind fun _ _ => .ok trivial

theorem compileForm_complete (tail : Bool) {form : Form} {operands parts : List Value}
    (written : FormParts form operands parts) (holds : ∀ part ∈ parts, accepted part) :
    Gives (compileForm expression tail operands form) fun _ => True := by
  cases written with
  | quote => exact .ok trivial
  | branch test consequent =>
      refine (complete false test (holds test (by simp))).bind fun _ _ => ?_
      exact (complete tail consequent (holds consequent (by simp))).bind fun _ _ => .ok trivial
  | branchElse test consequent alternate =>
      refine (complete false test (holds test (by simp))).bind fun _ _ => ?_
      refine (complete tail consequent (holds consequent (by simp))).bind fun _ _ => ?_
      exact (complete tail alternate (holds alternate (by simp))).bind fun _ _ => .ok trivial
  | sequence =>
      cases operands with
      | nil => exact .ok trivial
      | cons => exact sequence_complete complete tail holds
  | lambda _ formals => exact procedure_complete complete none formals holds
  | define value free =>
      rw [compileForm, compileDefine, variableName_symbol free]
      · exact (complete false value (holds value (by simp))).bind fun _ _ => .ok trivial
      · simp
  | defineProcedure _ free formals =>
      rw [compileForm, compileDefine, variableName_symbol free]
      exact (procedure_complete complete _ formals holds).bind fun _ _ => .ok trivial
  | assign value free =>
      rw [compileForm, compileAssign, variableName_symbol free]
      exact (complete false value (holds value (by simp))).bind fun _ _ => .ok trivial
  | letIn _ bindings apart =>
      rcases List.forall_mem_append.mp holds with ⟨inits, body⟩
      exact compileLet_complete complete tail bindings apart inits body
  | namedLet _ free bindings apart =>
      rcases List.forall_mem_append.mp holds with ⟨inits, body⟩
      exact compileNamedLet_complete complete tail free bindings apart inits body
  | letStar _ bindings =>
      rcases List.forall_mem_append.mp holds with ⟨inits, body⟩
      refine (bindings_complete complete .letStar bindings inits).bind fun _ _ => ?_
      exact (sequence_complete complete true body).bind fun _ _ => .ok trivial
  | letrec _ bindings apart =>
      rcases List.forall_mem_append.mp holds with ⟨inits, body⟩
      refine (bindings_complete complete .letrec bindings inits).bind fun _ names => ?_
      rw [names]
      refine (distinct_complete apart).bind fun _ _ => ?_
      exact (sequence_complete complete true body).bind fun _ _ => .ok trivial
  | loop _ list forms apart ends => exact compileLoop_complete complete list forms apart ends holds
  | cond clauses =>
      cases clauses with
      | last clause => exact .map (clauses_complete complete unreserved tail (.last clause) holds)
      | cons clause rest =>
          exact .map (clauses_complete complete unreserved tail (.cons clause rest) holds)
  | conjunction => exact .map (inOrder_complete complete tail holds)
  | disjunction => exact .map (inOrder_complete complete tail holds)

theorem compileWith_complete (tail : Bool) {datum : Value} {parts : List Value}
    (phrase : Phrase datum parts) (holds : ∀ part ∈ parts, accepted part) :
    Gives (compileWith expression tail datum) fun _ => True := by
  cases phrase with
  | literal notSymbol notPair =>
      cases datum with
      | symbol => cases notSymbol
      | pair => cases notPair
      | _ => exact .ok trivial
  | name free =>
      rw [compileWith, variableName_symbol free]
      exact .ok trivial
  | @form _ form operands _ list written =>
      cases datum with
      | pair place head rest =>
          rcases Option.map_eq_some_iff.mp list with ⟨items, restList, equal⟩
          cases equal
          rw [compileWith, (formOf?_eq_some_iff _ form).mpr rfl, restList]
          exact compileForm_complete complete unreserved tail written holds
      | _ => cases list
  | @call _ operator _ list noForm =>
      rcases List.forall_mem_cons.mp holds with ⟨first, others⟩
      cases datum with
      | pair place head rest =>
          rcases Option.map_eq_some_iff.mp list with ⟨items, restList, equal⟩
          cases equal
          have plain : formOf? operator = none := by
            refine Option.eq_none_iff_forall_ne_some.mpr fun form found => ?_
            exact noForm form ((formOf?_eq_some_iff operator form).mp found)
          rw [compileWith, plain]
          dsimp only
          rw [compileCall, restList]
          refine (complete false operator first).bind fun _ _ => ?_
          exact (each_complete complete others).bind fun _ _ => .ok trivial
      | _ => cases list

end

end

end Compiler

end SmallScheme
