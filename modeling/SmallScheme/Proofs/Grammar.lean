import Mathlib.Data.List.Forall2
import SmallScheme.Node.Form

namespace SmallScheme

/-! # The grammar of expressions

Which data are expressions, said without the compiler: for each form, how its
operands are put together and which data among them have to be expressions in
turn. -/

namespace Grammar

/-- The names that no variable may have. -/
def reserved : List String :=
  ["quote", "if", "begin", "lambda", "define", "set!", "let", "let*", "letrec", "do", "cond",
    "and", "or", "else", "=>"]

def IsVariable (name : Symbol) : Prop :=
  name.name ∉ reserved

instance (name : Symbol) : Decidable (IsVariable name) :=
  inferInstanceAs (Decidable (name.name ∉ reserved))

/-- A parameter list `(a b)`, `(a b . rest)` or `rest`, and its names. -/
inductive FormalNames : Value → List Symbol → Prop
  | nil : FormalNames .nil []
  | rest {name : Symbol} : IsVariable name → FormalNames (.symbol name) [name]
  | cons {place : Place} {name : Symbol} {more : Value} {names : List Symbol} :
      IsVariable name → FormalNames more names →
      FormalNames (.pair place (.symbol name) more) (name :: names)

def IsFormals (datum : Value) : Prop :=
  ∃ names, FormalNames datum names ∧ names.Nodup

/-- `(name init)` -/
def IsBinding (datum : Value) (binding : Symbol × Value) : Prop :=
  datum.items? = some [.symbol binding.1, binding.2] ∧ IsVariable binding.1

/-- `((name init) ...)` -/
def IsBindings (datum : Value) (bindings : List (Symbol × Value)) : Prop :=
  ∃ items, datum.items? = some items ∧ List.Forall₂ IsBinding items bindings

/-- What is written for a variable of a loop. -/
structure Varying where
  name : Symbol
  init : Value
  step : Option Value

def Varying.parts (varying : Varying) : List Value :=
  varying.init :: varying.step.toList

/-- `(name init)` or `(name init step)` -/
def IsVarying (datum : Value) (varying : Varying) : Prop :=
  datum.items? = some (.symbol varying.name :: varying.parts) ∧ IsVariable varying.name

/-- A clause and the expressions in it: `(test part ...)`, `(test => receiver)`, and
`(else part ...)` as the last one. -/
inductive ClauseParts (last : Bool) (datum : Value) : List Value → Prop
  | body {test : Value} {parts : List Value} :
      datum.items? = some (test :: parts) → ClauseParts last datum (test :: parts)
  | arrow {test receiver : Value} :
      datum.items? = some [test, .symbol ⟨"=>"⟩, receiver] →
      ClauseParts last datum [test, receiver]
  | otherwise {parts : List Value} :
      last = true → datum.items? = some (.symbol ⟨"else"⟩ :: parts) →
      ClauseParts last datum parts

/-- One clause or more. -/
inductive ClausesParts : List Value → List Value → Prop
  | last {datum : Value} {parts : List Value} :
      ClauseParts true datum parts → ClausesParts [datum] parts
  | cons {datum next : Value} {data parts more : List Value} :
      ClauseParts false datum parts → ClausesParts (next :: data) more →
      ClausesParts (datum :: next :: data) (parts ++ more)

/-- The operands of a form and the expressions among them. -/
inductive FormParts : Form → List Value → List Value → Prop
  | quote (datum : Value) : FormParts .quote [datum] []
  | branch (test consequent : Value) :
      FormParts .branch [test, consequent] [test, consequent]
  | branchElse (test consequent alternate : Value) :
      FormParts .branch [test, consequent, alternate] [test, consequent, alternate]
  | sequence (parts : List Value) : FormParts .sequence parts parts
  | lambda {formals : Value} (body : List Value) :
      IsFormals formals → FormParts .lambda (formals :: body) body
  | define {name : Symbol} (value : Value) :
      IsVariable name → FormParts .define [.symbol name, value] [value]
  | defineProcedure {place : Place} {name : Symbol} {formals : Value} (body : List Value) :
      IsVariable name → IsFormals formals →
      FormParts .define (.pair place (.symbol name) formals :: body) body
  | assign {name : Symbol} (value : Value) :
      IsVariable name → FormParts .assign [.symbol name, value] [value]
  | letIn {datum : Value} {bindings : List (Symbol × Value)} (body : List Value) :
      IsBindings datum bindings → (bindings.map (·.1)).Nodup →
      FormParts .letIn (datum :: body) (bindings.map (·.2) ++ body)
  | namedLet {name : Symbol} {datum : Value} {bindings : List (Symbol × Value)}
      (body : List Value) :
      IsVariable name → IsBindings datum bindings → (bindings.map (·.1)).Nodup →
      FormParts .letIn (.symbol name :: datum :: body) (bindings.map (·.2) ++ body)
  | letStar {datum : Value} {bindings : List (Symbol × Value)} (body : List Value) :
      IsBindings datum bindings →
      FormParts .letStar (datum :: body) (bindings.map (·.2) ++ body)
  | letrec {datum : Value} {bindings : List (Symbol × Value)} (body : List Value) :
      IsBindings datum bindings → (bindings.map (·.1)).Nodup →
      FormParts .letrec (datum :: body) (bindings.map (·.2) ++ body)
  | loop {datum clause test : Value} {items results : List Value} {varying : List Varying}
      (commands : List Value) :
      datum.items? = some items → List.Forall₂ IsVarying items varying →
      (varying.map (·.name)).Nodup → clause.items? = some (test :: results) →
      FormParts .loop (datum :: clause :: commands)
        (varying.flatMap Varying.parts ++ (test :: results ++ commands))
  | cond {clauses parts : List Value} :
      ClausesParts clauses parts → FormParts .cond clauses parts
  | conjunction (tests : List Value) : FormParts .conjunction tests tests
  | disjunction (tests : List Value) : FormParts .disjunction tests tests

/-- A datum that is an expression if its parts are. -/
inductive Phrase : Value → List Value → Prop
  | literal {datum : Value} : datum.isSymbol = false → datum.isPair = false → Phrase datum []
  | name {name : Symbol} : IsVariable name → Phrase (.symbol name) []
  | form {datum : Value} {form : Form} {operands parts : List Value} :
      datum.items? = some (.symbol ⟨form.name⟩ :: operands) →
      FormParts form operands parts → Phrase datum parts
  | call {datum operator : Value} {operands : List Value} :
      datum.items? = some (operator :: operands) →
      (∀ form : Form, operator ≠ .symbol ⟨form.name⟩) → Phrase datum (operator :: operands)

/-- Something is divided into accepted parts, in one of the ways that its shape allows. -/
def MadeOf (accepted : Value → Prop) (shape : List Value → Prop) : Prop :=
  ∃ parts, shape parts ∧ ∀ part ∈ parts, accepted part

inductive IsExpression : Value → Prop
  | intro {datum : Value} {parts : List Value} :
      Phrase datum parts → (∀ part ∈ parts, IsExpression part) → IsExpression datum

/-! ## Parts are smaller -/

theorem height_lt_of_mem_items {datum item : Value} {items : List Value}
    (list : datum.items? = some items) (member : item ∈ items) :
    item.height < datum.height := by
  induction datum generalizing items with
  | pair place car cdr _ induction =>
      rcases Option.map_eq_some_iff.mp list with ⟨rest, restList, rfl⟩
      rcases List.mem_cons.mp member with rfl | found
      · exact Nat.lt_succ_of_le (Nat.le_max_left _ _)
      · exact Nat.lt_succ_of_lt
          (Nat.lt_of_lt_of_le (induction restList found) (Nat.le_max_right _ _))
  | nil =>
      cases list
      cases member
  | _ => cases list

/-- What is written for a result. -/
theorem exists_written {α β : Type} {relation : α → β → Prop} {items : List α}
    {results : List β} (related : List.Forall₂ relation items results) {result : β}
    (member : result ∈ results) : ∃ item ∈ items, relation item result := by
  induction related with
  | nil => cases member
  | cons first _ induction =>
      rcases List.mem_cons.mp member with rfl | found
      · exact ⟨_, List.mem_cons_self, first⟩
      · rcases induction found with ⟨item, among, holds⟩
        exact ⟨item, List.mem_cons_of_mem _ among, holds⟩

theorem IsBindings.height_lt {datum init : Value} {bindings : List (Symbol × Value)}
    (written : IsBindings datum bindings) (member : init ∈ bindings.map (·.2)) :
    init.height < datum.height := by
  rcases written with ⟨items, list, forms⟩
  rcases List.mem_map.mp member with ⟨binding, among, rfl⟩
  rcases exists_written forms among with ⟨item, itemMember, binds, _⟩
  have inItem : binding.2.height < item.height := height_lt_of_mem_items binds (by simp)
  exact Nat.lt_trans inItem (height_lt_of_mem_items list itemMember)

theorem height_lt_of_mem_varying {datum part : Value} {items : List Value}
    {varying : List Varying} (list : datum.items? = some items)
    (forms : List.Forall₂ IsVarying items varying)
    (member : part ∈ varying.flatMap Varying.parts) : part.height < datum.height := by
  rcases List.mem_flatMap.mp member with ⟨one, among, partMember⟩
  rcases exists_written forms among with ⟨item, itemMember, varies, _⟩
  have inItem : part.height < item.height :=
    height_lt_of_mem_items varies (List.mem_cons_of_mem _ partMember)
  exact Nat.lt_trans inItem (height_lt_of_mem_items list itemMember)

theorem ClauseParts.height_lt {last : Bool} {datum part : Value} {parts : List Value}
    (written : ClauseParts last datum parts) (member : part ∈ parts) :
    part.height < datum.height := by
  cases written with
  | body list => exact height_lt_of_mem_items list member
  | arrow list =>
      refine height_lt_of_mem_items list ?_
      rcases List.mem_cons.mp member with rfl | found
      · simp
      · exact List.mem_cons_of_mem _ (List.mem_cons_of_mem _ found)
  | otherwise _ list => exact height_lt_of_mem_items list (List.mem_cons_of_mem _ member)

theorem ClausesParts.exists_height_lt {data parts : List Value} {part : Value}
    (written : ClausesParts data parts) (member : part ∈ parts) :
    ∃ datum ∈ data, part.height < datum.height := by
  induction written with
  | last clause => exact ⟨_, List.mem_cons_self, clause.height_lt member⟩
  | cons clause _ induction =>
      rcases List.mem_append.mp member with first | later
      · exact ⟨_, List.mem_cons_self, clause.height_lt first⟩
      · rcases induction later with ⟨datum, among, lower⟩
        exact ⟨datum, List.mem_cons_of_mem _ among, lower⟩

/-- A part is an operand or stands inside of one. -/
theorem FormParts.mem_or_height_lt {form : Form} {operands parts : List Value} {part : Value}
    (written : FormParts form operands parts) (member : part ∈ parts) :
    part ∈ operands ∨ ∃ operand ∈ operands, part.height < operand.height := by
  cases written with
  | quote => cases member
  | branch | branchElse | sequence | conjunction | disjunction => exact .inl member
  | lambda | define | defineProcedure | assign => exact .inl (List.mem_cons_of_mem _ member)
  | letIn _ bindings | letStar _ bindings | letrec _ bindings =>
      rcases List.mem_append.mp member with init | found
      · exact .inr ⟨_, List.mem_cons_self, bindings.height_lt init⟩
      · exact .inl (List.mem_cons_of_mem _ found)
  | namedLet _ _ bindings =>
      rcases List.mem_append.mp member with init | found
      · exact .inr ⟨_, List.mem_cons_of_mem _ List.mem_cons_self, bindings.height_lt init⟩
      · exact .inl (List.mem_cons_of_mem _ (List.mem_cons_of_mem _ found))
  | loop _ list forms _ clause =>
      rcases List.mem_append.mp member with varied | others
      · exact .inr ⟨_, List.mem_cons_self, height_lt_of_mem_varying list forms varied⟩
      · rcases List.mem_append.mp others with result | command
        · exact .inr ⟨_, List.mem_cons_of_mem _ List.mem_cons_self,
            height_lt_of_mem_items clause result⟩
        · exact .inl (List.mem_cons_of_mem _ (List.mem_cons_of_mem _ command))
  | cond clauses => exact .inr (clauses.exists_height_lt member)

theorem Phrase.height_lt {datum part : Value} {parts : List Value}
    (phrase : Phrase datum parts) (member : part ∈ parts) : part.height < datum.height := by
  cases phrase with
  | literal | name => cases member
  | form list written =>
      rcases written.mem_or_height_lt member with operand | ⟨operand, among, lower⟩
      · exact height_lt_of_mem_items list (List.mem_cons_of_mem _ operand)
      · exact Nat.lt_trans lower (height_lt_of_mem_items list (List.mem_cons_of_mem _ among))
  | call list => exact height_lt_of_mem_items list member

/-! ## Symbols -/

/-- A symbol is an expression only as a variable. -/
theorem IsExpression.isVariable {name : Symbol} (expression : IsExpression (.symbol name)) :
    IsVariable name := by
  cases expression with
  | intro phrase _ =>
      cases phrase with
      | literal notSymbol => cases notSymbol
      | name free => exact free
      | form list | call list => cases list

end Grammar

end SmallScheme
