import SmallScheme.Proofs.Height

namespace SmallScheme

/-! # Derived forms

Some forms stand for others: `let*` for nested `let`s, the definition of a procedure for
that of a variable with a `lambda`, and `let` with a name for the call of a procedure that
`letrec` binds. Such a form compiles to what its expansion compiles to, and fails as that
fails, whatever its operands are. -/

namespace Grammar

/-! ## Forms and their expansions -/

/-- `((name init) ...)`, where anything may stand for a name. -/
def SplitsInto (datum : Value) (bindings : List (Value × Value)) : Prop :=
  ∃ items, datum.items? = some items ∧
    List.Forall₂ (fun item binding => item.items? = some [binding.1, binding.2]) items bindings

/-- `(let ((name init) ...) body ...)` -/
def IsLet (datum : Value) (bindings : List (Value × Value)) (body : List Value) : Prop :=
  ∃ list, SplitsInto list bindings ∧ datum.items? = some (.symbol ⟨"let"⟩ :: list :: body)

/-- `(lambda parameters body ...)` -/
def IsLambda (datum parameters : Value) (body : List Value) : Prop :=
  datum.items? = some (.symbol ⟨"lambda"⟩ :: parameters :: body)

/-- `(let ((name init)) ... (let ((name init)) body ...))`, one `let` for each binding, and
`(let () body ...)` if there is none. -/
inductive AreNestedLets (body : List Value) : List (Value × Value) → Value → Prop
  | none {datum : Value} : IsLet datum [] body → AreNestedLets body [] datum
  | innermost {datum : Value} {binding : Value × Value} :
      IsLet datum [binding] body → AreNestedLets body [binding] datum
  | around {datum inner : Value} {binding next : Value × Value} {more : List (Value × Value)} :
      IsLet datum [binding] [inner] → AreNestedLets body (next :: more) inner →
      AreNestedLets body (binding :: next :: more) datum

/-- `(letrec ((name value)) name)` -/
def IsKnot (datum : Value) (name : Symbol) (value : Value) : Prop :=
  ∃ list, SplitsInto list [(.symbol name, value)] ∧
    datum.items? = some [.symbol ⟨"letrec"⟩, list, .symbol name]

/-- A derived form and what it stands for. -/
inductive Expands : Value → Value → Prop
  /-- `(let* ((name init) ...) body ...)` -/
  | letStar {datum list expansion : Value} {bindings : List (Value × Value)} {body : List Value} :
      SplitsInto list bindings → datum.items? = some (.symbol ⟨"let*"⟩ :: list :: body) →
      AreNestedLets body bindings expansion → Expands datum expansion
  /-- `(define (name . parameters) body ...)` for
  `(define name (lambda parameters body ...))` -/
  | define {datum procedure parameters expansion : Value} {place : Place} {name : Symbol}
      {body : List Value} :
      datum.items? =
        some (.symbol ⟨"define"⟩ :: .pair place (.symbol name) parameters :: body) →
      IsLambda procedure parameters body →
      expansion.items? = some [.symbol ⟨"define"⟩, .symbol name, procedure] →
      Expands datum expansion
  /-- `(let name ((variable init) ...) body ...)` for
  `((letrec ((name (lambda (variable ...) body ...))) name) init ...)` -/
  | namedLet {datum list parameters procedure operator expansion : Value} {name : Symbol}
      {bindings : List (Value × Value)} {body : List Value} :
      SplitsInto list bindings →
      datum.items? = some (.symbol ⟨"let"⟩ :: .symbol name :: list :: body) →
      parameters.items? = some (bindings.map (·.1)) → IsLambda procedure parameters body →
      IsKnot operator name procedure →
      expansion.items? = some (operator :: bindings.map (·.2)) → Expands datum expansion

end Grammar

open Grammar

/-! ## Forms and calls as recursion -/

namespace Node

variable {datum : Value} {operands : List Value}

theorem compile_form (form : Form) (list : datum.items? = some (.symbol ⟨form.name⟩ :: operands))
    (tail : Bool) : compile tail datum = Compiler.compileForm compile tail operands form := by
  cases datum with
  | pair place head rest =>
      rcases Option.map_eq_some_iff.mp list with ⟨found, list, same⟩
      cases same
      have isForm : Compiler.formOf? (.symbol ⟨form.name⟩) = some form :=
        (Compiler.formOf?_eq_some_iff _ form).mpr rfl
      rw [compile_eq, Compiler.compileWith, isForm]
      simp only [list]
  | _ => cases list

theorem compile_call {operator : Value} (list : datum.items? = some (operator :: operands))
    (notForm : Compiler.formOf? operator = none) (tail : Bool) :
    compile tail datum = do
      let operator ← compile false operator
      let operands ← Compiler.each compile operands
      return .call operator operands tail := by
  cases datum with
  | pair place head rest =>
      rcases Option.map_eq_some_iff.mp list with ⟨found, list, same⟩
      cases same
      rw [compile_eq, Compiler.compileWith, notForm]
      simp only [Compiler.compileCall, list]
  | _ => cases list

end Node

namespace Compiler

/-- No list introduces a form. -/
theorem formOf?_of_items? {datum : Value} {items : List Value} (list : datum.items? = some items) :
    formOf? datum = none := by
  cases datum with
  | symbol name => cases list
  | _ => rfl

/-! ## Bindings -/

/-- A name and its init, compiled. -/
def bound (binding : Value × Value) : Except CompileError (Symbol × Node) := do
  let name ← variableName binding.1
  let init ← Node.compile false binding.2
  return (name, init)

variable {list : Value} {pairs : List (Value × Value)}

theorem splitBindings_of_splitsInto (splits : SplitsInto list pairs) (form : Form) :
    splitBindings form list = pure pairs := by
  rcases splits with ⟨items, listed, related⟩
  unfold splitBindings
  rw [listed]
  dsimp only
  clear listed
  induction related with
  | nil => rfl
  | cons first _ induction =>
      rw [List.mapM_cons, induction]
      simp only [first]
      rfl

theorem bindings_of_splitsInto (splits : SplitsInto list pairs) (form : Form) :
    bindings Node.compile form list = pairs.mapM bound := by
  rw [bindings, splitBindings_of_splitsInto splits]
  rfl

theorem distinct_single (name : Symbol) : distinct [name] = pure () :=
  (distinct_eq_ok_iff [name]).mpr (by simp)

/-! ## The three forms -/

variable {datum : Value} {body : List Value}

theorem compile_let (isLet : IsLet datum pairs body) (tail : Bool) :
    Node.compile tail datum = do
      let bindings ← pairs.mapM bound
      distinct (bindings.map (·.1))
      let body ← sequence Node.compile true body
      return .letIn bindings body := by
  rcases isLet with ⟨list, splits, listed⟩
  have notSymbol (name : Symbol) : list ≠ .symbol name := by
    rintro rfl
    rcases splits with ⟨items, found, _⟩
    cases found
  rw [Node.compile_form .letIn listed, compileForm, compileLet,
    bindings_of_splitsInto splits]
  exact notSymbol

theorem compile_singleLet {pair : Value × Value} (isLet : IsLet datum [pair] body) (tail : Bool) :
    Node.compile tail datum = do
      let binding ← bound pair
      let body ← sequence Node.compile true body
      return .letIn [binding] body := by
  rw [compile_let isLet]
  simp [List.mapM_cons, distinct_single]

theorem compile_nestedLets (nested : AreNestedLets body pairs datum) (tail : Bool) :
    Node.compile tail datum = do
      let bindings ← pairs.mapM bound
      let body ← sequence Node.compile true body
      return nest body bindings := by
  induction nested generalizing tail with
  | none isLet =>
      rw [compile_let isLet]
      rfl
  | innermost isLet =>
      rw [compile_singleLet isLet]
      simp [List.mapM_cons, nest]
  | around isLet _ induction =>
      rw [compile_singleLet isLet, sequence, induction]
      simp [List.mapM_cons, nest]

theorem compile_lambda {parameters : Value} (isLambda : IsLambda datum parameters body)
    (tail : Bool) : Node.compile tail datum = procedure Node.compile none parameters body :=
  Node.compile_form .lambda isLambda tail

/-- A procedure that is compiled without a name and named later. -/
theorem named_procedure (expression : Compiler) (name : Symbol) (parameters : Value)
    (body : List Value) :
    named name <$> procedure expression none parameters body =
      procedure expression (some name) parameters body := by
  simp [procedure, named]

/-- The parameters of a proper list. -/
theorem formals_of_items {items : List Value} (listed : list.items? = some items) :
    formals list = do
      let required ← items.mapM variableName
      distinct required
      return ⟨required, none⟩ := by
  have names : formalNames list = do
      let required ← items.mapM variableName
      return ⟨required, none⟩ := by
    induction list generalizing items with
    | nil =>
        cases listed
        rfl
    | pair place first more _ induction =>
        rcases Option.map_eq_some_iff.mp listed with ⟨rest, found, rfl⟩
        rw [formalNames, induction found]
        simp [List.mapM_cons]
    | _ => cases listed
  rw [formals, names]
  simp [Formals.names]

theorem compile_knot {name : Symbol} {value : Value} (isKnot : IsKnot datum name value)
    (tail : Bool) :
    Node.compile tail datum = do
      let name ← variableName (.symbol name)
      let init ← Node.compile false value
      return .letrec [(name, init)] (.variable name) := by
  rcases isKnot with ⟨list, splits, listed⟩
  have reference : sequence Node.compile true [.symbol name] =
      Node.variable <$> variableName (.symbol name) := Node.compile_eq true _
  rw [Node.compile_form .letrec listed, compileForm, compileLetrec,
    bindings_of_splitsInto splits, reference]
  by_cases free : IsVariable name
  · have named : variableName (.symbol name) = pure name := variableName_symbol free
    simp [List.mapM_cons, bound, named, distinct_single]
  · have refused : variableName (.symbol name) = .error (.reservedName name) :=
      if_pos ((isReserved_iff name).mpr free)
    simp only [List.mapM_cons, bound, refused]
    rfl

end Compiler

/-- A derived form is compiled as its expansion is, in tail position or out of it: to the
same node, with the same marks and names, or with the same failure. -/
theorem compile_expansion {datum expansion : Value} (expands : Expands datum expansion)
    (tail : Bool) : Node.compile tail datum = Node.compile tail expansion := by
  cases expands with
  | letStar splits listed nested =>
      rw [Node.compile_form .letStar listed, Compiler.compile_nestedLets nested,
        Compiler.compileForm, Compiler.compileLetStar, Compiler.bindings_of_splitsInto splits]
  | define listed isLambda expanded =>
      rw [Node.compile_form .define listed, Node.compile_form .define expanded]
      simp only [Compiler.compileForm, Compiler.compileDefine, Compiler.compile_lambda isLambda,
        ← Compiler.named_procedure]
      simp
  | namedLet splits listed parameters isLambda isKnot expanded =>
      rw [Node.compile_form .letIn listed, Node.compile_call expanded]
      · simp [Compiler.compileForm, Compiler.compileLet, Compiler.compileNamedLet,
          Compiler.compile_knot isKnot, Compiler.compile_lambda isLambda, Compiler.procedure,
          Compiler.formals_of_items parameters, Compiler.splitBindings_of_splitsInto splits,
          Function.comp_def]
      · rcases isKnot with ⟨_, _, list⟩
        exact Compiler.formOf?_of_items? list

/-- `(let* ((a 1) (a b)) (a))`, `(define (f . a) (a))` and `(let f ((a 1)) (f a) (f))`, each
with pairs that live in other places than those of its expansion. -/
theorem compile_expansion_examples :
    let list (place : Place) (items : List Value) : Value := (Value.newList place items).1
    let symbol (name : String) : Value := .symbol ⟨name⟩
    let one : Value := .number (.integer 1)
    let call (name : String) : Value := list 90 [symbol name]
    let first (place : Place) : Value := list place [symbol "a", one]
    let second (place : Place) : Value := list place [symbol "a", symbol "b"]
    let inner := list 21 [symbol "let", list 24 [second 25], call "a"]
    let letStar := list 0 [symbol "let*", list 3 [first 5, second 7], call "a"]
    let lets := list 10 [symbol "let", list 13 [first 15], inner]
    let define := list 30 [symbol "define", .pair 33 (symbol "f") (symbol "a"), call "a"]
    let lambda := list 43 [symbol "lambda", symbol "a", call "a"]
    let definition := list 40 [symbol "define", symbol "f", lambda]
    let body := [list 92 [symbol "f", symbol "a"], call "f"]
    let loop := list 50 (symbol "let" :: symbol "f" :: list 53 [first 54] :: body)
    let procedure := list 75 (symbol "lambda" :: list 79 [symbol "a"] :: body)
    let knot := list 65 [symbol "letrec", list 68 [list 70 [symbol "f", procedure]], symbol "f"]
    let application := list 60 [knot, one]
    Node.compile true letStar = .ok (.letIn [(⟨"a"⟩, .literal one)]
      (.letIn [(⟨"a"⟩, .variable ⟨"b"⟩)] (.call (.variable ⟨"a"⟩) [] true))) ∧
    Node.compile true letStar = Node.compile true lets ∧
    Node.compile false define = Node.compile false definition ∧
    Node.compile false loop = Node.compile false application := by
  intro list symbol one call first second inner letStar lets define lambda definition body loop
    procedure knot application
  refine ⟨rfl, ?_, ?_, ?_⟩
  · have splits : SplitsInto (list 3 [first 5, second 7])
        [(symbol "a", one), (symbol "a", symbol "b")] :=
      ⟨_, rfl, .cons rfl (.cons rfl .nil)⟩
    have outer : IsLet lets [(symbol "a", one)] [inner] := ⟨_, ⟨_, rfl, .cons rfl .nil⟩, rfl⟩
    have innermost : IsLet inner [(symbol "a", symbol "b")] [call "a"] :=
      ⟨_, ⟨_, rfl, .cons rfl .nil⟩, rfl⟩
    exact compile_expansion (.letStar splits rfl (.around outer (.innermost innermost))) true
  · have isLambda : IsLambda lambda (symbol "a") [call "a"] := rfl
    exact compile_expansion (.define rfl isLambda rfl) false
  · have splits : SplitsInto (list 53 [first 54]) [(symbol "a", one)] :=
      ⟨_, rfl, .cons rfl .nil⟩
    have isLambda : IsLambda procedure (list 79 [symbol "a"]) body := rfl
    have isKnot : IsKnot knot ⟨"f"⟩ procedure := ⟨_, ⟨_, rfl, .cons rfl .nil⟩, rfl⟩
    exact compile_expansion (.namedLet splits rfl rfl isLambda isKnot rfl) false

end SmallScheme
