import SmallScheme.Proofs.Grammar.Sound

namespace SmallScheme

/-! # The compiler as a recursion

The compiler of an expression asks for the parts of it only, and those are nested less
deeply. So it does not matter how deep data could have been nested: compiling is plain
recursion on data. -/

section

variable {ε α β : Type}

theorem Yields.bind_congr {computation : Except ε α} {property : α → Prop}
    (yields : Yields computation property) {next other : α → Except ε β}
    (same : ∀ result, property result → next result = other result) :
    computation >>= next = computation >>= other := by
  cases computation with
  | error failure => rfl
  | ok result => exact same result (yields result rfl)

theorem mapM_congr_of_mem {items : List α} {action other : α → Except ε β}
    (same : ∀ item ∈ items, action item = other item) :
    items.mapM action = items.mapM other := by
  induction items with
  | nil => rfl
  | cons item items induction =>
      have ⟨first, others⟩ := List.forall_mem_cons.mp same
      rw [List.mapM_cons, List.mapM_cons, first, induction others]

end

namespace Compiler

open Grammar

theorem items_low {height : Nat} {datum : Value} (low : datum.height < height) {items : List Value}
    (list : datum.items? = some items) : ∀ item ∈ items, item.height < height :=
  fun _ member => Nat.lt_trans (height_lt_of_mem_items list member) low

/-! ## Two compilers that agree on low data -/

section

variable {one two : Compiler} {height : Nat}
  (agree : ∀ tail datum, datum.height < height → one tail datum = two tail datum)
  {data operands : List Value}

include agree

theorem each_congr (low : ∀ datum ∈ data, datum.height < height) : each one data = each two data :=
  mapM_congr_of_mem fun datum member => agree false datum (low datum member)

theorem inOrder_congr (tail : Bool) (low : ∀ datum ∈ data, datum.height < height) :
    inOrder one tail data = inOrder two tail data := by
  induction data with
  | nil => rfl
  | cons datum data induction =>
      have ⟨first, others⟩ := List.forall_mem_cons.mp low
      cases data with
      | nil => simp only [inOrder, agree tail datum first]
      | cons second rest => simp only [inOrder, agree false datum first, induction others]

theorem sequence_congr (tail : Bool) (low : ∀ datum ∈ data, datum.height < height) :
    sequence one tail data = sequence two tail data := by
  rcases data with _ | ⟨first, _ | ⟨second, rest⟩⟩
  · rfl
  · exact agree tail first (low first (by simp))
  · exact congrArg (Node.sequence <$> ·) (inOrder_congr agree tail low)

theorem procedure_congr (name : Option Symbol) (parameters : Value)
    (low : ∀ datum ∈ data, datum.height < height) :
    procedure one name parameters data = procedure two name parameters data := by
  rw [procedure, procedure, sequence_congr agree true low]

theorem compileDefine_congr (low : ∀ datum ∈ operands, datum.height < height) :
    compileDefine one operands = compileDefine two operands := by
  unfold compileDefine
  split
  · rfl
  · have body := (List.forall_mem_cons.mp low).2
    simp only [procedure_congr agree _ _ body]
  · split
    · rw [agree false _ (low _ (by simp))]
    · rfl

theorem compileAssign_congr (low : ∀ datum ∈ operands, datum.height < height) :
    compileAssign one operands = compileAssign two operands := by
  unfold compileAssign
  split
  · rw [agree false _ (low _ (by simp))]
  · rfl

omit agree in
/-- The inits of bindings stand inside of them. -/
theorem splitBindings_height (form : Form) (datum : Value) :
    Yields (splitBindings form datum) fun split =>
      ∀ binding ∈ split, binding.2.height < datum.height := by
  refine (splitBindings_sound form datum).mono fun split ⟨items, list, related⟩ => ?_
  intro binding member
  rcases exists_written related member with ⟨item, inItems, two⟩
  have inItem : binding.2.height < item.height := height_lt_of_mem_items two (by simp)
  exact Nat.lt_trans inItem (height_lt_of_mem_items list inItems)

theorem bindings_congr (form : Form) {datum : Value} (low : datum.height < height) :
    bindings one form datum = bindings two form datum := by
  refine (splitBindings_height form datum).bind_congr fun split inits => ?_
  refine mapM_congr_of_mem fun binding member => ?_
  dsimp only
  rw [agree false binding.2 (Nat.lt_trans (inits binding member) low)]

theorem compileNamedLet_congr (tail : Bool) (name : Value)
    (low : ∀ datum ∈ operands, datum.height < height) :
    compileNamedLet one tail name operands = compileNamedLet two tail name operands := by
  cases operands with
  | nil => rfl
  | cons datum body =>
      have ⟨bindings, body⟩ := List.forall_mem_cons.mp low
      rw [compileNamedLet, compileNamedLet, sequence_congr agree true body]
      refine bind_congr fun name => ?_
      refine (splitBindings_height .letIn datum).bind_congr fun split inits => ?_
      have operands : ∀ init ∈ split.map (·.2), init.height < height :=
        List.forall_mem_map.mpr fun binding member => Nat.lt_trans (inits binding member) bindings
      rw [each_congr agree operands]

theorem compileLet_congr (tail : Bool) (low : ∀ datum ∈ operands, datum.height < height) :
    compileLet one tail operands = compileLet two tail operands := by
  unfold compileLet
  split
  · rfl
  · exact compileNamedLet_congr agree tail _ (List.forall_mem_cons.mp low).2
  · have ⟨bindings, body⟩ := List.forall_mem_cons.mp low
    rw [bindings_congr agree .letIn bindings, sequence_congr agree true body]

theorem compileLetStar_congr (low : ∀ datum ∈ operands, datum.height < height) :
    compileLetStar one operands = compileLetStar two operands := by
  cases operands with
  | nil => rfl
  | cons datum body =>
      have ⟨bindings, body⟩ := List.forall_mem_cons.mp low
      rw [compileLetStar, compileLetStar, bindings_congr agree .letStar bindings,
        sequence_congr agree true body]

theorem compileLetrec_congr (low : ∀ datum ∈ operands, datum.height < height) :
    compileLetrec one operands = compileLetrec two operands := by
  cases operands with
  | nil => rfl
  | cons datum body =>
      have ⟨bindings, body⟩ := List.forall_mem_cons.mp low
      rw [compileLetrec, compileLetrec, bindings_congr agree .letrec bindings,
        sequence_congr agree true body]

theorem loopVariable_congr {datum : Value} (low : datum.height < height) :
    loopVariable one datum = loopVariable two datum := by
  unfold loopVariable
  split
  · rename_i list
    rw [agree false _ (items_low low list _ (by simp))]
  · rename_i list
    have inside := items_low low list
    rw [agree false _ (inside _ (by simp)), agree false _ (inside _ (by simp))]
  · rfl

theorem loopResult_congr (low : ∀ datum ∈ data, datum.height < height) :
    loopResult one data = loopResult two data := by
  unfold loopResult
  split
  · rfl
  · rw [sequence_congr agree true low]

theorem compileLoop_congr (low : ∀ datum ∈ operands, datum.height < height) :
    compileLoop one operands = compileLoop two operands := by
  unfold compileLoop
  split
  · have ⟨specifications, others⟩ := List.forall_mem_cons.mp low
    have ⟨clause, commands⟩ := List.forall_mem_cons.mp others
    rw [each_congr agree commands]
    split
    · rename_i list
      rw [mapM_congr_of_mem fun item member =>
        loopVariable_congr agree (items_low specifications list item member)]
      split
      · rename_i split
        have ⟨test, results⟩ := List.forall_mem_cons.mp (items_low clause split)
        rw [agree false _ test, loopResult_congr agree results]
      · rfl
    · rfl
  · rfl

/-! ### Conditionals -/

theorem compileBranch_congr (tail : Bool) (low : ∀ datum ∈ operands, datum.height < height) :
    compileBranch one tail operands = compileBranch two tail operands := by
  unfold compileBranch
  split
  · rw [agree false _ (low _ (by simp)), agree tail _ (low _ (by simp))]
  · rw [agree false _ (low _ (by simp)), agree tail _ (low _ (by simp)),
      agree tail _ (low _ (by simp))]
  · rfl

theorem clauseBody_congr (tail : Bool) (test : Node) (low : ∀ datum ∈ data, datum.height < height) :
    clauseBody one tail test data = clauseBody two tail test data := by
  cases data with
  | nil => rfl
  | cons first more =>
      simp only [clauseBody, sequence_congr agree tail low]
      split
      · split
        · rw [agree false _ (low _ (by simp))]
        · rfl
      · rfl

theorem clause_congr (tail last : Bool) {datum : Value} (low : datum.height < height) :
    clause one tail last datum = clause two tail last datum := by
  unfold clause
  split
  · rename_i list
    have ⟨head, more⟩ := List.forall_mem_cons.mp (items_low low list)
    rw [agree false _ head, sequence_congr agree tail more]
    simp only [clauseBody_congr agree tail _ more]
  · rfl

theorem clauses_congr (tail : Bool) (low : ∀ datum ∈ data, datum.height < height) :
    clauses one tail data = clauses two tail data := by
  induction data with
  | nil => rfl
  | cons datum data induction =>
      have ⟨first, others⟩ := List.forall_mem_cons.mp low
      rw [clauses, clauses, clause_congr agree tail _ first, induction others]

/-! ### Expressions -/

theorem compileForm_congr (tail : Bool) (low : ∀ datum ∈ operands, datum.height < height)
    (form : Form) : compileForm one tail operands form = compileForm two tail operands form := by
  cases form with
  | quote => rfl
  | branch => exact compileBranch_congr agree tail low
  | sequence =>
      cases operands with
      | nil => rfl
      | cons first rest => exact sequence_congr agree tail low
  | lambda =>
      cases operands with
      | nil => rfl
      | cons parameters body =>
          exact procedure_congr agree none parameters (List.forall_mem_cons.mp low).2
  | define => exact compileDefine_congr agree low
  | assign => exact compileAssign_congr agree low
  | letIn => exact compileLet_congr agree tail low
  | letStar => exact compileLetStar_congr agree low
  | letrec => exact compileLetrec_congr agree low
  | loop => exact compileLoop_congr agree low
  | cond =>
      cases operands with
      | nil => rfl
      | cons first rest => exact congrArg (Node.cond <$> ·) (clauses_congr agree tail low)
  | conjunction => exact congrArg (Node.conjunction <$> ·) (inOrder_congr agree tail low)
  | disjunction => exact congrArg (Node.disjunction <$> ·) (inOrder_congr agree tail low)

end

/-- Two compilers for the parts make no difference if they agree on all lower data. -/
theorem compileWith_congr {one two : Compiler} (tail : Bool) (datum : Value)
    (agree : ∀ tail part, part.height < datum.height → one tail part = two tail part) :
    compileWith one tail datum = compileWith two tail datum := by
  cases datum with
  | pair place head rest =>
      have low {operands : List Value} (list : rest.items? = some operands) :
          ∀ operand ∈ operands, operand.height < (Datum.pair place head rest).height :=
        fun operand member => Nat.lt_succ_of_lt
          (Nat.lt_of_lt_of_le (height_lt_of_mem_items list member) (Nat.le_max_right _ _))
      simp only [compileWith]
      split
      · split
        · rename_i list
          exact compileForm_congr agree tail (low list) _
        · rfl
      · unfold compileCall
        split
        · rename_i list
          rw [each_congr agree (low list),
            agree false head (Nat.lt_succ_of_le (Nat.le_max_left _ _))]
        · rfl
  | _ => rfl

theorem withinHeight_congr {one two : Nat} (tail : Bool) (datum : Value)
    (lowOne : datum.height ≤ one) (lowTwo : datum.height ≤ two) :
    withinHeight one tail datum = withinHeight two tail datum := by
  induction one generalizing two tail datum with
  | zero =>
      -- The datum has no parts, so nothing is asked of the compiler for them.
      have none (part : Value) : ¬part.height < datum.height := by omega
      cases two with
      | zero => rfl
      | succ two => exact compileWith_congr tail datum fun _ part lower => absurd lower (none part)
  | succ one induction =>
      cases two with
      | zero =>
          have none (part : Value) : ¬part.height < datum.height := by omega
          exact compileWith_congr tail datum fun _ part lower => absurd lower (none part)
      | succ two =>
          refine compileWith_congr tail datum fun tail part lower => ?_
          exact induction tail part (by omega) (by omega)

end Compiler

/-- Compiling is recursion on data. -/
theorem Node.compile_eq (tail : Bool) (datum : Value) :
    compile tail datum = Compiler.compileWith compile tail datum := by
  have higher : compile tail datum = Compiler.withinHeight (datum.height + 1) tail datum :=
    Compiler.withinHeight_congr tail datum (Nat.le_refl _) (Nat.le_succ _)
  rw [higher]
  refine Compiler.compileWith_congr tail datum fun tail part lower => ?_
  exact Compiler.withinHeight_congr tail part (Nat.le_of_lt lower) (Nat.le_refl _)

end SmallScheme
