import SmallScheme.Machine.RunError

namespace SmallScheme

/-! # Procedures among values

What is known of every procedure in some values is known of every procedure in what the
primitives make of them. -/

namespace Datum

variable {ι : Type} {known other : Procedure → Prop}

/-- Every procedure in a datum is known. -/
def Procedures (known : Procedure → Prop) : Datum ι → Prop
  | .pair _ car cdr => car.Procedures known ∧ cdr.Procedures known
  | .procedure callee => known callee
  | _ => True

theorem Procedures.mono {datum : Datum ι} (procedures : datum.Procedures known)
    (implies : ∀ callee, known callee → other callee) : datum.Procedures other := by
  induction datum with
  | pair place car cdr carInduction cdrInduction =>
      exact ⟨carInduction procedures.1, cdrInduction procedures.2⟩
  | procedure callee => exact implies callee procedures
  | _ => trivial

theorem procedures_true (datum : Datum ι) : datum.Procedures fun _ => True := by
  induction datum with
  | pair place car cdr carInduction cdrInduction => exact ⟨carInduction, cdrInduction⟩
  | _ => trivial

theorem Procedures.items {datum : Datum ι} (procedures : datum.Procedures known)
    {items : List (Datum ι)} (found : datum.items? = some items) :
    ∀ item ∈ items, item.Procedures known := by
  induction datum generalizing items with
  | nil =>
      cases found
      simp
  | pair place car cdr _ induction =>
      simp only [items?, Option.map_eq_some_iff] at found
      obtain ⟨more, found, rfl⟩ := found
      exact List.forall_mem_cons.mpr ⟨procedures.1, induction procedures.2 found⟩
  | _ => cases found

end Datum

theorem Value.newList_procedures {known : Procedure → Prop} {items : List Value}
    (procedures : ∀ item ∈ items, item.Procedures known) (next : Place) :
    (newList next items).1.Procedures known := by
  induction items with
  | nil => trivial
  | cons item items induction =>
      have ⟨first, others⟩ := List.forall_mem_cons.mp procedures
      exact ⟨first, induction others⟩

/-! ## Primitives -/

/-- The values that a fault tells of. -/
def PrimitiveFault.values : PrimitiveFault → List Value
  | .wrongType _ got => [got]
  | .arithmetic _ => []

/-- Every result has a property, and faults tell of known procedures only. -/
def Settles {α : Type} (known : Procedure → Prop) (property : α → Prop) :
    Except PrimitiveFault α → Prop
  | .ok result => property result
  | .error fault => ∀ value ∈ fault.values, value.Procedures known

namespace Settles

variable {α β : Type} {known : Procedure → Prop} {property : α → Prop} {goal : β → Prop}

theorem bind {computation : Except PrimitiveFault α} {next : α → Except PrimitiveFault β}
    (settles : Settles known property computation)
    (continues : ∀ result, property result → Settles known goal (next result)) :
    Settles known goal (computation >>= next) := by
  cases computation with
  | ok result => exact continues result settles
  | error fault => exact settles

theorem map {computation : Except PrimitiveFault α} {action : α → β}
    (settles : Settles known property computation)
    (implies : ∀ result, property result → goal (action result)) :
    Settles known goal (action <$> computation) := by
  cases computation with
  | ok result => exact implies result settles
  | error fault => exact settles

theorem mapM {items : List β} {action : β → Except PrimitiveFault α}
    (each : ∀ item ∈ items, Settles known property (action item)) :
    Settles known (fun _ => True) (items.mapM action) := by
  induction items with
  | nil => trivial
  | cons item items induction =>
      rw [List.mapM_cons]
      refine (each item (by simp)).bind fun first _ => ?_
      exact (induction fun other member => each other (by simp [member])).bind fun _ _ => trivial

end Settles

namespace Operation

variable {known : Procedure → Prop}

def Answered (known : Procedure → Prop) (answer : Answer) : Prop :=
  answer.value.Procedures known

/-- An operation gives no procedures but those among its arguments. -/
def Keeps (known : Procedure → Prop) (operation : Operation) : Prop :=
  ∀ next arguments result, (∀ argument ∈ arguments, argument.Procedures known) →
    operation.answer? next arguments = some result →
      Settles known (Answered known) result

theorem Keeps.nullary {apply : Place → Except PrimitiveFault Answer}
    (settles : ∀ next, Settles known (Answered known) (apply next)) :
    Keeps known (.nullary apply) := by
  intro next arguments result _ found
  simp only [answer?] at found
  split at found
  · cases found
    exact settles next
  · cases found

theorem Keeps.unary {apply : Place → Value → Except PrimitiveFault Answer}
    (settles : ∀ next argument, argument.Procedures known →
      Settles known (Answered known) (apply next argument)) : Keeps known (.unary apply) := by
  intro next arguments result procedures found
  simp only [answer?] at found
  split at found
  · cases found
    exact settles next _ (procedures _ (by simp))
  · cases found

theorem Keeps.binary {apply : Place → Value → Value → Except PrimitiveFault Answer}
    (settles : ∀ next first second, first.Procedures known → second.Procedures known →
      Settles known (Answered known) (apply next first second)) : Keeps known (.binary apply) := by
  intro next arguments result procedures found
  simp only [answer?] at found
  split at found
  · cases found
    exact settles next _ _ (procedures _ (by simp)) (procedures _ (by simp))
  · cases found

theorem Keeps.variadic {least : Nat} {apply : Place → List Value → Except PrimitiveFault Answer}
    (settles : ∀ next arguments, (∀ argument ∈ arguments, argument.Procedures known) →
      Settles known (Answered known) (apply next arguments)) :
    Keeps known (.variadic least apply) := by
  intro next arguments result procedures found
  simp only [answer?] at found
  split at found
  · cases found
    exact settles next arguments procedures
  · cases found

theorem Keeps.function {apply : Value → Except PrimitiveFault Value}
    (settles : ∀ argument, argument.Procedures known →
      Settles known (Datum.Procedures known) (apply argument)) : Keeps known (function apply) :=
  .unary fun _ argument procedures => (settles argument procedures).map fun _ result => result

theorem Keeps.function₂ {apply : Value → Value → Except PrimitiveFault Value}
    (settles : ∀ first second, first.Procedures known → second.Procedures known →
      Settles known (Datum.Procedures known) (apply first second)) :
    Keeps known (function₂ apply) :=
  .binary fun _ first second one two => (settles first second one two).map fun _ result => result

theorem Keeps.functionOfMany {least : Nat} {apply : List Value → Except PrimitiveFault Value}
    (settles : ∀ arguments, (∀ argument ∈ arguments, argument.Procedures known) →
      Settles known (Datum.Procedures known) (apply arguments)) :
    Keeps known (functionOfMany least apply) :=
  .variadic fun _ arguments procedures =>
    (settles arguments procedures).map fun _ result => result

theorem predicate_keeps (test : Value → Bool) : Keeps known (predicate test) :=
  .function fun _ _ => trivial

theorem relation_keeps (test : Value → Value → Bool) : Keeps known (relation test) :=
  .function₂ fun _ _ _ _ => trivial

/-! ### Numbers -/

theorem number_settles {value : Value} (procedures : value.Procedures known) :
    Settles known (fun _ => True) (number value) := by
  unfold number
  split
  · trivial
  · exact List.forall_mem_singleton.mpr procedures

theorem realNumber_settles {value : Value} (procedures : value.Procedures known) :
    Settles known (fun _ => True) (realNumber value) := by
  unfold realNumber
  split
  · exact List.forall_mem_singleton.mpr procedures
  · trivial
  · exact List.forall_mem_singleton.mpr procedures

theorem integer_settles {value : Value} (procedures : value.Procedures known) :
    Settles known (fun _ => True) (integer value) := by
  unfold integer
  split
  · trivial
  · exact List.forall_mem_singleton.mpr procedures

theorem accumulate_settles (combine : Number → Number → Except ArithmeticFault Number)
    (total : Number) {arguments : List Value}
    (procedures : ∀ argument ∈ arguments, argument.Procedures known) :
    Settles known (fun _ => True) (accumulate combine total arguments) := by
  induction arguments generalizing total with
  | nil => trivial
  | cons argument arguments induction =>
      have ⟨first, others⟩ := List.forall_mem_cons.mp procedures
      have settles := number_settles first
      unfold accumulate
      split
      · rename_i fault found
        rwa [found] at settles
      · split
        · exact List.forall_mem_nil _
        · exact induction _ others

theorem fold_keeps (least : Nat) (neutral : Int64)
    (combine : Number → Number → Except ArithmeticFault Number) :
    Keeps known (functionOfMany least (fold neutral combine)) := by
  refine .functionOfMany fun arguments procedures => ?_
  unfold fold
  split
  · trivial
  · exact (accumulate_settles combine _ procedures).map fun _ _ => trivial
  · have ⟨first, others⟩ := List.forall_mem_cons.mp procedures
    refine (number_settles first).bind fun total _ => ?_
    exact (accumulate_settles combine total others).map fun _ _ => trivial

theorem division_keeps (asked : Number.DivisionResult) : Keeps known (division asked) := by
  refine .function₂ fun first second one two => ?_
  refine (integer_settles one).bind fun dividend _ => ?_
  refine (integer_settles two).bind fun divisor _ => ?_
  split
  · trivial
  · exact List.forall_mem_nil _

theorem magnitude_keeps : Keeps known magnitude := by
  refine .function fun argument procedures => ?_
  refine (number_settles procedures).bind fun number _ => ?_
  split
  · trivial
  · exact List.forall_mem_nil _

theorem comparison_keeps (relation : Number.Comparison)
    {operand : Value → Except PrimitiveFault Number}
    (settles : ∀ value : Value, value.Procedures known →
      Settles known (fun _ => True) (operand value)) :
    Keeps known (comparison relation operand) := by
  refine .functionOfMany fun arguments procedures => ?_
  have numbers := Settles.mapM fun argument member =>
    settles argument (procedures argument member)
  exact numbers.bind fun _ _ => trivial

/-! ### Pairs and output -/

theorem cons_keeps : Keeps known cons :=
  .binary fun _ _ _ car cdr => ⟨car, cdr⟩

theorem car_keeps : Keeps known car := by
  refine .function fun argument procedures => ?_
  cases argument with
  | pair place car cdr => exact procedures.1
  | _ => exact List.forall_mem_singleton.mpr procedures

theorem cdr_keeps : Keeps known cdr := by
  refine .function fun argument procedures => ?_
  cases argument with
  | pair place car cdr => exact procedures.2
  | _ => exact List.forall_mem_singleton.mpr procedures

theorem list_keeps : Keeps known list :=
  .variadic fun next _ procedures => Value.newList_procedures procedures next

theorem length_keeps : Keeps known length := by
  refine .function fun argument procedures => ?_
  split
  · trivial
  · exact List.forall_mem_singleton.mpr procedures

theorem display_keeps : Keeps known display :=
  .unary fun _ _ _ => trivial

theorem newline_keeps : Keeps known newline :=
  .nullary fun _ => trivial

end Operation

/-- No primitive makes procedures. -/
theorem Primitive.operation_keeps (known : Procedure → Prop) (primitive : Primitive) :
    primitive.operation.Keeps known := by
  cases primitive with
  | add => exact Operation.fold_keeps 0 0 _
  | subtract => exact Operation.fold_keeps 1 0 _
  | multiply => exact Operation.fold_keeps 0 1 _
  | divide => exact Operation.fold_keeps 1 1 _
  | remainder | quotient | modulo => exact Operation.division_keeps _
  | magnitude => exact Operation.magnitude_keeps
  | numbersEqual =>
      exact Operation.comparison_keeps _ fun _ procedures => Operation.number_settles procedures
  | less | greater | atMost | atLeast =>
      exact Operation.comparison_keeps _ fun _ procedures => Operation.realNumber_settles procedures
  | cons | pair => exact Operation.cons_keeps
  | car | first => exact Operation.car_keeps
  | cdr | rest => exact Operation.cdr_keeps
  | list => exact Operation.list_keeps
  | length => exact Operation.length_keeps
  | display => exact Operation.display_keeps
  | newline => exact Operation.newline_keeps
  | eq | eqv | equal => exact Operation.relation_keeps _
  | _ => exact Operation.predicate_keeps _

end SmallScheme
