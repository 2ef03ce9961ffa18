import SmallScheme.Node.Compile
import SmallScheme.Proofs.Grammar
import SmallScheme.Proofs.Yields

namespace SmallScheme

/-! # Names

The checks that the compiler makes of names are those of the grammar: which symbol
can be a variable, which ones introduce a form, and that the names in one list
differ. -/

namespace Compiler

open Grammar

/-! ## Reserved names -/

theorem isReserved_iff (name : Symbol) : name.isReserved = true ↔ ¬IsVariable name := by
  have same : reservedNames = reserved := rfl
  simp [Symbol.isReserved, IsVariable, same]

theorem variableName_symbol {name : Symbol} (free : IsVariable name) :
    variableName (.symbol name) = .ok name := by
  have notReserved : ¬name.isReserved = true := fun yes => (isReserved_iff name).mp yes free
  rw [variableName, if_neg notReserved]

theorem variableName_sound (datum : Value) :
    Yields (variableName datum) fun name => datum = .symbol name ∧ IsVariable name := by
  unfold variableName
  split
  · split
    · exact .error _
    · rename_i name notReserved
      exact .ok ⟨rfl, by simpa [isReserved_iff] using notReserved⟩
  · exact .error _

theorem isSymbol_iff (symbol : Symbol) (datum : Value) :
    isSymbol symbol datum = true ↔ datum = .symbol symbol := by
  cases datum <;> simp [isSymbol]

theorem formOf?_eq_some_iff (datum : Value) (form : Form) :
    formOf? datum = some form ↔ datum = .symbol ⟨form.name⟩ := by
  constructor
  · intro found
    cases datum with
    | symbol symbol =>
        have named : form.name = symbol.name := by simpa using List.find?_some found
        rw [named]
    | _ => cases found
  · rintro rfl
    cases form <;> rfl

/-! ## Distinct names -/

theorem distinctBeside_eq_ok_iff (earlier names : List Symbol) :
    distinctBeside earlier names = .ok () ↔ names.Nodup ∧ ∀ name ∈ names, name ∉ earlier := by
  induction names generalizing earlier with
  | nil => simp [distinctBeside]
  | cons name names induction =>
      by_cases clash : name ∈ earlier
      · simp [distinctBeside, clash]
      · simp only [distinctBeside, List.contains_eq_mem, clash, decide_false, Bool.false_eq_true,
          if_false, induction, List.nodup_cons, List.mem_cons, forall_eq_or_imp, not_or]
        constructor
        · rintro ⟨distinct, apart⟩
          refine ⟨⟨fun again => (apart name again).1 rfl, distinct⟩, not_false, ?_⟩
          exact fun other member => (apart other member).2
        · rintro ⟨⟨fresh, distinct⟩, _, apart⟩
          refine ⟨distinct, fun other member => ⟨?_, apart other member⟩⟩
          rintro rfl
          exact fresh member

theorem distinct_eq_ok_iff (names : List Symbol) : distinct names = .ok () ↔ names.Nodup := by
  simp [distinct, distinctBeside_eq_ok_iff]

theorem distinct_sound (names : List Symbol) : Yields (distinct names) fun _ => names.Nodup :=
  fun _ accepted => (distinct_eq_ok_iff names).mp accepted

theorem distinct_complete {names : List Symbol} (apart : names.Nodup) :
    Gives (distinct names) fun _ => True := by
  rw [(distinct_eq_ok_iff names).mpr apart]
  exact .ok trivial

/-! ## Parameter lists -/

theorem formalNames_sound (datum : Value) :
    Yields (formalNames datum) fun formals => FormalNames datum formals.names := by
  induction datum with
  | nil => exact .ok .nil
  | pair place first more _ induction =>
      refine (variableName_sound first).bind fun name free => ?_
      rcases free with ⟨rfl, free⟩
      exact induction.bind fun formals names => .ok (.cons free names)
  | symbol name =>
      refine (variableName_sound _).bind fun name free => ?_
      rcases free with ⟨equal, free⟩
      cases equal
      exact .ok (.rest free)
  | _ => exact (variableName_sound _).bind fun name free => nomatch free.1

theorem formalNames_complete {datum : Value} {names : List Symbol}
    (written : FormalNames datum names) :
    Gives (formalNames datum) fun formals => formals.names = names := by
  induction written with
  | nil => exact .ok rfl
  | rest free =>
      rw [formalNames, variableName_symbol free]
      · exact .ok rfl
      · simp
      · simp
  | cons free _ induction =>
      rw [formalNames, variableName_symbol free]
      exact induction.bind fun formals equal => .ok (congrArg _ equal)

theorem formals_sound (datum : Value) : Yields (formals datum) fun _ => IsFormals datum := by
  refine (formalNames_sound datum).bind fun formals written => ?_
  exact (distinct_sound _).bind fun _ distinct => .ok ⟨_, written, distinct⟩

theorem formals_complete {datum : Value} (written : IsFormals datum) :
    Gives (formals datum) fun _ => True := by
  rcases written with ⟨names, written, distinct⟩
  refine (formalNames_complete written).bind fun formals equal => ?_
  rw [equal]
  exact (distinct_complete distinct).bind fun _ _ => .ok trivial

end Compiler

end SmallScheme
