namespace SmallScheme

/-! Symbols and parameter lists. -/

/-- A name. Symbols with the same name are the same symbol. -/
structure Symbol where
  name : String
  deriving DecidableEq, Repr

/-- How many arguments a procedure takes. -/
structure Arity where
  required : Nat
  /-- More arguments than the required ones are welcome. -/
  rest : Bool
  deriving DecidableEq, Repr

namespace Arity

def exactly (count : Nat) : Arity := ⟨count, false⟩

def atLeast (count : Nat) : Arity := ⟨count, true⟩

def accepts (arity : Arity) (given : Nat) : Bool :=
  if arity.rest then arity.required ≤ given else given = arity.required

theorem accepts_iff (arity : Arity) (given : Nat) :
    arity.accepts given = true ↔
      arity.required ≤ given ∧ (arity.rest = false → given ≤ arity.required) := by
  unfold accepts
  cases arity.rest with
  | true => simp
  | false =>
      simp only [Bool.false_eq_true, if_false, decide_eq_true_eq, forall_const]
      omega

end Arity

/-- A parameter list: `(a b)`, `(a b . rest)` or `rest`. -/
structure Formals where
  required : List Symbol
  rest : Option Symbol
  deriving DecidableEq, Repr

namespace Formals

def arity (formals : Formals) : Arity :=
  ⟨formals.required.length, formals.rest.isSome⟩

/-- All names of a parameter list, the one for the rest last. -/
def names (formals : Formals) : List Symbol :=
  formals.required ++ formals.rest.toList

end Formals

end SmallScheme
