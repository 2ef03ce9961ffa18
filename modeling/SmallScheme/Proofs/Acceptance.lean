import SmallScheme.Proofs.Grammar.Complete
import SmallScheme.Proofs.Grammar.Sound

namespace SmallScheme

/-! # What the compiler accepts

A datum is compiled exactly if it is an expression. The induction is on the height
of the datum, which is that of the compiler: the parts of an expression are nested
less deeply. -/

namespace Compiler

open Grammar

theorem withinHeight_sound (height : Nat) (tail : Bool) (datum : Value)
    (low : datum.height ≤ height) :
    Yields (withinHeight height tail datum) fun _ => IsExpression datum := by
  induction height generalizing tail datum with
  | zero =>
      -- Any compiler for the parts will do, since there are none.
      have none (tail : Bool) (part : Value) :
          Yields (.ok (.literal part) : Except CompileError Node) fun _ => True := .trivial _
      refine (compileWith_sound none tail datum).mono fun _ ⟨parts, phrase, _⟩ => ?_
      refine .intro phrase fun part member => ?_
      exact absurd (phrase.height_lt member) (by omega)
  | succ height induction =>
      have sound (tail : Bool) (part : Value) :
          Yields (withinHeight height tail part) fun _ =>
            part.height ≤ height → IsExpression part :=
        fun node equal low => induction tail part low node equal
      refine (compileWith_sound sound tail datum).mono fun _ ⟨parts, phrase, holds⟩ => ?_
      refine .intro phrase fun part member => holds part member ?_
      have lower := phrase.height_lt member
      omega

theorem withinHeight_complete (height : Nat) (tail : Bool) {datum : Value}
    (low : datum.height ≤ height) (written : IsExpression datum) :
    Gives (withinHeight height tail datum) fun _ => True := by
  induction height generalizing tail datum with
  | zero =>
      rcases written with ⟨phrase, _⟩
      have none (tail : Bool) (part : Value) (impossible : False) :
          Gives (.ok (.literal part) : Except CompileError Node) fun _ => True := .ok trivial
      refine compileWith_complete none (fun _ => False.elim) tail phrase fun part member => ?_
      exact absurd (phrase.height_lt member) (by omega)
  | succ height induction =>
      rcases written with ⟨phrase, holds⟩
      have complete (tail : Bool) (part : Value)
          (holds : part.height ≤ height ∧ IsExpression part) :
          Gives (withinHeight height tail part) fun _ => True := induction tail holds.1 holds.2
      refine compileWith_complete complete (fun _ both => both.2.isVariable) tail phrase
        fun part member => ⟨?_, holds part member⟩
      have lower := phrase.height_lt member
      omega

end Compiler

/-- A datum is compiled, in tail position or not, exactly if it is an expression. -/
theorem compile_accepts_iff (tail : Bool) (datum : Value) :
    (∃ node, Node.compile tail datum = .ok node) ↔ Grammar.IsExpression datum := by
  constructor
  · rintro ⟨node, compiled⟩
    exact Compiler.withinHeight_sound _ tail datum (Nat.le_refl _) node compiled
  · intro written
    rcases Compiler.withinHeight_complete _ tail (Nat.le_refl _) written with
      ⟨node, compiled, _⟩
    exact ⟨node, compiled⟩

end SmallScheme
