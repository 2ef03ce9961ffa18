import Mathlib.Algebra.GroupWithZero.Nat
import SmallScheme.Proofs.Courses
import SmallScheme.Proofs.Frames.Lookup

namespace SmallScheme

/-! # Counting

Expressions with natural numbers that fit, and calls of procedures in tail position: what
they come to where the names in them are known, and how many levels they take. -/

/-! ## Natural numbers -/

/-- A natural number as a datum. -/
def Datum.natural {ι : Type} (count : Nat) : Datum ι :=
  .number (.integer (Int64.ofNat count))

section

variable {left right : Nat}

theorem Number.checked_natural (small : left < 2 ^ 63) : checked left = .ok (Int64.ofNat left) := by
  have upper : Int64.maxValue.toInt = 9223372036854775807 := by decide
  have lower : Int64.minValue.toInt = -9223372036854775808 := by decide
  have fits : Int64.minValue.toInt ≤ (left : Int) ∧ (left : Int) ≤ Int64.maxValue.toInt := by omega
  rw [checked, fitInteger?, if_pos fits, Int64.ofInt_eq_ofNat]

theorem Primitive.equal_naturals (smallLeft : left < 2 ^ 63) (smallRight : right < 2 ^ 63)
    (next : Place) :
    numbersEqual.operation.answer? next [.natural left, .natural right] =
      some (.ok (Operation.plain next (.boolean (left == right)))) := by
  have same : (Int64.ofNat left == Int64.ofNat right) = (left == right) := by
    rw [Bool.eq_iff_iff, beq_iff_eq, beq_iff_eq, ← Int64.toInt_inj,
      Int64.toInt_ofNat_of_lt smallLeft, Int64.toInt_ofNat_of_lt smallRight]
    omega
  rw [← same, ← Bool.and_true (Int64.ofNat left == Int64.ofNat right)]
  rfl

theorem Operation.fold_two {combine : Number → Number → Except ArithmeticFault Number}
    {first second result : Number} (combined : combine first second = .ok result)
    (neutral : Int64) :
    fold neutral combine [.number first, .number second] = .ok (.number result) := by
  change Datum.number <$> accumulate combine first [.number second] = _
  simp only [accumulate, number, combined]
  rfl

theorem Primitive.add_naturals (small : left + right < 2 ^ 63) (next : Place) :
    add.operation.answer? next [.natural left, .natural right] =
      some (.ok (Operation.plain next (.natural (left + right)))) := by
  have sum : (Int64.ofNat left).toInt + (Int64.ofNat right).toInt =
      ((left + right : Nat) : Int) := by
    rw [Int64.toInt_ofNat_of_lt (by omega), Int64.toInt_ofNat_of_lt (by omega)]
    omega
  have added : Number.add (.integer (Int64.ofNat left)) (.integer (Int64.ofNat right)) =
      .ok (.integer (Int64.ofNat (left + right))) := by
    simp only [Number.add, Number.combine, sum, Number.checked_natural small]
    rfl
  change some (Operation.plain next <$> Operation.fold 0 Number.add _) = _
  rw [Datum.natural, Datum.natural, Operation.fold_two added]
  rfl

theorem Primitive.subtract_one (small : left + 1 < 2 ^ 63) (next : Place) :
    subtract.operation.answer? next [.natural (left + 1), .natural 1] =
      some (.ok (Operation.plain next (.natural left))) := by
  have smaller : left < 2 ^ 63 := by omega
  have difference : (Int64.ofNat (left + 1)).toInt - (Int64.ofNat 1).toInt = (left : Int) := by
    rw [Int64.toInt_ofNat_of_lt small, Int64.toInt_ofNat_of_lt (by decide)]
    omega
  have subtracted : Number.subtract (.integer (Int64.ofNat (left + 1))) (.integer (Int64.ofNat 1)) =
      .ok (.integer (Int64.ofNat left)) := by
    simp only [Number.subtract, Number.combine, difference, Number.checked_natural smaller]
    rfl
  change some (Operation.plain next <$> Operation.fold 0 Number.subtract _) = _
  rw [Datum.natural, Datum.natural, Operation.fold_two subtracted]
  rfl

end

/-! ## Expressions with numbers -/

/-- `(name operand ...)` -/
def Node.named (name : String) (operands : List Node) (tail : Bool) : Node :=
  .call (.variable ⟨name⟩) operands tail

def Node.natural (count : Nat) : Node :=
  .literal (.natural count)

/-- The names by which programs count. -/
def arithmetic : Bindings :=
  [(⟨"="⟩, .procedure (.primitive .numbersEqual)), (⟨"+"⟩, .procedure (.primitive .add)),
    (⟨"-"⟩, .procedure (.primitive .subtract))]

theorem Store.Sees.computes {scene : Scene} {frame : FrameId} {known : Bindings}
    (sees : scene.store.Sees frame known) {name : Symbol} {value : Value}
    (found : known.get? name = some value) (room : Nat) :
    Computes room scene frame (.variable name) value :=
  Passes.name room (sees.value found)

namespace Computes

variable {scene : Scene} {frame : FrameId} {code : Node} {left right : Nat}

/-- A primitive on constants and names takes one level. -/
theorem primitive {name : String} {operation : Primitive} {codes : List Node}
    {arguments : List Value} {value : Value}
    (operator : scene.store.get? frame ⟨name⟩ = some (.procedure (.primitive operation)))
    (computed : List.Forall₂ (Computes 0 scene frame) codes arguments)
    (answered : operation.operation.answer? scene.store.next arguments =
      some (.ok (Operation.plain scene.store.next value))) :
    Computes 1 scene frame (.named name codes false) value :=
  (Passes.call (Passes.name 0 operator) computed false).trans (Passes.primitive 1 answered false)

theorem pair {first second : Node} {one two : Value} (computed : Computes 0 scene frame first one)
    (also : Computes 0 scene frame second two) :
    List.Forall₂ (Computes 0 scene frame) [first, second] [one, two] :=
  .cons computed (.cons also .nil)

theorem equal
    (operator : scene.store.get? frame ⟨"="⟩ = some (.procedure (.primitive .numbersEqual)))
    (computed : Computes 0 scene frame code (.natural left)) (smallLeft : left < 2 ^ 63)
    (smallRight : right < 2 ^ 63) :
    Computes 1 scene frame (.named "=" [code, .natural right] false) (.boolean (left == right)) :=
  primitive operator (computed.pair (Passes.literal 0 scene frame _))
    (Primitive.equal_naturals smallLeft smallRight _)

theorem add_one (operator : scene.store.get? frame ⟨"+"⟩ = some (.procedure (.primitive .add)))
    (computed : Computes 0 scene frame code (.natural left)) (small : left + 1 < 2 ^ 63) :
    Computes 1 scene frame (.named "+" [code, .natural 1] false) (.natural (left + 1)) :=
  primitive operator (computed.pair (Passes.literal 0 scene frame _))
    (Primitive.add_naturals small _)

theorem subtract_one
    (operator : scene.store.get? frame ⟨"-"⟩ = some (.procedure (.primitive .subtract)))
    (computed : Computes 0 scene frame code (.natural (left + 1))) (small : left + 1 < 2 ^ 63) :
    Computes 1 scene frame (.named "-" [code, .natural 1] false) (.natural left) :=
  primitive operator (computed.pair (Passes.literal 0 scene frame _))
    (Primitive.subtract_one small _)

end Computes

/-! ## Calls in tail position -/

/-- A procedure of the store with its code and its home, where the given names are known. -/
structure Store.Keeps (store : Store) (place : Place) (body : Node) (home : FrameId)
    (known : Bindings) : Prop where
  closure : store.closures[place]? = some ⟨body, home⟩
  sees : store.Sees home known

namespace Store.Keeps

variable {scene : Scene} {place : Place} {body : Node} {home frame : FrameId}
  {known : Bindings} {codes : List Node} {arguments : List Value} {required : List Symbol}
  {own : Option Symbol} {name : String}

theorem enter {store : Store} (keeps : store.Keeps place body home known) (parent : FrameId)
    (bindings : Bindings) : (store.enter parent bindings).2.Keeps place body home known :=
  ⟨keeps.closure, keeps.sees.enter_old parent bindings⟩

theorem call (keeps : scene.store.Keeps place body home known) (room : Nat)
    (fits : arguments.length = required.length) :
    Passes room scene (.call (.procedure (.compound place own ⟨required, none⟩)) arguments true)
      { scene with store := (scene.store.enter home (.ofPairs (required.zip arguments))).2 }
      (.run body scene.store.frames.size) :=
  Passes.tailCall room keeps.closure fits

/-- A call in tail position leads to the body of the procedure. -/
theorem named (keeps : scene.store.Keeps place body home known)
    (callee : scene.store.get? frame ⟨name⟩ =
      some (.procedure (.compound place own ⟨required, none⟩)))
    (computed : List.Forall₂ (Computes 1 scene frame) codes arguments)
    (fits : arguments.length = required.length) :
    Passes 2 scene (.run (.named name codes true) frame)
      { scene with store := (scene.store.enter home (.ofPairs (required.zip arguments))).2 }
      (.run body scene.store.frames.size) :=
  (Passes.call (Passes.name 1 callee) computed true).trans (keeps.call 2 fits)

end Store.Keeps

end SmallScheme
