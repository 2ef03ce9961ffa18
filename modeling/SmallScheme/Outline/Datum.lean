import SmallScheme.Outline.Basic
import SmallScheme.Primitive.Operation

namespace SmallScheme

/-! Outlines of data. -/

def Symbol.outline (symbol : Symbol) : Outline :=
  .leaf ("'" ++ symbol.name)

def Formals.outline (formals : Formals) : Outline :=
  .record "Formals" [("required", .list (formals.required.map Symbol.outline)),
    ("rest", .option (formals.rest.map Symbol.outline))]

def Arity.outline (arity : Arity) : Outline :=
  .record "Arity" [("required", .leaf (Number.digitsText arity.required)),
    ("rest", .flag arity.rest)]

/-- A procedure is always outlined on one line. -/
def Procedure.outline : Procedure → Outline
  | .primitive operation =>
      let inner := "Primitive(" ++ operation.name ++ ", " ++ operation.arity.outline.onOneLine ++ ")"
      .tuple "Primitive" [.leaf inner]
  | .compound _ name formals =>
      let inner := "Compound(" ++ (Outline.option (name.map Symbol.outline)).onOneLine ++ ", " ++
        formals.outline.onOneLine ++ ")"
      .tuple "Compound" [.leaf inner]

def Number.outline : Number → Outline
  | .integer value => .tuple "Integer" [.leaf (integerText value.toInt)]
  | .real value => .tuple "Float" [.leaf (floatText value)]
  | .complex realPart imaginaryPart =>
      .tuple "Complex" [.leaf (floatText realPart), .leaf (floatText imaginaryPart)]

def Datum.outline {ι : Type} : Datum ι → Outline
  | .nil => .leaf "Nil"
  | .boolean value => .tuple "Boolean" [.flag value]
  | .number value => value.outline
  | .string _ contents => .tuple "String" [.quoted contents]
  | .symbol name => .tuple "Symbol" [name.outline]
  | .pair _ car cdr => .tuple "Pair" [.tuple "Pair" [car.outline, cdr.outline]]
  | .procedure callee => .tuple "Procedure" [callee.outline]

end SmallScheme
