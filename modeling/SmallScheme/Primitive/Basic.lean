import SmallScheme.Symbol

namespace SmallScheme

/-! The primitive procedures and the names they are bound to at first. Two names
may stand for one operation; they are still different procedures. -/

inductive Primitive where
  | add | subtract | multiply | divide
  | remainder | quotient | modulo | magnitude
  | numbersEqual | less | greater | atMost | atLeast
  | cons | pair | car | first | cdr | rest
  | list | length
  | isNull | isPair | isList | isNumber | isInteger
  | isSymbol | isString | isBoolean | isProcedure | not
  | eq | eqv | equal
  | display | newline
  deriving DecidableEq, Repr

namespace Primitive

def name : Primitive → String
  | .add => "+"
  | .subtract => "-"
  | .multiply => "*"
  | .divide => "/"
  | .remainder => "remainder"
  | .quotient => "quotient"
  | .modulo => "modulo"
  | .magnitude => "abs"
  | .numbersEqual => "="
  | .less => "<"
  | .greater => ">"
  | .atMost => "<="
  | .atLeast => ">="
  | .cons => "cons"
  | .pair => "pair"
  | .car => "car"
  | .first => "first"
  | .cdr => "cdr"
  | .rest => "rest"
  | .list => "list"
  | .length => "length"
  | .isNull => "null?"
  | .isPair => "pair?"
  | .isList => "list?"
  | .isNumber => "number?"
  | .isInteger => "integer?"
  | .isSymbol => "symbol?"
  | .isString => "string?"
  | .isBoolean => "boolean?"
  | .isProcedure => "procedure?"
  | .not => "not"
  | .eq => "eq?"
  | .eqv => "eqv?"
  | .equal => "equal?"
  | .display => "display"
  | .newline => "newline"

/-- Every primitive, in the order in which they are bound. -/
def all : List Primitive :=
  [.add, .subtract, .multiply, .divide, .remainder, .quotient, .modulo, .magnitude,
   .numbersEqual, .less, .greater, .atMost, .atLeast,
   .cons, .pair, .car, .first, .cdr, .rest, .list, .length,
   .isNull, .isPair, .isList, .isNumber, .isInteger,
   .isSymbol, .isString, .isBoolean, .isProcedure, .not,
   .eq, .eqv, .equal, .display, .newline]

theorem mem_all (primitive : Primitive) : primitive ∈ all := by
  cases primitive <;> decide

theorem all_nodup : all.Nodup := by decide

end Primitive

end SmallScheme
