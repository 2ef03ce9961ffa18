import SmallScheme.Number.Basic
import SmallScheme.Primitive.Basic

namespace SmallScheme

/-! Data. Source text denotes data, programs are data, and running programs
compute with data; a running program also has procedures among them.

Strings, pairs and compound procedures have an identity beside their contents:
a place, by which `eqv?` tells two of them apart. Data just read have no places
yet (`Datum Unit`); a session gives them places of its own (`Datum Place`). -/

/-- Where a string, a pair or a compound procedure lives. -/
abbrev Place := Nat

/-- A procedure. The code of a compound procedure is found by its place; its
name and parameters are at hand, for calling and for printing it. -/
inductive Procedure where
  | primitive (operation : Primitive)
  | compound (place : Place) (name : Option Symbol) (formals : Formals)
  deriving DecidableEq, Repr

inductive Datum (ι : Type) where
  | nil
  | boolean (value : Bool)
  | number (value : Number)
  | string (place : ι) (text : String)
  | symbol (symbol : Symbol)
  | pair (place : ι) (car cdr : Datum ι)
  | procedure (procedure : Procedure)

/-- A datum as it is read from text. -/
abbrev Source := Datum Unit

/-- A datum in a running session. -/
abbrev Value := Datum Place

namespace Datum

variable {ι : Type}

instance : Inhabited (Datum ι) := ⟨.nil⟩

/-- Only `#f` counts as false. -/
def isTrue : Datum ι → Bool
  | .boolean false => false
  | _ => true

def isNil : Datum ι → Bool
  | .nil => true
  | _ => false

def isBoolean : Datum ι → Bool
  | .boolean _ => true
  | _ => false

def isNumber : Datum ι → Bool
  | .number _ => true
  | _ => false

def isString : Datum ι → Bool
  | .string .. => true
  | _ => false

def isSymbol : Datum ι → Bool
  | .symbol _ => true
  | _ => false

def isPair : Datum ι → Bool
  | .pair .. => true
  | _ => false

def isProcedure : Datum ι → Bool
  | .procedure _ => true
  | _ => false

/-! ## Lists -/

/-- The elements along the cdrs, and what stands after the last of them. -/
def spine : Datum ι → List (Datum ι) × Datum ι
  | .pair _ car cdr =>
      let (items, last) := cdr.spine
      (car :: items, last)
  | last => ([], last)

/-- The elements of a proper list. -/
def items? : Datum ι → Option (List (Datum ι))
  | .nil => some []
  | .pair _ car cdr => cdr.items?.map (car :: ·)
  | _ => none

/-- The length of a proper list, added to `count`. -/
def lengthFrom? (count : Nat) : Datum ι → Option Nat
  | .nil => some count
  | .pair _ _ cdr => cdr.lengthFrom? (count + 1)
  | _ => none

/-- The length of a proper list. -/
def length? (datum : Datum ι) : Option Nat :=
  datum.lengthFrom? 0

def isList (datum : Datum ι) : Bool :=
  datum.length?.isSome

/-- How deep pairs are nested, along cars and cdrs alike. -/
def height : Datum ι → Nat
  | .pair _ car cdr => max car.height cdr.height + 1
  | _ => 0

end Datum

namespace Source

/-- Reversed elements in front of a last datum: `(a b . last)`. -/
def dotted (reversed : List Source) (last : Source) : Source :=
  reversed.foldl (fun cdr car => .pair () car cdr) last

/-- The list of the given elements, which stand in reversed order. -/
def ofReversed (reversed : List Source) : Source :=
  dotted reversed .nil

/-- `'datum` stands for `(quote datum)`. -/
def quoted (datum : Source) : Source :=
  ofReversed [datum, .symbol ⟨"quote"⟩]

end Source

namespace Value

/-- Gives a place of its own to every string and every pair of a datum,
counting from `next`; the result comes with the first place left. -/
def place (next : Place) : Source → Value × Place
  | .nil => (.nil, next)
  | .boolean value => (.boolean value, next)
  | .number value => (.number value, next)
  | .string _ text => (.string next text, next + 1)
  | .symbol symbol => (.symbol symbol, next)
  | .pair _ car cdr =>
      let (car, next) := place next car
      let (cdr, next) := place next cdr
      (.pair next car cdr, next + 1)
  | .procedure procedure => (.procedure procedure, next)

/-- A new list, with places for its pairs from `next` on. -/
def newList (next : Place) (items : List Value) : Value × Place :=
  items.foldr (fun car (cdr, next) => (.pair next car cdr, next + 1)) (.nil, next)

end Value

end SmallScheme
