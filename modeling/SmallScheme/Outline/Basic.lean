import SmallScheme.Text.Quoted
import SmallScheme.Text.Visible

namespace SmallScheme

/-! Outlines: the structure of values, programs and errors spelled out in full,
either on one line or indented with a line for each part. -/

/-- A leaf of text, or parts between an opening and a closing text. Each part
has a label, which may be empty; `gap` stands inside the delimiters when all is
on one line. -/
inductive Outline where
  | leaf (text : String)
  | group (opening gap closing : String) (parts : List (String × Outline))

namespace Outline

/-! ## Kinds of groups -/

/-- `name(part, ...)` -/
def tuple (name : String) (parts : List Outline) : Outline :=
  .group (name ++ "(") "" ")" (parts.map ("", ·))

/-- `name` and the fields `field: part, ...` in braces -/
def record (name : String) (fields : List (String × Outline)) : Outline :=
  .group (name ++ " \x7b") " " "\x7d" (fields.map fun (field, part) => (field ++ ": ", part))

/-- `[part, ...]` -/
def list : List Outline → Outline
  | [] => .leaf "[]"
  | parts => .group "[" "" "]" (parts.map ("", ·))

/-- `None` or `Some(part)` -/
def option : Option Outline → Outline
  | none => .leaf "None"
  | some part => tuple "Some" [part]

def flag (value : Bool) : Outline :=
  .leaf (if value then "true" else "false")

/-! ## Quoted text -/

private def hexadecimal (value : Nat) : String :=
  String.ofList (Nat.toDigits 16 value)

/-- How a character stands in the outline of a text: as itself if it is visible,
with the usual escapes, and else by its number. -/
def inOutline : Char → String
  | '"' => "\\\""
  | '\\' => "\\\\"
  | '\n' => "\\n"
  | '\t' => "\\t"
  | '\r' => "\\r"
  | '\x00' => "\\0"
  | character =>
      if Text.isVisible character then character.toString
      else "\\u\x7b" ++ hexadecimal character.toNat ++ "\x7d"

def quoted (text : String) : Outline :=
  .leaf (Text.quoted inOutline text)

/-! ## Rendering -/

mutual

/-- The outline on one line. -/
def onOneLine : Outline → String
  | .leaf text => text
  | .group opening gap closing parts =>
      opening ++ gap ++ partsOnOneLine parts ++ gap ++ closing

/-- Parts with commas between them. -/
def partsOnOneLine : List (String × Outline) → String
  | [] => ""
  | [(label, part)] => label ++ part.onOneLine
  | (label, part) :: parts => label ++ part.onOneLine ++ ", " ++ partsOnOneLine parts

end

mutual

/-- The outline with a line for each part, four blanks deeper than its group. -/
def indentedBy (indent : String) : Outline → String
  | .leaf text => text
  | .group opening _ closing parts =>
      opening ++ "\n" ++ partsIndentedBy (indent ++ "    ") parts ++ indent ++ closing

/-- Each part on lines of its own and with a comma behind it. -/
def partsIndentedBy (indent : String) : List (String × Outline) → String
  | [] => ""
  | (label, part) :: parts =>
      indent ++ label ++ part.indentedBy indent ++ ",\n" ++ partsIndentedBy indent parts

end

def indented (outline : Outline) : String :=
  outline.indentedBy ""

example : (tuple "Some" [list [leaf "1", leaf "2"]]).onOneLine = "Some([1, 2])" := by
  decide +kernel
example : (tuple "Some" [leaf "1"]).indented = "Some(\n    1,\n)" := by
  decide +kernel

end Outline

end SmallScheme
