namespace SmallScheme.Text

/-! Text in double quotes. -/

/-- A text in double quotes, with each character written as `written` says. -/
def quoted (written : Char → String) (text : String) : String :=
  (text.foldl (fun result character => result ++ written character) "\"").push '"'

/-- How a character stands in the written form of a string datum: a double quote,
a backslash, a line feed and a tab are escaped. -/
def inString : Char → String
  | '"' => "\\\""
  | '\\' => "\\\\"
  | '\n' => "\\n"
  | '\t' => "\\t"
  | character => character.toString

end SmallScheme.Text
