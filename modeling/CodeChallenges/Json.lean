import CodeChallenges.Text.Hex
/-!
Records and summaries as JSON text.  An object keeps its fields in the order given; a comma and a
colon are followed by one space; only the quote, the backslash and the control characters below the
space are escaped, all else stands for itself.
-/

namespace CodeChallenges

/-- The JSON values that are written: numbers are integers. -/
inductive Json where
  | null
  | bool (value : Bool)
  | int (value : Int)
  | str (value : String)
  | arr (items : List Json)
  | obj (fields : List (String × Json))

namespace Json

/-- One character inside a JSON string. -/
def escapeChar (c : Char) : List Char :=
  if c == '"' then ['\\', '"']
  else if c == '\\' then ['\\', '\\']
  else if c == '\n' then ['\\', 'n']
  else if c == '\r' then ['\\', 'r']
  else if c == '\t' then ['\\', 't']
  else if c.toNat == 0x08 then ['\\', 'b']
  else if c.toNat == 0x0c then ['\\', 'f']
  else if c.toNat < 0x20 then '\\' :: 'u' :: Text.hexDigits 4 c.toNat
  else [c]

/-- A string as JSON text. -/
def renderString (s : String) : List Char :=
  '"' :: s.toList.flatMap escapeChar ++ ['"']

mutual

/-- A value as JSON text. -/
def render : Json → List Char
  | .null => "null".toList
  | .bool true => "true".toList
  | .bool false => "false".toList
  | .int n => (toString n).toList
  | .str s => renderString s
  | .arr items => '[' :: renderItems items ++ [']']
  | .obj fields => Char.ofNat 0x7b :: renderFields fields ++ [Char.ofNat 0x7d]

/-- The items of an array, with separators between them. -/
def renderItems : List Json → List Char
  | [] => []
  | [item] => render item
  | item :: items => render item ++ [',', ' '] ++ renderItems items

/-- The fields of an object, with separators between them. -/
def renderFields : List (String × Json) → List Char
  | [] => []
  | [(key, value)] => renderString key ++ [':', ' '] ++ render value
  | (key, value) :: fields =>
    renderString key ++ [':', ' '] ++ render value ++ [',', ' '] ++ renderFields fields

end

/-- A value as a JSON string. -/
def text (value : Json) : String :=
  String.ofList (render value)

/-- A text or null. -/
def ofOption : Option String → Json
  | none => .null
  | some s => .str s

end Json

end CodeChallenges
