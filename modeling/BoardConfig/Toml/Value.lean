import BoardConfig.Binary64.Shortest
import BoardConfig.SortedMap
import BoardConfig.Toml.Datetime
import BoardConfig.Toml.Quoted

/-! Values of TOML documents and their text in messages. -/

namespace BoardConfig.Toml

/-- A value of a TOML document. -/
inductive Value
  | string (text : String)
  /-- A signed integer, which documents keep to 64 bits. -/
  | integer (value : Int)
  | float (value : Binary64)
  | boolean (value : Bool)
  /-- A point in time. -/
  | datetime (value : Datetime)
  /-- Values in order. -/
  | array (items : List Value)
  /-- Named values, in the order of the document or of their names. -/
  | table (entries : List (String × Value))
  deriving Repr, Inhabited

/-- The named values at the top of a document. -/
abbrev Table := SortedMap Value

/-- The name of a value's type. -/
def Value.typeName : Value → String
  | .string _ => "string"
  | .integer _ => "integer"
  | .float _ => "float"
  | .boolean _ => "boolean"
  | .datetime _ => "datetime"
  | .array _ => "array"
  | .table _ => "table"

mutual

/-- The text of a value on one line, where strings alone may bring line breaks. -/
def Value.inline : Value → String
  | .string text => quote text
  | .integer value => toString value
  | .float value => value.display
  | .boolean value => if value then "true" else "false"
  | .datetime value => value.display
  | .array items => "[" ++ String.intercalate ", " (inlineItems items) ++ "]"
  -- An empty table has no blanks between its braces.
  | .table [] => "\x7b\x7d"
  | .table entries => "\x7b " ++ String.intercalate ", " (inlineEntries entries) ++ " \x7d"

/-- The texts of the items of an array. -/
def inlineItems : List Value → List String
  | [] => []
  | item :: rest => item.inline :: inlineItems rest

/-- The texts of the entries of a table. -/
def inlineEntries : List (String × Value) → List String
  | [] => []
  | (key, value) :: rest => (quoteKey key ++ " = " ++ value.inline) :: inlineEntries rest

end

/-- The key under which a point in time shows when it stands alone, and under which a table gives one. -/
def datetimeKey : String := "$__toml_private_datetime"

/-- The text of a value that stands alone; a point in time shows as a table of its text. -/
def Value.display : Value → String
  | .datetime value => "\x7b " ++ quoteKey datetimeKey ++ " = " ++ quote value.display ++ " \x7d"
  | value => value.inline

end BoardConfig.Toml
