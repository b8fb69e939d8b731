import BoardConfig.Text.Digits

/-! JSON values and their text over several lines. -/

namespace BoardConfig

/-- A JSON value without fractions. -/
inductive JsonValue
  /-- No value. -/
  | null
  | boolean (value : Bool)
  /-- A natural number. -/
  | number (value : Nat)
  | string (text : String)
  /-- Values in order. -/
  | array (items : List JsonValue)
  /-- Named values in order. -/
  | object (fields : List (String × JsonValue))

/-- The characters that stand for one character inside quotes. -/
def jsonEscape (c : Char) : List Char :=
  match c with
  | '"' => ['\\', '"']
  | '\\' => ['\\', '\\']
  | '\x08' => ['\\', 'b']
  | '\t' => ['\\', 't']
  | '\n' => ['\\', 'n']
  | '\x0c' => ['\\', 'f']
  | '\r' => ['\\', 'r']
  | c => if c < ' ' then '\\' :: 'u' :: zeroPadded 4 (hexDigits c.toNat) else [c]

/-- A text in quotes. -/
def jsonQuote (text : String) : String :=
  "\"" ++ String.ofList (text.toList.flatMap jsonEscape) ++ "\""

/-- A new line at a depth, where each level is indented by two blanks. -/
def newLine (depth : Nat) : String :=
  String.ofList ('\n' :: List.replicate (2 * depth) ' ')

/-- Lines one level below a depth between two brackets. -/
def bracketed (opening closing : String) (depth : Nat) (lines : List String) : String :=
  opening ++ newLine (depth + 1) ++ (("," ++ newLine (depth + 1)).intercalate lines) ++
    newLine depth ++ closing

mutual

/-- The text of a value that begins at a depth, with an item or a field a line. -/
def JsonValue.prettyAt (depth : Nat) : JsonValue → String
  | .null => "null"
  | .boolean value => if value then "true" else "false"
  | .number value => toString value
  | .string text => jsonQuote text
  | .array [] => "[]"
  | .array items => bracketed "[" "]" depth (prettyItems (depth + 1) items)
  | .object [] => "\x7b\x7d"
  | .object fields => bracketed "\x7b" "\x7d" depth (prettyFields (depth + 1) fields)

/-- The texts of the items of an array. -/
def prettyItems (depth : Nat) : List JsonValue → List String
  | [] => []
  | item :: rest => item.prettyAt depth :: prettyItems depth rest

/-- The texts of the fields of an object. -/
def prettyFields (depth : Nat) : List (String × JsonValue) → List String
  | [] => []
  | (name, value) :: rest => (jsonQuote name ++ ": " ++ value.prettyAt depth) :: prettyFields depth rest

end

/-- The text of a value over several lines. -/
def JsonValue.pretty (value : JsonValue) : String :=
  value.prettyAt 0

end BoardConfig
