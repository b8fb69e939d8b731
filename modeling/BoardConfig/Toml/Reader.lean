import BoardConfig.Toml.Number
import BoardConfig.Toml.Tree

/-! Reading TOML documents. -/

namespace BoardConfig.Toml

/-- The number of arrays, inline tables or parts of a dotted key at which a document is too deep. -/
def depthLimit : Nat := 80

/-- The text after blanks. -/
def skipBlanks (text : List Char) : List Char :=
  text.dropWhile isBlank

/-- The text after blanks, line breaks and comments, as they may stand inside an array. -/
def skipSpace (inComment : Bool) : List Char → List Char
  | [] => []
  | c :: rest =>
    -- A line break ends a comment, and any other plain character goes on with it.
    if startsWithBreak (c :: rest) then skipSpace false rest
    else if inComment then (if isPlain c then skipSpace true rest else c :: rest)
    else if isBlank c then skipSpace false rest
    else if c = '#' then skipSpace true rest
    else c :: rest

/-- The text after the rest of a line that holds nothing more than a comment. -/
def endLine (text : List Char) : Option (List Char) :=
  -- A comment goes up to the first character that it cannot hold.
  let text :=
    match skipBlanks text with
    | '#' :: comment => comment.dropWhile isPlain
    | text => text
  match text with
  | [] => some []
  | '\n' :: rest => some rest
  | '\r' :: '\n' :: rest => some rest
  | _ => none

/-- One part of a dotted key, bare or quoted, and the text after it. -/
def readKeyPart (text : List Char) : Option (String × List Char) :=
  match text.takeWhile isBare with
  -- Without bare characters the part must be quoted.
  | [] => readQuotedLine text
  | bare => some (String.ofList bare, text.dropWhile isBare)

/-- The parts of a dotted key of at most so many parts, and the text after it. -/
def readKeyParts : Nat → List Char → Option (List String × List Char)
  | 0, _ => none
  | limit + 1, text => do
    let (part, text) ← readKeyPart (skipBlanks text)
    match skipBlanks text with
    -- A dot asks for one more part.
    | '.' :: text =>
      let (parts, text) ← readKeyParts limit text
      return (part :: parts, text)
    | text => return ([part], text)

/-- A dotted key, as the path to its last part and that part, and the text after it. -/
def readKey (text : List Char) : Option (List String × String × List Char) := do
  let (parts, text) ← readKeyParts (depthLimit - 1) text
  let name ← parts.getLast?
  return (parts.dropLast, name, text)

/-- A value that opens nothing, and the text after it. -/
def readScalar : List Char → Option (Value × List Char)
  | 't' :: 'r' :: 'u' :: 'e' :: rest => some (.boolean true, rest)
  | 'f' :: 'a' :: 'l' :: 's' :: 'e' :: rest => some (.boolean false, rest)
  -- Either quote begins a string.
  | '"' :: text => (readQuoted ('"' :: text)).map fun (string, rest) => (.string string, rest)
  | '\'' :: text => (readQuoted ('\'' :: text)).map fun (string, rest) => (.string string, rest)
  | text =>
    -- A point in time begins with digits as a number does, so it is tried first.
    match readDatetime text with
    | some (datetime, rest) => some (.datetime datetime, rest)
    | none =>
      (readNumber text).map fun
        | (.integer value, rest) => (.integer value, rest)
        | (.float value, rest) => (.float value, rest)

mutual

/-- A value below `depth` arrays and inline tables, and the text after it. -/
def readValue : Nat → Nat → List Char → Option (Value × List Char)
  | 0, _, _ => none
  | budget + 1, depth, text =>
    match text with
    | '[' :: text =>
      if depth + 1 < depthLimit then
        (readItems budget (depth + 1) text).map fun (items, rest) => (.array items, rest)
      else none
    | '\x7b' :: text =>
      if depth + 1 < depthLimit then
        -- An empty table has no pairs to read.
        match skipBlanks text with
        | '\x7d' :: rest => some (.table [], rest)
        | text =>
          (readPairs budget (depth + 1) [] text).map fun (branches, rest) =>
            (.table (finishBranches branches), rest)
      else none
    | text => readScalar text

/-- The rest of an array, and the text after it. -/
def readItems : Nat → Nat → List Char → Option (List Value × List Char)
  | 0, _, _ => none
  | budget + 1, depth, text =>
    match skipSpace false text with
    -- The array ends here, also behind the comma of its last item.
    | ']' :: rest => some ([], rest)
    | text => do
      let (item, text) ← readValue budget depth text
      match skipSpace false text with
      | ',' :: text =>
        let (items, rest) ← readItems budget depth text
        return (item :: items, rest)
      | ']' :: rest => return ([item], rest)
      | _ => none

/-- The rest of an inline table that holds some pairs already, and the text after it. -/
def readPairs : Nat → Nat → Branches → List Char → Option (Branches × List Char)
  | 0, _, _, _ => none
  | budget + 1, depth, branches, text => do
    let (path, name, text) ← readKey text
    let '=' :: text := text | none
    let (value, text) ← readValue budget depth (skipBlanks text)
    let branches ← bindDotted name value path branches
    -- Unlike in an array, a comma needs another pair behind it.
    match skipBlanks text with
    | ',' :: text => readPairs budget depth branches text
    | '\x7d' :: rest => return (branches, rest)
    | _ => none

end

/-- A header or a binding, and the text after it. -/
def readStatement : List Char → Option (Statement × List Char)
  | '[' :: '[' :: text => do
    let (path, name, text) ← readKey text
    -- Both brackets close the header of an array of tables.
    let ']' :: ']' :: text := text | none
    return (.element path name, text)
  | '[' :: text => do
    let (path, name, text) ← readKey text
    let ']' :: text := text | none
    return (.table path name, text)
  | text => do
    let (path, name, text) ← readKey text
    let '=' :: text := text | none
    -- Each character is looked at by at most two of the readers that the budget counts.
    let (value, text) ← readValue (2 * text.length + 2) 0 (skipBlanks text)
    return (.binding path name value, text)

/-- The statements of a document of at most so many lines. -/
def readStatements : Nat → List Char → Option (List Statement)
  | 0, _ => none
  | lines + 1, text =>
    match skipBlanks text with
    -- Blanks alone end the document.
    | [] => some []
    | c :: text =>
      if c = '#' ∨ startsWithBreak (c :: text) then
        (endLine (c :: text)).bind fun text => readStatements lines text
      else do
        let (statement, text) ← readStatement (c :: text)
        let text ← endLine text
        let statements ← readStatements lines text
        return statement :: statements

/-- The table of a document, which may begin with a byte-order mark. -/
def Table.parse? (document : String) : Option Table :=
  -- The byte-order mark belongs to no statement.
  let text :=
    match document.toList with
    | '\ufeff' :: text => text
    | text => text
  (readStatements (text.length + 1) text).bind Table.ofStatements?

/-- How a reader words what is wrong with documents, on as many lines as it takes. -/
structure Diagnostics where
  /-- The wording for a document that is no profile. -/
  profile : String → String
  /-- The wording for a document that is no manifest. -/
  manifest : String → String

end BoardConfig.Toml
