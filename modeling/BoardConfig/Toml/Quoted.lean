import BoardConfig.Text.Digits

/-! Strings of TOML documents: reading the four quoted forms, and choosing one to write. -/

namespace BoardConfig.Toml

/-- The characters that strings and comments hold as they are: a tab, and all but control characters. -/
def isPlain (c : Char) : Bool :=
  c = '\t' ∨ (' ' ≤ c ∧ c ≠ '\x7f')

/-- The characters between words of a line. -/
def isBlank (c : Char) : Bool :=
  c = ' ' ∨ c = '\t'

/-- The character of a one-letter escape. -/
def simpleEscape? : Char → Option Char
  | 'b' => some '\x08'
  | 't' => some '\t'
  | 'n' => some '\n'
  | 'f' => some '\x0c'
  | 'r' => some '\r'
  | '"' => some '"'
  | '\\' => some '\\'
  | _ => none

/-- The character of a code point, if it is one. -/
def codePoint? (n : Nat) : Option Char :=
  -- Surrogates and numbers past the last code point stand for no character.
  if n.isValidChar then some (Char.ofNat n) else none

/-- The rest of a multi-line string's quotes: of three to five in a row the last three close it. -/
def closeLines (quote : Char) (text : List Char) : Option (List Char × List Char) :=
  -- Up to two quotes before the closing three belong to the string.
  let run := min 5 (text.takeWhile (· = quote)).length
  if 3 ≤ run then some (List.replicate (run - 3) quote, text.drop run) else none

/-- Where a reader stands inside a string in double quotes. -/
inductive QuotedState
  /-- Among the characters of the string. -/
  | inside
  /-- After a backslash. -/
  | escape
  /-- In a code point that still lacks some digits. -/
  | code (missing value : Nat)
  /-- After a backslash and blanks that must end their line. -/
  | lineEnd
  /-- After a backslash that ended its line, before the next character that counts. -/
  | indent

/-- Whether a text begins with a line break. -/
def startsWithBreak : List Char → Bool
  | '\n' :: _ => true
  | '\r' :: '\n' :: _ => true
  | _ => false

/-- The state in which a reader meets a text: dropping an indent ends at the first character that counts. -/
def QuotedState.meeting (state : QuotedState) (text : List Char) : QuotedState :=
  -- Only in an indent does the text itself decide on the state.
  match state with
  | .indent => if startsWithBreak text ∨ (text.head?.map isBlank).getD false then .indent else .inside
  | state => state

/-- The rest of a string in double quotes, of one line or of several, and the text after it. -/
def readEscaped (lines : Bool) (state : QuotedState) : List Char → Option (List Char × List Char)
  | [] => none
  | c :: rest =>
    -- An emitted character stands before what is read from the rest.
    let emit (out : Char) : Option (List Char × List Char) :=
      (readEscaped lines .inside rest).map fun (chars, after) => (out :: chars, after)
    let lineBreak := lines && startsWithBreak (c :: rest)
    match state.meeting (c :: rest) with
    | .inside =>
      -- A quote closes a string of one line, and in one of several it takes three.
      if c = '"' then
        if lines then
          match closeLines '"' (c :: rest) with
          | some closed => some closed
          | none => emit c
        else some ([], rest)
      else if c = '\\' then readEscaped lines .escape rest
      else if isPlain c then emit c
      else if lineBreak then
        -- A carriage return before a newline is dropped, so that every break reads as a newline.
        if c = '\n' then emit c else readEscaped lines .inside rest
      else none
    | .escape =>
      -- Code points have four digits or eight.
      if c = 'u' then readEscaped lines (.code 4 0) rest
      else if c = 'U' then readEscaped lines (.code 8 0) rest
      else
        match simpleEscape? c with
        | some out => emit out
        | none =>
          -- A backslash at the end of a line drops the break and the indent behind it.
          if lineBreak then readEscaped lines .indent rest
          else if lines ∧ isBlank c then readEscaped lines .lineEnd rest
          else none
    | .code missing value =>
      match digitValue? 16 c with
      | some digit =>
        -- The last digit completes the code point.
        if missing ≤ 1 then
          match codePoint? (16 * value + digit) with
          | some out => emit out
          | none => none
        else readEscaped lines (.code (missing - 1) (16 * value + digit)) rest
      | none => none
    | .lineEnd =>
      if lineBreak then readEscaped lines .indent rest
      else if isBlank c then readEscaped lines .lineEnd rest
      else none
    | .indent => readEscaped lines .indent rest

/-- The rest of a string in single quotes, of one line or of several, and the text after it. -/
def readLiteral (lines : Bool) : List Char → Option (List Char × List Char)
  | [] => none
  | c :: rest =>
    let emit : Unit → Option (List Char × List Char) := fun _ =>
      (readLiteral lines rest).map fun (chars, after) => (c :: chars, after)
    -- No escapes here, so a quote can only close the string.
    if c = '\'' then
      if lines then
        match closeLines '\'' (c :: rest) with
        | some closed => some closed
        | none => emit ()
      else some ([], rest)
    else if isPlain c then emit ()
    else if lines && startsWithBreak (c :: rest) then
      if c = '\n' then emit () else readLiteral lines rest
    else none

/-- The text after a line break that directly follows the opening of a multi-line string. -/
def dropFirstBreak : List Char → List Char
  | '\n' :: rest => rest
  | '\r' :: '\n' :: rest => rest
  | text => text

/-- A quoted string in any of the four forms, and the text after it. -/
def readQuoted : List Char → Option (String × List Char)
  | '"' :: '"' :: '"' :: rest => close (readEscaped true .inside (dropFirstBreak rest))
  -- Three quotes come first, as one quote alone begins them as well.
  | '"' :: rest => close (readEscaped false .inside rest)
  | '\'' :: '\'' :: '\'' :: rest => close (readLiteral true (dropFirstBreak rest))
  | '\'' :: rest => close (readLiteral false rest)
  | _ => none
where
  /-- The characters read so far as a string. -/
  close (read : Option (List Char × List Char)) : Option (String × List Char) :=
    read.map fun (chars, rest) => (String.ofList chars, rest)

/-- A quoted string of one line, as keys are, and the text after it. -/
def readQuotedLine : List Char → Option (String × List Char)
  | '"' :: rest => readQuoted.close (readEscaped false .inside rest)
  | '\'' :: rest => readQuoted.close (readLiteral false rest)
  | _ => none

/-- The length of the longest run of a character. -/
def longestRun (c : Char) (text : List Char) : Nat :=
  -- The fold keeps the length of the run that ends here and the longest one so far.
  let (_, longest) := text.foldl (fun (run, longest) d =>
    let run := if d = c then run + 1 else 0
    (run, max longest run)) (0, 0)
  longest

/-- The control characters that no quoted form holds as they are, among which a tab and a newline are not. -/
def needsCode (c : Char) : Bool :=
  c ≠ '\t' ∧ c ≠ '\n' ∧ (c < ' ' ∨ c = '\x7f')

/-- The escape of a control character, by one letter or by its code in upper-case digits. -/
def escapeControl (c : Char) : List Char :=
  if c = '\x08' then ['\\', 'b']
  else if c = '\t' then ['\\', 't']
  else if c = '\n' then ['\\', 'n']
  else if c = '\x0c' then ['\\', 'f']
  else if c = '\r' then ['\\', 'r']
  else '\\' :: 'u' :: zeroPadded 4 ((hexDigits c.toNat).map Char.toUpper)

/-- The characters of a string between double quotes, of which `quotes` in a row need no escape. -/
def escapeAll (lines : Bool) (quotes : Nat) (run : Nat) : List Char → List Char
  | [] => []
  | c :: rest =>
    -- Quotes in a row need an escape only where they might close the string.
    if c = '"' then
      if run < quotes then c :: escapeAll lines quotes (run + 1) rest
      else '\\' :: c :: escapeAll lines quotes 0 rest
    -- A backslash always takes another one.
    else if c = '\\' then '\\' :: '\\' :: escapeAll lines quotes 0 rest
    -- Line breaks stand as they are in a string of several lines.
    else if c = '\n' ∧ lines then c :: escapeAll lines quotes 0 rest
    else if c < ' ' ∨ c = '\x7f' then escapeControl c ++ escapeAll lines quotes 0 rest
    else c :: escapeAll lines quotes 0 rest

/-- A string between double quotes on one line. -/
def quoteLine (text : List Char) : List Char :=
  '"' :: escapeAll false 0 0 text ++ ['"']

/-- A string between three quotes, which opens with a line break if it holds one. -/
def quoteLines (quote : Char) (text written : List Char) : List Char :=
  let mark := [quote, quote, quote]
  mark ++ (if '\n' ∈ text then ['\n'] else []) ++ written ++ mark

/-- The quoted form of a string: the first of the plain forms that can hold it, else an escaped one. -/
def quote (text : String) : String :=
  let chars := text.toList
  -- Control characters rule out all forms but the escaped ones.
  let coded := chars.any needsCode
  let single := longestRun '\'' chars
  let double := longestRun '"' chars
  String.ofList <|
    -- The forms on one line come before those of several, and each before its escaped one.
    if ¬ coded ∧ '\\' ∉ chars ∧ double = 0 ∧ '\n' ∉ chars then quoteLine chars
    else if ¬ coded ∧ single = 0 ∧ '\n' ∉ chars then '\'' :: chars ++ ['\'']
    else if ¬ coded ∧ '\\' ∉ chars ∧ double ≤ 2 then quoteLines '"' chars (escapeAll true 2 0 chars)
    else if ¬ coded ∧ single ≤ 2 then quoteLines '\'' chars chars
    else if '\n' ∈ chars then quoteLines '"' chars (escapeAll true 2 0 chars)
    else quoteLine chars

/-- The characters of keys that stand without quotes. -/
def isBare (c : Char) : Bool :=
  ('a' ≤ c ∧ c ≤ 'z') ∨ ('A' ≤ c ∧ c ≤ 'Z') ∨ ('0' ≤ c ∧ c ≤ '9') ∨ c = '-' ∨ c = '_'

/-- The written form of a key: bare where that is possible, else quoted on one line. -/
def quoteKey (key : String) : String :=
  let chars := key.toList
  let coded := chars.any fun c => needsCode c ∨ c = '\n'
  String.ofList <|
    -- An empty key is not bare, however few characters it has.
    if chars ≠ [] ∧ chars.all isBare then chars
    else if ¬ coded ∧ '\\' ∉ chars ∧ '"' ∉ chars then quoteLine chars
    else if ¬ coded ∧ '\'' ∉ chars then '\'' :: chars ++ ['\'']
    else quoteLine chars

end BoardConfig.Toml
