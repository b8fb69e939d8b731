import BoardConfig.Binary64
import BoardConfig.Text.Digits

/-! Integers and floating-point numbers as TOML documents write them. -/

namespace BoardConfig.Toml

/-- A number of a document. -/
inductive Number
  | integer (value : Int)
  | float (value : Binary64)
  deriving DecidableEq, Repr

/-- Further digits of a number, where an underscore may stand between two digits. -/
def moreDigits (base : Nat) : List Char → List Char × List Char
  -- An underscore counts only where a digit follows it.
  | '_' :: c :: rest =>
    if isDigitOf base c then
      let (digits, after) := moreDigits base rest
      (c :: digits, after)
    else ([], '_' :: c :: rest)
  | c :: rest =>
    if isDigitOf base c then
      let (digits, after) := moreDigits base rest
      (c :: digits, after)
    else ([], c :: rest)
  | [] => ([], [])

/-- One or more digits and the text after them. -/
def readDigits (base : Nat) : List Char → Option (List Char × List Char)
  | c :: rest =>
    if isDigitOf base c then
      let (digits, after) := moreDigits base rest
      some (c :: digits, after)
    else none
  | [] => none

/-- The whole part of a decimal number, which has no leading zeros. -/
def readWhole : List Char → Option (List Char × List Char)
  | '0' :: rest => some (['0'], rest)
  | text => readDigits 10 text

/-- An integer, if it fits in 64 bits with a sign. -/
def signedInteger? (negative : Bool) (magnitude : Nat) : Option Number :=
  -- The least integer has a magnitude that the greatest one does not reach.
  let value : Int := if negative then -magnitude else magnitude
  if Int64.minValue.toInt ≤ value ∧ value ≤ Int64.maxValue.toInt then some (.integer value)
  else none

/-- An integer in a base other than ten, after its marker. -/
def readBased (base : Nat) (text : List Char) : Option (Number × List Char) := do
  let (digits, rest) ← readDigits base text
  let number ← signedInteger? false (← number? base digits)
  return (number, rest)

/-- The digits after a decimal point, if there is one. -/
def readPlaces : List Char → Option (Option (List Char) × List Char)
  | '.' :: text => (readDigits 10 text).map fun (digits, rest) => (some digits, rest)
  | text => some (none, text)

/-- The digits of an exponent after its marker, with an optional sign. -/
def readExponentDigits : List Char → Option (Int × List Char)
  | '-' :: text => do
    let (digits, rest) ← readDigits 10 text
    return (-(← number? 10 digits : Nat), rest)
  -- Without a sign the exponent counts as positive.
  | '+' :: text | text => do
    let (digits, rest) ← readDigits 10 text
    return ((← number? 10 digits : Nat), rest)

/-- A decimal exponent, if there is one. -/
def readExponent : List Char → Option (Option Int × List Char)
  | 'e' :: text | 'E' :: text =>
    (readExponentDigits text).map fun (exponent, rest) => (some exponent, rest)
  | text => some (none, text)

/-- A decimal number after its sign: a float if it has a fraction or an exponent. -/
def readDecimal (negative : Bool) (text : List Char) : Option (Number × List Char) := do
  let (whole, text) ← readWhole text
  let (places, text) ← readPlaces text
  let (exponent, text) ← readExponent text
  let digits ← number? 10 (whole ++ places.getD [])
  -- Neither a fraction nor an exponent makes it an integer.
  if places.isNone ∧ exponent.isNone then
    return (← signedInteger? negative digits, text)
  else
    match Binary64.ofDecimal negative digits (exponent.getD 0 - (places.getD []).length) with
    -- A number past the largest is refused, and one past the least is infinite.
    | .infinite false => none
    | value => return (.float value, text)

/-- A number after its sign. -/
def readUnsigned (negative : Bool) : List Char → Option (Number × List Char)
  | 'i' :: 'n' :: 'f' :: rest => some (.float (.infinite negative), rest)
  | 'n' :: 'a' :: 'n' :: rest => some (.float .nan, rest)
  | text => readDecimal negative text

/-- A number and the text after it. -/
def readNumber : List Char → Option (Number × List Char)
  | '0' :: 'x' :: rest => readBased 16 rest
  | '0' :: 'o' :: rest => readBased 8 rest
  | '0' :: 'b' :: rest => readBased 2 rest
  -- A sign rules out the other bases.
  | '+' :: rest => readUnsigned false rest
  | '-' :: rest => readUnsigned true rest
  | text => readUnsigned false text

end BoardConfig.Toml
