/-! Digits of either case, the numbers they denote, and their grouping by four. -/

namespace BoardConfig

/-- The value of a digit in a base of at most sixteen, where letters count in either case. -/
def digitValue? (base : Nat) (c : Char) : Option Nat :=
  let value :=
    if '0' ≤ c ∧ c ≤ '9' then some (c.toNat - '0'.toNat)
    else if 'a' ≤ c ∧ c ≤ 'f' then some (c.toNat - 'a'.toNat + 10)
    else if 'A' ≤ c ∧ c ≤ 'F' then some (c.toNat - 'A'.toNat + 10)
    else none
  value.filter (· < base)

/-- Whether a character is a digit in a base of at most sixteen. -/
def isDigitOf (base : Nat) (c : Char) : Bool :=
  (digitValue? base c).isSome

/-- The number that digits denote when they follow digits of the given value. -/
def numberAfter (base sofar : Nat) : List Char → Option Nat
  | [] => some sofar
  | c :: rest => (digitValue? base c).bind fun value => numberAfter base (base * sofar + value) rest

/-- The number that one or more digits denote, of any length and with any leading zeros. -/
def number? (base : Nat) : List Char → Option Nat
  | [] => none
  | digits => numberAfter base 0 digits

/-- The lower-case hexadecimal digits of a number, without leading zeros. -/
def hexDigits (n : Nat) : List Char :=
  Nat.toDigits 16 n

/-- A number in lower-case hexadecimal with its `0x` marker, as messages show it. -/
def hexText (n : Nat) : String :=
  "0x" ++ String.ofList (hexDigits n)

/-- Digits filled up with zeros on the left to a width, or left as they are if longer. -/
def zeroPadded (width : Nat) (digits : List Char) : List Char :=
  digits.leftpad width '0'

/-- Digits cut from the left into groups of four, the last one possibly shorter. -/
def groupsOfFour : List Char → List (List Char)
  | a :: b :: c :: d :: rest => [a, b, c, d] :: groupsOfFour rest
  | [] => []
  | short => [short]

end BoardConfig
