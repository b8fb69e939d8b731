import BoardConfig.Binary64

/-! The shortest decimal text that reads back as a floating-point number. -/

namespace BoardConfig

namespace Binary64

/-- A positive quotient with the bounds of the quotients that round to the same number. -/
structure Window where
  /-- The lower bound, over the common denominator. -/
  lower : Nat
  /-- The quotient itself, over the common denominator. -/
  middle : Nat
  /-- The upper bound, over the common denominator. -/
  upper : Nat
  denominator : Nat
  /-- Whether the bounds themselves round to the number. -/
  closed : Bool

/-- The window of a finite number that is not zero. -/
def window (significand : Nat) (exponent : Int) : Window :=
  -- Below a power of two the next number is half as far as above it.
  let below := if significand = Nat.pow 2 (precision - 1) ∧ leastExponent < exponent then 1 else 2
  let scale := Nat.pow 2 (exponent - 2).toNat
  { lower := (4 * significand - below) * scale
    middle := 4 * significand * scale
    upper := (4 * significand + 2) * scale
    denominator := Nat.pow 2 (2 - exponent).toNat
    closed := significand % 2 = 0 }

namespace Window

/-- Whether `digits * numerator / denominator` lies in the window. -/
def contains (w : Window) (digits numerator denominator : Nat) : Bool :=
  -- All sides are brought over one denominator, so that whole numbers are compared.
  let point := digits * numerator * w.denominator
  let lower := w.lower * denominator
  let upper := w.upper * denominator
  if w.closed then lower ≤ point ∧ point ≤ upper else lower < point ∧ point < upper

/-- The decimal exponent `e` with the middle below `10 ^ e` and not below `10 ^ (e - 1)`. -/
def magnitude (w : Window) : Int :=
  -- Above one the digits of the whole part count, and below one the steps up to it.
  if w.denominator ≤ w.middle then (Nat.toDigits 10 (w.middle / w.denominator)).length
  else
    let shift := (List.range 330).find? fun k => w.denominator ≤ w.middle * Nat.pow 10 k
    1 - (shift.getD 330 : Nat)

/-- The point with some number of digits that is nearest to the middle, if any lies in the window. -/
def pointWith? (w : Window) (digitCount : Nat) : Option (Nat × Int) :=
  let exponent := w.magnitude - digitCount
  let numerator := Nat.pow 10 exponent.toNat
  let denominator := Nat.pow 10 (-exponent).toNat
  let below := w.middle * denominator / (w.denominator * numerator)
  let remainder := w.middle * denominator % (w.denominator * numerator)
  let nearerBelow := 2 * remainder < w.denominator * numerator
  -- The point above may carry into a new digit, and is a power of ten then.
  let above := if below + 1 = Nat.pow 10 digitCount then (1, w.magnitude) else (below + 1, exponent)
  match w.contains below numerator denominator, w.contains (below + 1) numerator denominator with
  | true, true => some (if nearerBelow then (below, exponent) else above)
  | true, false => some (below, exponent)
  | false, true => some above
  | false, false => none

/-- The point of fewest digits in the window; 17 digits always have one. -/
def shortest (w : Window) : Nat × Int :=
  ((List.range 17).findSome? fun k => w.pointWith? (k + 1)).getD (0, 0)

end Window

/-- `digits * 10 ^ exponent` written out, with a decimal point and a digit on both sides of it. -/
def positional (digits : Nat) (exponent : Int) : List Char :=
  let text := Nat.toDigits 10 digits
  if 0 ≤ exponent then text ++ List.replicate exponent.toNat '0' ++ ['.', '0']
  else
    let places := (-exponent).toNat
    let padded := text.leftpad (places + 1) '0'
    padded.take (padded.length - places) ++ '.' :: padded.drop (padded.length - places)

/-- The text of a number: the fewest digits that read back, without an exponent. -/
def display : Binary64 → String
  | .nan => "nan"
  | .infinite negative => if negative then "-inf" else "inf"
  | .finite negative significand exponent =>
    let sign := if negative then ['-'] else []
    let text :=
      if significand = 0 then ['0', '.', '0']
      else
        let (digits, place) := (window significand exponent).shortest
        positional digits place
    String.ofList (sign ++ text)

end Binary64

end BoardConfig
