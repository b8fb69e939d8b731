/-! Numbers of the 64-bit binary floating-point format, rounded from decimal text. -/

namespace BoardConfig

/-- A number of the 64-bit binary floating-point format. -/
inductive Binary64
  /-- No number. -/
  | nan
  /-- A number past the largest finite one. -/
  | infinite (negative : Bool)
  /-- The number `significand * 2 ^ exponent`, below two to the 53 in its significand. -/
  | finite (negative : Bool) (significand : Nat) (exponent : Int)
  deriving DecidableEq, Repr

namespace Binary64

/-- The bits of a significand. -/
def precision : Nat := 53

/-- The least exponent of a finite number. -/
def leastExponent : Int := -1074

/-- The greatest exponent of a finite number. -/
def greatestExponent : Int := 971

/-- The zero of a sign. -/
def zero (negative : Bool) : Binary64 :=
  .finite negative 0 leastExponent

/-- The integer nearest to a quotient, the even one of two equally near. -/
def roundHalfEven (numerator denominator : Nat) : Nat :=
  -- The remainder is compared with half of the denominator.
  let quotient := numerator / denominator
  let twice := 2 * (numerator % denominator)
  if twice < denominator then quotient
  else if denominator < twice then quotient + 1
  else quotient + quotient % 2

/-- The quotient of two numbers divided by a power of two, as a quotient again. -/
def overPowerOfTwo (numerator denominator : Nat) (exponent : Int) : Nat × Nat :=
  -- A negative exponent goes to the numerator, any other one to the denominator.
  (numerator * Nat.pow 2 (-exponent).toNat, denominator * Nat.pow 2 exponent.toNat)

/-- The nearest number to a positive quotient. -/
def ofQuotient (negative : Bool) (numerator denominator : Nat) : Binary64 :=
  -- At `start` the significand is below two to the 54, so one further step always suffices.
  let start := max leastExponent (numerator.log2 - denominator.log2 - 53)
  let (n, d) := overPowerOfTwo numerator denominator start
  let exponent := if n / d < Nat.pow 2 precision then start else start + 1
  let (n, d) := overPowerOfTwo numerator denominator exponent
  let significand := roundHalfEven n d
  -- Rounding up may carry into one more bit, which a step of the exponent takes back.
  let (significand, exponent) :=
    if significand = Nat.pow 2 precision then (Nat.pow 2 (precision - 1), exponent + 1)
    else (significand, exponent)
  if greatestExponent < exponent then .infinite negative
  else .finite negative significand exponent

/-- The nearest number to `digits * 10 ^ exponent`. -/
def ofDecimal (negative : Bool) (digits : Nat) (exponent : Int) : Binary64 :=
  -- The number lies below ten to the magnitude and at or above a tenth of that.
  let magnitude := (Nat.toDigits 10 digits).length + exponent
  if digits = 0 ∨ magnitude < -330 then zero negative
  else if 310 < magnitude then .infinite negative
  else ofQuotient negative (digits * Nat.pow 10 exponent.toNat) (Nat.pow 10 (-exponent).toNat)

end Binary64

end BoardConfig
