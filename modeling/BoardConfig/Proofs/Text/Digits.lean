import BoardConfig.Text.Cut
import BoardConfig.Text.Digits

/-! Digits of a number denote it again, whatever zeros and marks stand with them. -/

namespace BoardConfig

/-- Each digit has its own value in every base that has the digit. -/
theorem digitValue?_digitChar {base n : Nat} (small : n < base) (bounded : base ≤ 16) :
    digitValue? base n.digitChar = some n := by
  -- A hundred and some pairs of a base and a digit, each of which is looked up.
  have all : ∀ base ≤ 16, ∀ n < base, digitValue? base n.digitChar = some n := by decide
  exact all base bounded n small

/-- Digits after digits count on from what the first ones denote. -/
theorem numberAfter_append (base sofar : Nat) (first second : List Char) :
    numberAfter base sofar (first ++ second) =
      (numberAfter base sofar first).bind fun n => numberAfter base n second := by
  -- Reading the first digits leaves the number from which the second ones are counted.
  induction first generalizing sofar with
  | nil => rfl
  | cons c rest ih =>
    simp only [List.cons_append, numberAfter]
    cases digitValue? base c with
    | none => rfl
    | some value => exact ih (base * sofar + value)

/-- The digits of a number denote it. -/
theorem numberAfter_toDigits {base : Nat} (two : 2 ≤ base) (bounded : base ≤ 16) (n : Nat) :
    numberAfter base 0 (Nat.toDigits base n) = some n := by
  -- The last digit is the remainder, and the others are the digits of the quotient.
  induction n using Nat.strongRecOn with
  | ind n ih =>
    by_cases single : n < base
    · rw [Nat.toDigits_of_lt_base single]
      simp [numberAfter, digitValue?_digitChar single bounded]
    · have smaller : n / base < n := Nat.div_lt_self (by omega) (by omega)
      have last : n % base < base := Nat.mod_lt n (by omega)
      rw [Nat.toDigits_of_base_le (by omega) (by omega), numberAfter_append, ih _ smaller]
      simp only [Option.bind_some, numberAfter, digitValue?_digitChar last bounded]
      rw [Nat.div_add_mod]

/-- Zeros in front of digits count for nothing. -/
theorem numberAfter_zeros {base : Nat} (one : 1 ≤ base) (bounded : base ≤ 16) (count : Nat)
    (digits : List Char) :
    numberAfter base 0 (List.replicate count '0' ++ digits) = numberAfter base 0 digits := by
  -- A zero in front leaves the number at zero.
  induction count with
  | zero => rfl
  | succ count ih =>
    have zero : digitValue? base '0' = some 0 := digitValue?_digitChar one bounded
    simp only [List.replicate_succ, List.cons_append, numberAfter, zero, Option.bind_some,
      Nat.mul_zero, Nat.add_zero]
    exact ih

/-- One or more digits denote what they count up to from zero. -/
theorem number?_of_ne_nil {base : Nat} {digits : List Char} (filled : digits ≠ []) :
    number? base digits = numberAfter base 0 digits := by
  -- Only the empty list is treated apart from the count.
  cases digits with
  | nil => exact absurd rfl filled
  | cons c rest => rfl

/-- A number is read back from its digits. -/
theorem number?_toDigits {base : Nat} (two : 2 ≤ base) (bounded : base ≤ 16) (n : Nat) :
    number? base (Nat.toDigits base n) = some n := by
  -- There is always a digit, so the digits are counted up from zero.
  rw [number?_of_ne_nil Nat.toDigits_ne_nil, numberAfter_toDigits two bounded]

/-- A number is read back from its hexadecimal digits behind any zeros. -/
theorem number?_zeroPadded (width n : Nat) :
    number? 16 (zeroPadded width (hexDigits n)) = some n := by
  -- There are digits at all, and the zeros before them count for nothing.
  have filled : zeroPadded width (hexDigits n) ≠ [] := by
    simp [zeroPadded, List.leftpad, hexDigits, Nat.toDigits_ne_nil]
  rw [number?_of_ne_nil filled, zeroPadded, List.leftpad,
    numberAfter_zeros (by decide) (by decide)]
  exact numberAfter_toDigits (by decide) (by decide) n

/-- The digits of a number are digits of its base. -/
theorem isDigitOf_of_mem_toDigits {base n : Nat} (two : 2 ≤ base) (bounded : base ≤ 16) {c : Char}
    (member : c ∈ Nat.toDigits base n) : isDigitOf base c := by
  -- The digit is the last one, a remainder of the base, or one of the quotient.
  induction n using Nat.strongRecOn with
  | ind n ih =>
    by_cases single : n < base
    · rw [Nat.toDigits_of_lt_base single, List.mem_singleton] at member
      simp [isDigitOf, member, digitValue?_digitChar single bounded]
    · rw [Nat.toDigits_of_base_le (by omega) (by omega), List.mem_append] at member
      rcases member with earlier | last
      · exact ih _ (Nat.div_lt_self (by omega) (by omega)) earlier
      · rw [List.mem_singleton] at last
        simp [isDigitOf, last, digitValue?_digitChar (Nat.mod_lt n (by omega)) bounded]

/-- A digit is one in every greater base as well. -/
theorem isDigitOf_mono {base greater : Nat} (le : base ≤ greater) {c : Char}
    (digit : isDigitOf base c) : isDigitOf greater c := by
  -- The value of the digit is below the smaller base, hence below the greater one.
  simp only [isDigitOf, digitValue?, Option.isSome_filter, Option.any_eq_true,
    decide_eq_true_eq] at digit ⊢
  obtain ⟨value, found, small⟩ := digit
  exact ⟨value, found, Nat.lt_of_lt_of_le small le⟩

/-- Filling up with zeros adds no other characters. -/
theorem mem_zeroPadded {width : Nat} {digits : List Char} {c : Char}
    (member : c ∈ zeroPadded width digits) : c = '0' ∨ c ∈ digits := by
  -- The padding stands in front, and it is the same zero over and over.
  rw [zeroPadded, List.leftpad, List.mem_append] at member
  exact member.imp_left List.eq_of_mem_replicate

/-- Groups put together are the digits that were grouped. -/
theorem flatten_groupsOfFour (digits : List Char) : (groupsOfFour digits).flatten = digits := by
  -- Each group takes four characters off the front, and the last one takes the rest.
  induction digits using groupsOfFour.induct with
  | case1 a b c d rest ih => simp [groupsOfFour, ih]
  | case2 => rfl
  | case3 short notLong notNil =>
    rw [groupsOfFour]
    · simp
    · exact notLong
    · exact notNil

/-- No group is empty. -/
theorem nil_not_mem_groupsOfFour (digits : List Char) : [] ∉ groupsOfFour digits := by
  -- Groups are cut off while there are four digits, and what is left is a group if there is any.
  induction digits using groupsOfFour.induct with
  | case1 a b c d rest ih => simp [groupsOfFour, ih]
  | case2 => simp [groupsOfFour]
  | case3 short notLong notNil =>
    rw [groupsOfFour]
    · simpa using Ne.symm notNil
    · exact notLong
    · exact notNil

end BoardConfig
