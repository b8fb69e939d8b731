import BoardConfig.Literal
import Mathlib.Data.Nat.Digits.Defs
import Mathlib.Tactic.Ring

/-! Which characters are digits, and the number that they denote by their positions. -/

namespace BoardConfig

/-- The digits of a style, where letters stand in either case. -/
def LiteralStyle.alphabet : LiteralStyle → List Char
  | .decimal => "0123456789".toList
  | _ => "0123456789abcdefABCDEF".toList

/-- What a digit is worth: its place among the sixteen, whatever its case. -/
def digitWorth (c : Char) : Nat :=
  "0123456789abcdef".toList.idxOf c.toLower

/-- The number that digits denote: each is worth a power of the base more than the one behind it. -/
def numeral (base : Nat) (digits : List Char) : Nat :=
  Nat.ofDigits base (digits.reverse.map digitWorth)

/-- One or more digits of a style, and nothing else. -/
def LiteralStyle.AreDigits (style : LiteralStyle) (digits : List Char) : Prop :=
  digits ≠ [] ∧ ∀ c ∈ digits, c ∈ style.alphabet

/-- A digit in front is worth the power of the base that has as many digits behind it. -/
theorem numeral_cons (base : Nat) (c : Char) (rest : List Char) :
    numeral base (c :: rest) = base ^ rest.length * digitWorth c + numeral base rest := by
  -- Read from the back, the first digit comes last.
  rw [numeral, List.reverse_cons, List.map_append, List.map_singleton, Nat.ofDigits_append,
    Nat.ofDigits_singleton, List.length_map, List.length_reverse, Nat.add_comm]
  rfl

/-- A character that reads as a digit is one of the alphabet. -/
theorem mem_alphabet_of_isDigitOf {style : LiteralStyle} {c : Char}
    (digit : isDigitOf style.base c) : c ∈ style.alphabet := by
  -- Digits are among the first hundred and some characters, each of which is looked up.
  have small : c.toNat < 128 := by
    apply Nat.lt_of_not_le
    intro large
    have above (bound : Char) (low : bound.toNat < 128) : ¬ c ≤ bound := by
      intro le
      have := UInt32.le_iff_toNat_le.1 le
      simp only [Char.toNat] at large low
      omega
    simp [isDigitOf, digitValue?, above '9' (by decide), above 'f' (by decide),
      above 'F' (by decide)] at digit
  have listed : ∀ style ∈ LiteralStyle.all, ∀ n < 128,
      isDigitOf style.base (Char.ofNat n) → Char.ofNat n ∈ style.alphabet := by
    decide
  have known : style ∈ LiteralStyle.all := by
    cases style <;> decide
  have found := listed style known c.toNat small
  rw [Char.ofNat_toNat] at found
  exact found digit

/-- The digits of a style are the characters of its alphabet, each with its worth. -/
theorem digitValue?_eq_some_iff {style : LiteralStyle} {c : Char} {value : Nat} :
    digitValue? style.base c = some value ↔ c ∈ style.alphabet ∧ value = digitWorth c := by
  -- Every character of the alphabet has its worth, and no other one has a value.
  have listed : style.alphabet.all fun c => digitValue? style.base c = some (digitWorth c) := by
    cases style <;> decide
  have worth : ∀ c ∈ style.alphabet, digitValue? style.base c = some (digitWorth c) := by
    intro c member
    exact of_decide_eq_true (List.all_eq_true.1 listed c member)
  constructor
  · intro found
    have member : c ∈ style.alphabet := mem_alphabet_of_isDigitOf (by simp [isDigitOf, found])
    have same := (worth c member).symm.trans found
    exact ⟨member, (Option.some.inj same).symm⟩
  · rintro ⟨member, rfl⟩
    exact worth c member

/-- Digits behind others denote their own number and that of the others, moved up in front of it. -/
theorem numberAfter_eq_some_iff {style : LiteralStyle} {sofar n : Nat} {digits : List Char} :
    numberAfter style.base sofar digits = some n ↔
      (∀ c ∈ digits, c ∈ style.alphabet) ∧
        n = style.base ^ digits.length * sofar + numeral style.base digits := by
  -- Each digit moves what came before it up by one place.
  induction digits generalizing sofar with
  | nil => simp [numberAfter, numeral, eq_comm]
  | cons c rest ih =>
    simp only [numberAfter, Option.bind_eq_some_iff, digitValue?_eq_some_iff, ih, numeral_cons,
      List.mem_cons, forall_eq_or_imp, List.length_cons]
    have moved : style.base ^ (rest.length + 1) * sofar +
        (style.base ^ rest.length * digitWorth c + numeral style.base rest) =
        style.base ^ rest.length * (style.base * sofar + digitWorth c) + numeral style.base rest := by
      ring
    rw [moved]
    constructor
    · rintro ⟨value, ⟨first, rfl⟩, others, rfl⟩
      exact ⟨⟨first, others⟩, rfl⟩
    · rintro ⟨⟨first, others⟩, rfl⟩
      exact ⟨_, ⟨first, rfl⟩, others, rfl⟩

/-- What is read as a number are one or more digits of the style, for the number they denote. -/
theorem number?_eq_some_iff {style : LiteralStyle} {n : Nat} {digits : List Char} :
    number? style.base digits = some n ↔
      style.AreDigits digits ∧ n = numeral style.base digits := by
  -- No digits at all are refused, and one or more are counted up from zero.
  cases digits with
  | nil => simp [number?, LiteralStyle.AreDigits]
  | cons c rest =>
    rw [number?, numberAfter_eq_some_iff]
    · simp [LiteralStyle.AreDigits]
    · simp

/-- No digit of any style is a mark of a literal. -/
theorem LiteralStyle.AreDigits.not_mem {style : LiteralStyle} {digits : List Char}
    (areDigits : style.AreDigits digits) (mark : Char) (listed : mark ∈ ['x', 'h', '\'']) :
    mark ∉ digits := by
  -- None of the alphabets holds one of the three marks.
  have apart : ['x', 'h', '\''].all fun mark => mark ∉ style.alphabet := by
    cases style <;> decide
  intro member
  exact of_decide_eq_true (List.all_eq_true.1 apart mark listed) (areDigits.2 mark member)

end BoardConfig
