import BoardConfig.Proofs.Text.Digits
import BoardConfig.Proofs.Text.Numeral
import Mathlib.Data.List.Induction

/-! The digits that a number is written with, to which all other digits of the number come down. -/

namespace BoardConfig

/-- The digits that a style writes, whose letters are small. -/
def LiteralStyle.smallAlphabet : LiteralStyle → List Char
  | .decimal => "0123456789".toList
  | _ => "0123456789abcdef".toList

/-- One or more digits that a style writes, and nothing else. -/
def LiteralStyle.AreSmallDigits (style : LiteralStyle) (digits : List Char) : Prop :=
  digits ≠ [] ∧ ∀ c ∈ digits, c ∈ style.smallAlphabet

/-- Whether digits have no zero in front, except for a zero that stands alone. -/
def IsUnpadded (digits : List Char) : Prop :=
  digits.head? = some '0' → digits = ['0']

/-- Digits in small letters, without the zeros in front of them. -/
def significantDigits (digits : List Char) : List Char :=
  (digits.map Char.toLower).dropWhile (· = '0')

/-- No base of a style is below two, and none is above sixteen. -/
theorem LiteralStyle.base_bounds (style : LiteralStyle) : 2 ≤ style.base ∧ style.base ≤ 16 := by
  -- The bases are ten and sixteen.
  cases style <;> decide

/-- Each digit that a style reads is worth less than the base, and is written as its worth. -/
theorem toLower_of_mem_alphabet {style : LiteralStyle} {c : Char} (member : c ∈ style.alphabet) :
    digitWorth c < style.base ∧ c.toLower = (digitWorth c).digitChar := by
  -- The alphabets are short, and each of their characters is looked up.
  have listed : style.alphabet.all fun c =>
      digitWorth c < style.base ∧ c.toLower = (digitWorth c).digitChar := by
    cases style <;> decide
  exact of_decide_eq_true (List.all_eq_true.1 listed c member)

/-- A style reads the digits that it writes, and their letters are small already. -/
theorem mem_alphabet_of_small {style : LiteralStyle} {c : Char} (small : c ∈ style.smallAlphabet) :
    c ∈ style.alphabet ∧ c.toLower = c := by
  -- The alphabets are short lists, so all their characters are tried.
  have listed : style.smallAlphabet.all fun c => c ∈ style.alphabet ∧ c.toLower = c := by
    cases style <;> decide
  exact of_decide_eq_true (List.all_eq_true.1 listed c small)

/-- Digits that a style writes are read by it. -/
theorem LiteralStyle.AreSmallDigits.areDigits {style : LiteralStyle} {digits : List Char}
    (small : style.AreSmallDigits digits) : style.AreDigits digits :=
  -- The small alphabet is a part of the one that is read.
  ⟨small.1, fun c member => (mem_alphabet_of_small (small.2 c member)).1⟩

/-- Digits that a style writes are in small letters. -/
theorem LiteralStyle.AreSmallDigits.map_toLower {style : LiteralStyle} {digits : List Char}
    (small : style.AreSmallDigits digits) : digits.map Char.toLower = digits := by
  -- Each character is small already, so nothing changes anywhere.
  have same : digits.map Char.toLower = digits.map id :=
    List.map_congr_left fun c member => (mem_alphabet_of_small (small.2 c member)).2
  rw [same, List.map_id]

/-- A digit behind others adds its worth to what they denote one place up. -/
theorem numeral_append_singleton (base : Nat) (front : List Char) (c : Char) :
    numeral base (front ++ [c]) = base * numeral base front + digitWorth c := by
  -- From behind, the added digit is the first one, which is worth its own number.
  rw [numeral, List.reverse_append, List.map_append, List.reverse_singleton, List.map_singleton,
    List.singleton_append, Nat.ofDigits_cons, Nat.add_comm]
  rfl

/-- Digits in small letters are those of their number, behind some zeros. -/
theorem LiteralStyle.AreDigits.map_toLower {style : LiteralStyle} {digits : List Char}
    (areDigits : style.AreDigits digits) :
    ∃ zeros, digits.map Char.toLower =
      List.replicate zeros '0' ++ Nat.toDigits style.base (numeral style.base digits) := by
  have two := style.base_bounds.1
  -- The last digit is the remainder of the number, and those in front are digits of the quotient.
  induction digits using List.reverseRecOn with
  | nil => exact absurd rfl areDigits.1
  | append_singleton front c ih =>
    obtain ⟨small, written⟩ := toLower_of_mem_alphabet (areDigits.2 c (by simp))
    have single := Nat.toDigits_of_lt_base small
    rw [numeral_append_singleton, List.map_append, List.map_singleton, written]
    by_cases only : front = []
    · -- A digit by itself is written as this one digit, with no zeros in front.
      subst only
      exact ⟨0, by simp [numeral, single]⟩
    · obtain ⟨zeros, same⟩ := ih ⟨only, fun other among => areDigits.2 other (by simp [among])⟩
      rw [same]
      by_cases nothing : numeral style.base front = 0
      · -- In front there are zeros alone, and the one of the quotient counts among them.
        refine ⟨zeros + 1, ?_⟩
        simp [nothing, single, List.replicate_succ']
      · -- The digits of the quotient go on with the remainder.
        refine ⟨zeros, ?_⟩
        rw [← Nat.toDigits_append_toDigits two (Nat.pos_of_ne_zero nothing) small, single,
          List.append_assoc]

/-- The digits that a number is written with are digits of the style, and denote the number. -/
theorem numeral_toDigits (style : LiteralStyle) (n : Nat) :
    style.AreDigits (Nat.toDigits style.base n) ∧
      numeral style.base (Nat.toDigits style.base n) = n := by
  -- What is written is read back, and reading accepts digits for the number they denote.
  obtain ⟨two, bounded⟩ := style.base_bounds
  obtain ⟨areDigits, same⟩ := number?_eq_some_iff.1 (number?_toDigits two bounded n)
  exact ⟨areDigits, same.symm⟩

/-- No digits of a number are fewer than those that it is written with. -/
theorem LiteralStyle.AreDigits.length_toDigits_le {style : LiteralStyle} {digits : List Char}
    (areDigits : style.AreDigits digits) :
    (Nat.toDigits style.base (numeral style.base digits)).length ≤ digits.length := by
  -- In small letters the digits end in those of the number.
  obtain ⟨zeros, same⟩ := areDigits.map_toLower
  have lengths := congrArg List.length same
  rw [List.length_map, List.length_append] at lengths
  omega

/-- A number is written with small letters. -/
theorem areSmallDigits_toDigits (style : LiteralStyle) (n : Nat) :
    style.AreSmallDigits (Nat.toDigits style.base n) := by
  obtain ⟨areDigits, denotes⟩ := numeral_toDigits style n
  -- Put in small letters, the digits are themselves again, as there are no zeros to add.
  obtain ⟨zeros, same⟩ := areDigits.map_toLower
  rw [denotes] at same
  have none : zeros = 0 := by
    have lengths := congrArg List.length same
    rw [List.length_map, List.length_append, List.length_replicate] at lengths
    omega
  rw [none, List.replicate_zero, List.nil_append] at same
  -- A character that is in small letters already is of the small alphabet.
  have listed : style.alphabet.all fun c => c.toLower = c → c ∈ style.smallAlphabet := by
    cases style <;> decide
  refine ⟨areDigits.1, fun c member => ?_⟩
  have kept : c.toLower = c := by
    have each := List.map_inj_left.1 (same.trans (List.map_id _).symm)
    exact each c member
  exact of_decide_eq_true (List.all_eq_true.1 listed c (areDigits.2 c member)) kept

/-- A number is written without zeros in front. -/
theorem isUnpadded_toDigits (style : LiteralStyle) (n : Nat) :
    IsUnpadded (Nat.toDigits style.base n) := by
  -- Behind a zero in front there would be fewer digits of the same number.
  obtain ⟨areDigits, denotes⟩ := numeral_toDigits style n
  intro front
  cases written : Nat.toDigits style.base n with
  | nil => exact absurd written areDigits.1
  | cons c rest =>
    rw [written, List.head?_cons, Option.some.injEq] at front
    subst front
    cases rest with
    | nil => rfl
    | cons next others =>
      have shorter : style.AreDigits (next :: others) := by
        refine ⟨List.cons_ne_nil _ _, fun other among => areDigits.2 other ?_⟩
        rw [written]
        exact List.mem_cons_of_mem _ among
      have same : numeral style.base (next :: others) = n := by
        rw [written, numeral_cons] at denotes
        simpa [show digitWorth '0' = 0 by decide] using denotes
      have fewer := shorter.length_toDigits_le
      rw [same, written] at fewer
      simp at fewer

/-- Small digits without zeros in front are those that their number is written with. -/
theorem LiteralStyle.AreSmallDigits.eq_toDigits {style : LiteralStyle} {digits : List Char}
    (small : style.AreSmallDigits digits) (unpadded : IsUnpadded digits) :
    digits = Nat.toDigits style.base (numeral style.base digits) := by
  -- In small letters already, the digits are those of their number behind some zeros.
  obtain ⟨zeros, same⟩ := small.areDigits.map_toLower
  rw [small.map_toLower] at same
  cases zeros with
  -- Without a zero in front there is nothing to tell apart.
  | zero => simpa using same
  | succ zeros =>
    -- A zero in front would be the only digit, with none left for the number.
    have alone := unpadded (by rw [same, List.replicate_succ]; rfl)
    have lengths := congrArg List.length (same.symm.trans alone)
    have filled : 0 < (Nat.toDigits style.base (numeral style.base digits)).length :=
      Nat.length_toDigits_pos
    simp only [List.length_append, List.length_replicate, List.length_singleton] at lengths
    omega

/-- Small digits are those that their number is written with, filled up with zeros. -/
theorem LiteralStyle.AreSmallDigits.eq_zeroPadded {style : LiteralStyle} {digits : List Char}
    (small : style.AreSmallDigits digits) :
    digits = zeroPadded digits.length (Nat.toDigits style.base (numeral style.base digits)) := by
  -- The zeros in front fill the digits of the number up to the length there is.
  obtain ⟨zeros, same⟩ := small.areDigits.map_toLower
  rw [small.map_toLower] at same
  have lengths := congrArg List.length same
  rw [List.length_append, List.length_replicate] at lengths
  rw [zeroPadded, List.leftpad, lengths, Nat.add_sub_cancel]
  exact same

/-- Zeros in front of digits are worth nothing. -/
theorem numeral_dropZeros (base : Nat) (digits : List Char) :
    numeral base (digits.dropWhile (· = '0')) = numeral base digits := by
  -- Induction on the digits, as long as they begin with zeros.
  induction digits with
  | nil => rfl
  | cons c rest ih =>
    rw [List.dropWhile_cons]
    split
    · -- The digit of a zero adds nothing to what the digits behind it denote.
      rename_i zero
      have nothing : digitWorth c = 0 := by
        rw [of_decide_eq_true zero]
        decide
      rw [ih, numeral_cons, nothing, Nat.mul_zero, Nat.zero_add]
    · rfl

/-- The significant digits are those that the number is written with, except for the digit of zero. -/
theorem LiteralStyle.AreDigits.significantDigits_eq {style : LiteralStyle} {digits : List Char}
    (areDigits : style.AreDigits digits) :
    significantDigits digits =
      (Nat.toDigits style.base (numeral style.base digits)).dropWhile (· = '0') := by
  -- The zeros in front of the written digits are dropped first.
  obtain ⟨zeros, same⟩ := areDigits.map_toLower
  rw [significantDigits, same]
  apply List.dropWhile_append_of_pos
  intro c among
  exact decide_eq_true (List.eq_of_mem_replicate among)

/-- Digits of a style denote one number exactly if their significant digits are the same. -/
theorem significantDigits_eq_iff {style : LiteralStyle} {digits others : List Char}
    (areDigits : style.AreDigits digits) (alsoDigits : style.AreDigits others) :
    significantDigits digits = significantDigits others ↔
      numeral style.base digits = numeral style.base others := by
  -- Both sides are the digits that the number is written with, without zeros.
  rw [areDigits.significantDigits_eq, alsoDigits.significantDigits_eq]
  constructor
  · -- The number is read from the significant digits, as the zeros are worth nothing.
    intro same
    have numbers := congrArg (numeral style.base) same
    simpa [numeral_dropZeros, (numeral_toDigits style _).2] using numbers
  · intro same
    rw [same]

end BoardConfig
