import BoardConfig.Literal
import BoardConfig.Proofs.Text.Digits
import Mathlib.Algebra.Group.Nat.Defs

/-! Literals read back as the values they were written from, in every style. -/

namespace BoardConfig

/-- The first size marker stands behind a size without quotes. -/
theorem cutAtSizeMarker_append {size : List Char} (plain : '\'' ∉ size) (digits : List Char) :
    cutAtSizeMarker (size ++ '\'' :: 'h' :: digits) = some (size, digits) := by
  -- The search passes over the size, which holds no quote.
  induction size with
  | nil => simp [cutAtSizeMarker]
  | cons c rest ih =>
    simp only [List.mem_cons, not_or] at plain
    rw [List.cons_append, cutAtSizeMarker.eq_2]
    · simp [ih plain.2]
    · -- The marker does not begin at a character that is no quote.
      rintro digits rfl
      exact absurd rfl plain.1

/-- Digits are no quotes. -/
theorem quote_not_mem_toDigits {base : Nat} (two : 2 ≤ base) (bounded : base ≤ 16) (n : Nat) :
    '\'' ∉ Nat.toDigits base n := by
  -- A quote is a digit of no base up to sixteen.
  intro member
  have digit := isDigitOf_of_mem_toDigits two bounded member
  have never : ∀ base ≤ 16, isDigitOf base '\'' = false := by decide
  simp [never base bounded] at digit

/-- The digits of a literal are read back without the marks of its style. -/
theorem LiteralStyle.read_write (style : LiteralStyle) (bits n : Nat) :
    style.read bits (style.write bits n) = .ok n := by
  -- Each style takes off the marks that it puts on, down to digits that are read back.
  cases style with
  | asmHex => simp [read, write, digitsOf, hexDigits, base, number?_toDigits]
  | cHex =>
    -- The separators cut the padded digits into the groups that were joined.
    have plain : '\'' ∉ zeroPadded (groupedDigitCount bits) (hexDigits n) := by
      intro member
      rcases mem_zeroPadded member with zero | digit
      · cases zero
      · exact quote_not_mem_toDigits (by decide) (by decide) n digit
    have filled : groupsOfFour (zeroPadded (groupedDigitCount bits) (hexDigits n)) ≠ [] := by
      intro empty
      have flat := flatten_groupsOfFour (zeroPadded (groupedDigitCount bits) (hexDigits n))
      rw [empty] at flat
      simp [zeroPadded, List.leftpad, hexDigits, Nat.toDigits_ne_nil] at flat
    have groups : ∀ group ∈ groupsOfFour (zeroPadded (groupedDigitCount bits) (hexDigits n)),
        '\'' ∉ group := by
      intro group among member
      have flat := List.mem_flatten_of_mem among member
      rw [flatten_groupsOfFour] at flat
      exact plain flat
    have cut := runsBetween_intercalate filled groups
    simp [read, write, digitsOf, cut, nil_not_mem_groupsOfFour, flatten_groupsOfFour, base,
      number?_zeroPadded]
  -- The size is the width in decimal digits, before the only marker.
  | sizedHex =>
    have plain : '\'' ∉ Nat.toDigits 10 bits :=
      quote_not_mem_toDigits (by decide) (by decide) bits
    have cut := cutAtSizeMarker_append plain (zeroPadded (hexDigitCount bits) (hexDigits n))
    simp [read, write, digitsOf, cut, base, number?_zeroPadded]
  | decimal => simp [read, write, digitsOf, base, number?_toDigits]

/-- A value that has a literal fits its width, and the literal is the value in the style. -/
theorem encode_ok {value : UInt64} {style : LiteralStyle} {bits : Nat} {text : String}
    (encoded : encode value style bits = .ok text) :
    ValidWidth bits ∧ value.toNat < 2 ^ bits ∧
      text = String.ofList (style.write bits value.toNat) := by
  -- Neither a bad width nor a value that does not fit is written.
  unfold encode at encoded
  split at encoded
  · cases encoded
  · rename_i valid
    split at encoded <;> cases encoded
    rename_i fits
    exact ⟨Decidable.not_not.1 valid, fits, rfl⟩

/-- A value has a literal exactly if its width is valid and it fits, whatever the style is. -/
theorem exists_encode_iff {value : UInt64} (style : LiteralStyle) {bits : Nat} :
    (∃ text, encode value style bits = .ok text) ↔ ValidWidth bits ∧ value.toNat < 2 ^ bits := by
  -- The style only says how a value is written, not whether.
  constructor
  · intro written
    obtain ⟨text, encoded⟩ := written
    obtain ⟨valid, fits, -⟩ := encode_ok encoded
    exact ⟨valid, fits⟩
  · intro bounds
    simp [encode, bounds.1, bounds.2]

/-- A literal reads back as the value that it was written from. -/
theorem decode_encode {value : UInt64} {style : LiteralStyle} {bits : Nat} {text : String}
    (encoded : encode value style bits = .ok text) : decode text style bits = .ok value := by
  -- The number that is read is the value, which fits its width as it did.
  obtain ⟨valid, fits, rfl⟩ := encode_ok encoded
  simp [decode, valid, LiteralStyle.read_write, fits]

/-- The characters that literals are made of: hexadecimal digits and the marks of the styles. -/
def isLiteralCharacter (c : Char) : Bool :=
  isDigitOf 16 c ∨ c = 'x' ∨ c = '\'' ∨ c = 'h'

/-- Digits of any base are among the characters of literals. -/
theorem isLiteralCharacter_of_mem_toDigits {base n : Nat} (two : 2 ≤ base) (bounded : base ≤ 16)
    {c : Char} (member : c ∈ Nat.toDigits base n) : isLiteralCharacter c := by
  -- A digit of the base is a hexadecimal digit as well.
  have digit := isDigitOf_of_mem_toDigits two bounded member
  have hex := isDigitOf_mono bounded digit
  simp [isLiteralCharacter, hex]

/-- A style writes no other characters. -/
theorem LiteralStyle.isLiteralCharacter_of_mem_write {style : LiteralStyle} {bits n : Nat} {c : Char}
    (member : c ∈ style.write bits n) : isLiteralCharacter c := by
  -- In each style the characters are marks of the style or digits.
  have padded {width : Nat} (among : c ∈ zeroPadded width (hexDigits n)) : isLiteralCharacter c := by
    rcases mem_zeroPadded among with rfl | digit
    · decide
    · exact isLiteralCharacter_of_mem_toDigits (by decide) (by decide) digit
  cases style with
  | asmHex =>
    simp only [write, List.mem_cons] at member
    rcases member with rfl | rfl | digit
    · decide
    · decide
    · exact isLiteralCharacter_of_mem_toDigits (by decide) (by decide) digit
  | cHex =>
    simp only [write, List.mem_cons] at member
    rcases member with rfl | rfl | joined
    · decide
    · decide
    · -- What is joined are separators and digits.
      rcases mem_intercalate joined with rfl | ⟨group, among, digit⟩
      · decide
      · have flat := List.mem_flatten_of_mem among digit
        rw [flatten_groupsOfFour] at flat
        exact padded flat
  | sizedHex =>
    simp only [write, List.mem_append, List.mem_cons] at member
    rcases member with size | rfl | rfl | digit
    · exact isLiteralCharacter_of_mem_toDigits (by decide) (by decide) size
    · decide
    · decide
    · exact padded digit
  | decimal => exact isLiteralCharacter_of_mem_toDigits (by decide) (by decide) member

/-- A literal is made of no other characters. -/
theorem isLiteralCharacter_of_encode {value : UInt64} {style : LiteralStyle} {bits : Nat}
    {text : String} (encoded : encode value style bits = .ok text) {c : Char}
    (member : c ∈ text.toList) : isLiteralCharacter c := by
  -- What is written is the text of the style, whose characters are known.
  obtain ⟨_, _, rfl⟩ := encode_ok encoded
  rw [String.toList_ofList] at member
  exact LiteralStyle.isLiteralCharacter_of_mem_write member

end BoardConfig
