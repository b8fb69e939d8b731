import BoardConfig.Proofs.Literal
import BoardConfig.Proofs.Text.Numeral

/-! The grammar of literals: which texts are read, as which number, and which are refused. -/

namespace BoardConfig

/-- The texts of a style and width, each with the digits that are left without its marks. -/
inductive Spelling (bits : Nat) : LiteralStyle → List Char → List Char → Prop
  /-- One or more digits behind `0x`. -/
  | asmHex {digits : List Char} (areDigits : LiteralStyle.asmHex.AreDigits digits) :
      Spelling bits .asmHex ("0x".toList ++ digits) digits
  /-- Runs of one or more digits behind `0x`, with single quotes between them. -/
  | cHex {runs : List (List Char)} (filled : runs ≠ [])
      (areDigits : ∀ run ∈ runs, LiteralStyle.cHex.AreDigits run) :
      Spelling bits .cHex ("0x".toList ++ ['\''].intercalate runs) runs.flatten
  /-- One or more digits behind the width in decimal and `'h`. -/
  | sizedHex {digits : List Char} (areDigits : LiteralStyle.sizedHex.AreDigits digits) :
      Spelling bits .sizedHex (bits.repr.toList ++ "'h".toList ++ digits) digits
  /-- One or more digits alone. -/
  | decimal {digits : List Char} (areDigits : LiteralStyle.decimal.AreDigits digits) :
      Spelling bits .decimal digits digits

/-- A text that is cut at a size marker is what stands before and behind the marker. -/
theorem eq_of_cutAtSizeMarker {text size digits : List Char}
    (cut : cutAtSizeMarker text = some (size, digits)) : text = size ++ '\'' :: 'h' :: digits := by
  -- The search passes over the characters of the size one by one.
  induction text using cutAtSizeMarker.induct generalizing size with
  | case1 rest =>
    cases cut
    rfl
  | case2 c rest other ih =>
    rw [cutAtSizeMarker.eq_2 _ _ other, Option.map_eq_some_iff] at cut
    obtain ⟨⟨front, behind⟩, found, same⟩ := cut
    cases same
    rw [ih found]
    rfl
  | case3 => cases cut

/-- Joined runs of digits are cut again into these runs. -/
theorem runsBetween_digits {style : LiteralStyle} {runs : List (List Char)} (filled : runs ≠ [])
    (areDigits : ∀ run ∈ runs, style.AreDigits run) :
    runsBetween '\'' (['\''].intercalate runs) = runs := by
  -- A quote is no digit, so no run is cut within.
  apply runsBetween_intercalate filled
  intro run among
  exact (areDigits run among).not_mem '\'' (by decide)

/-- Filled runs are digits exactly if the runs put together are. -/
theorem areDigits_flatten_iff {style : LiteralStyle} {runs : List (List Char)} (filled : runs ≠ [])
    (noGap : [] ∉ runs) :
    style.AreDigits runs.flatten ↔ ∀ run ∈ runs, style.AreDigits run := by
  -- A character of a run is one of the whole, and a filled run makes the whole filled.
  constructor
  · rintro ⟨_, digits⟩ run among
    refine ⟨?_, fun c member => digits c (List.mem_flatten_of_mem among member)⟩
    rintro rfl
    exact noGap among
  · intro each
    constructor
    · obtain ⟨run, among⟩ := List.exists_mem_of_ne_nil runs filled
      intro empty
      exact (each run among).1 (List.flatten_eq_nil_iff.1 empty run among)
    · intro c member
      obtain ⟨run, among, inside⟩ := List.mem_flatten.1 member
      exact (each run among).2 c inside

/-- The grammar of a style takes its marks off and leaves digits. -/
theorem spelling_iff {style : LiteralStyle} {bits : Nat} {text digits : List Char} :
    Spelling bits style text digits ↔
      style.digitsOf bits text = .ok digits ∧ style.AreDigits digits := by
  constructor
  · -- Each form of the grammar has its marks where they are looked for.
    intro spelled
    cases spelled with
    | asmHex areDigits => exact ⟨rfl, areDigits⟩
    -- Runs of digits are cut at the quotes again, and none of them is a gap.
    | @cHex runs filled areDigits =>
      have noGap : [] ∉ runs := fun gap => (areDigits [] gap).1 rfl
      refine ⟨?_, (areDigits_flatten_iff filled noGap).2 areDigits⟩
      simp [LiteralStyle.digitsOf, runsBetween_digits filled areDigits, noGap]
    -- The width is written without a quote, so the first one belongs to the marker.
    | sizedHex areDigits =>
      refine ⟨?_, areDigits⟩
      have plain : '\'' ∉ Nat.toDigits 10 bits :=
        quote_not_mem_toDigits (by decide) (by decide) bits
      have cut := cutAtSizeMarker_append plain digits
      simp [LiteralStyle.digitsOf, cut]
    | decimal areDigits => exact ⟨rfl, areDigits⟩
  · -- A text whose marks can be taken off has the form of its style.
    rintro ⟨marks, areDigits⟩
    cases style with
    | asmHex =>
      simp only [LiteralStyle.digitsOf] at marks
      split at marks <;> cases marks
      exact .asmHex areDigits
    | cHex =>
      simp only [LiteralStyle.digitsOf] at marks
      split at marks
      · -- The runs between the quotes are the groups, and joining them gives the text back.
        rename_i body
        split at marks <;> cases marks
        rename_i noGap
        have filled := runsBetween_ne_nil '\'' body
        have spelled : Spelling bits .cHex _ _ :=
          .cHex filled ((areDigits_flatten_iff filled noGap).1 areDigits)
        rw [intercalate_runsBetween] at spelled
        exact spelled
      · cases marks
    | sizedHex =>
      simp only [LiteralStyle.digitsOf] at marks
      split at marks
      · -- What stands before the marker is the width in decimal.
        rename_i size behind cut
        split at marks <;> cases marks
        rename_i width
        have spelled : Spelling bits .sizedHex _ _ := .sizedHex areDigits
        rw [Nat.toList_repr, ← width] at spelled
        rw [eq_of_cutAtSizeMarker cut]
        simpa using spelled
      · cases marks
    | decimal =>
      cases marks
      exact .decimal areDigits

/-- What a style reads are the texts of its grammar, for the numbers that their digits denote. -/
theorem LiteralStyle.read_eq_ok_iff {style : LiteralStyle} {bits n : Nat} {text : List Char} :
    style.read bits text = .ok n ↔
      ∃ digits, Spelling bits style text digits ∧ n = numeral style.base digits := by
  -- Reading takes the marks off and then counts the digits.
  simp only [spelling_iff, read]
  cases marks : style.digitsOf bits text with
  | error fault => simp
  | ok digits =>
    cases found : number? style.base digits with
    | none =>
      have never : ¬ style.AreDigits digits := by
        intro areDigits
        rw [number?_eq_some_iff.2 ⟨areDigits, rfl⟩] at found
        cases found
      simp [found, never]
    | some m =>
      obtain ⟨areDigits, rfl⟩ := number?_eq_some_iff.1 found
      simp [found, areDigits, eq_comm]

/-- A text outside the grammar of a style is refused with some fault. -/
theorem LiteralStyle.read_eq_error_iff {style : LiteralStyle} {bits : Nat} {text : List Char} :
    (∃ fault, style.read bits text = .error fault) ↔
      ∀ digits, ¬ Spelling bits style text digits := by
  -- A refusal is what is left where no number is read.
  cases given : style.read bits text with
  | ok n =>
    obtain ⟨digits, spelled, _⟩ := read_eq_ok_iff.1 given
    simp only [reduceCtorEq, exists_false, false_iff, not_forall, not_not]
    exact ⟨digits, spelled⟩
  | error fault =>
    simp only [Except.error.injEq, exists_eq', true_iff]
    intro digits spelled
    rw [read_eq_ok_iff.2 ⟨digits, spelled, rfl⟩] at given
    cases given

/-- The digits of a text are determined by the text. -/
theorem Spelling.digits_unique {style : LiteralStyle} {bits : Nat} {text digits others : List Char}
    (spelled : Spelling bits style text digits) (again : Spelling bits style text others) :
    digits = others := by
  -- Taking the marks off is a function of the text.
  have same := (spelling_iff.1 spelled).1.symm.trans (spelling_iff.1 again).1
  exact Except.ok.inj same

/-- A text of the grammar is judged by the number that it denotes. -/
theorem decode_of_spelling {text : String} {style : LiteralStyle} {bits : Nat} {digits : List Char}
    (valid : ValidWidth bits) (spelled : Spelling bits style text.toList digits) :
    decode text style bits =
      if numeral style.base digits < 2 ^ bits then .ok (UInt64.ofNat (numeral style.base digits))
      else .error (.outOfRange
        (UInt64.ofNat (min (numeral style.base digits) (UInt64.size - 1))) bits style) := by
  -- The form and the number are those that reading finds, so the range decides.
  have read := LiteralStyle.read_eq_ok_iff.2 ⟨digits, spelled, rfl⟩
  simp [decode, valid, read]

/-- A text outside the grammar is refused for its form. -/
theorem decode_of_not_spelling {text : String} {style : LiteralStyle} {bits : Nat}
    (valid : ValidWidth bits) (never : ∀ digits, ¬ Spelling bits style text.toList digits) :
    ∃ fault, decode text style bits = .error (.malformed text style fault) := by
  -- Reading fails for every text without a form, with some fault.
  obtain ⟨fault, read⟩ := LiteralStyle.read_eq_error_iff.2 never
  exact ⟨fault, by simp [decode, valid, read]⟩

/-- No text is read at a width that no literal has. -/
theorem decode_of_not_validWidth (text : String) (style : LiteralStyle) {bits : Nat}
    (invalid : ¬ ValidWidth bits) : decode text style bits = .error (.invalidWidth bits) := by
  -- The width is looked at before the text.
  simp [decode, invalid]

/-- A number that fits a width of at most 64 bits is kept as a word. -/
theorem toNat_ofNat_of_fits {bits n : Nat} (valid : ValidWidth bits) (fits : n < 2 ^ bits) :
    (UInt64.ofNat n).toNat = n := by
  -- No width exceeds that of the words.
  have word : 2 ^ bits ≤ 2 ^ 64 := Nat.pow_le_pow_right (by decide) valid.2
  exact UInt64.toNat_ofNat_of_lt' (Nat.lt_of_lt_of_le fits word)

/-- The largest word stands for every number past all words. -/
theorem toNat_ofNat_min (n : Nat) :
    (UInt64.ofNat (min n (UInt64.size - 1))).toNat = min n (2 ^ 64 - 1) := by
  -- The smaller of the two is below the size of a word, so it is stored as it is.
  apply UInt64.toNat_ofNat_of_lt'
  have bounded : min n (UInt64.size - 1) ≤ UInt64.size - 1 := Nat.min_le_right _ _
  simp only [UInt64.size] at bounded ⊢
  omega

/-- A value is read exactly from the texts of the grammar that denote it within the width. -/
theorem decode_eq_ok_iff {text : String} {style : LiteralStyle} {bits : Nat} {value : UInt64} :
    decode text style bits = .ok value ↔
      ValidWidth bits ∧ ∃ digits, Spelling bits style text.toList digits ∧
        numeral style.base digits < 2 ^ bits ∧ value.toNat = numeral style.base digits := by
  constructor
  · -- Neither a bad width nor a bad text nor a number that does not fit gives a value.
    intro read
    unfold decode at read
    split at read
    · cases read
    · rename_i acceptable
      have valid : ValidWidth bits := Decidable.not_not.1 acceptable
      split at read
      · rename_i n found
        split at read <;> cases read
        rename_i fits
        -- The form of the text is its digits, and the word stores their number.
        obtain ⟨digits, spelled, rfl⟩ := LiteralStyle.read_eq_ok_iff.1 found
        exact ⟨valid, digits, spelled, fits, toNat_ofNat_of_fits valid fits⟩
      · cases read
  · -- A text of the grammar is judged by its number, which fits.
    rintro ⟨valid, digits, spelled, fits, same⟩
    rw [decode_of_spelling valid spelled, if_pos fits, ← same, UInt64.ofNat_toNat]

/--
Reading accepts exactly the grammar of a style and width, and judges the range of the whole number.

The digits may be of any number and have any zeros in front; a number past all words is shown as the
largest word.
-/
theorem decode_exact (text : String) (style : LiteralStyle) (bits : Nat) :
    (∀ value, decode text style bits = .ok value ↔
      (1 ≤ bits ∧ bits ≤ 64) ∧ ∃ digits, Spelling bits style text.toList digits ∧
        numeral style.base digits < 2 ^ bits ∧ value.toNat = numeral style.base digits) ∧
    (∀ value width other, decode text style bits = .error (.outOfRange value width other) ↔
      (1 ≤ bits ∧ bits ≤ 64) ∧ (∃ digits, Spelling bits style text.toList digits ∧
        2 ^ bits ≤ numeral style.base digits ∧
        value.toNat = min (numeral style.base digits) (2 ^ 64 - 1)) ∧ width = bits ∧ other = style) ∧
    ((∃ fault, decode text style bits = .error (.malformed text style fault)) ↔
      (1 ≤ bits ∧ bits ≤ 64) ∧ ∀ digits, ¬ Spelling bits style text.toList digits) ∧
    (decode text style bits = .error (.invalidWidth bits) ↔ ¬ (1 ≤ bits ∧ bits ≤ 64)) := by
  -- The width is judged first, then the form, and then the number.
  by_cases valid : ValidWidth bits
  · have width : 1 ≤ bits ∧ bits ≤ 64 := valid
    by_cases spelled : ∃ digits, Spelling bits style text.toList digits
    · -- The text denotes one number, which fits the width or does not.
      obtain ⟨digits, spelled⟩ := spelled
      -- Every statement about the digits of the text is one about these digits.
      have only : ∀ others, Spelling bits style text.toList others ↔ others = digits := by
        intro others
        constructor
        · intro again
          exact again.digits_unique spelled
        · rintro rfl
          exact spelled
      rw [decode_of_spelling valid spelled]
      by_cases fits : numeral style.base digits < 2 ^ bits
      · -- A number that fits is stored in a word without loss.
        have kept := toNat_ofNat_of_fits valid fits
        simp [only, fits, width, ← UInt64.toNat_inj, kept, eq_comm]
      · -- A number that does not fit is shown as a word, which is the largest one if need be.
        have beyond : 2 ^ bits ≤ numeral style.base digits := Nat.le_of_not_lt fits
        have shown := toNat_ofNat_min (numeral style.base digits)
        rw [if_neg fits]
        generalize UInt64.ofNat (min (numeral style.base digits) (UInt64.size - 1)) = word at shown ⊢
        simp [only, beyond, width, ← UInt64.toNat_inj, shown, eq_comm]
    · -- Without a form there is no number to judge.
      have never : ∀ digits, ¬ Spelling bits style text.toList digits := by
        intro digits spelling
        exact spelled ⟨digits, spelling⟩
      obtain ⟨fault, refused⟩ := decode_of_not_spelling valid never
      simp [refused, never, width]
  · -- A width that no literal has is refused before the text is looked at.
    have width : ¬ (1 ≤ bits ∧ bits ≤ 64) := valid
    rw [decode_of_not_validWidth text style valid]
    simp [width]

end BoardConfig
