import BoardConfig.Proofs.Literal.Grammar
import BoardConfig.Proofs.Text.Canonical
import Mathlib.Algebra.Order.Floor.Div

/-! The form of literals as they are written, down to the number and the case of their digits. -/

namespace BoardConfig

/-- The texts that are written in a style and width, each with its digits without the marks. -/
inductive Writing (bits : Nat) : LiteralStyle → List Char → List Char → Prop
  /-- Small digits behind `0x`, without zeros in front. -/
  | asmHex {digits : List Char} (small : LiteralStyle.asmHex.AreSmallDigits digits)
      (unpadded : IsUnpadded digits) : Writing bits .asmHex ("0x".toList ++ digits) digits
  /-- Groups of four small digits behind `0x`, with single quotes between them, that cover the width. -/
  | cHex {groups : List (List Char)} (count : groups.length = bits ⌈/⌉ 16)
      (four : ∀ group ∈ groups, group.length = 4)
      (small : ∀ group ∈ groups, ∀ c ∈ group, c ∈ LiteralStyle.cHex.smallAlphabet) :
      Writing bits .cHex ("0x".toList ++ ['\''].intercalate groups) groups.flatten
  /-- Small digits behind the width in decimal and `'h`, as many as cover the width. -/
  | sizedHex {digits : List Char} (count : digits.length = bits ⌈/⌉ 4)
      (small : LiteralStyle.sizedHex.AreSmallDigits digits) :
      Writing bits .sizedHex (bits.repr.toList ++ "'h".toList ++ digits) digits
  /-- Decimal digits alone, without zeros in front. -/
  | decimal {digits : List Char} (small : LiteralStyle.decimal.AreSmallDigits digits)
      (unpadded : IsUnpadded digits) : Writing bits .decimal digits digits

/-- Four digits for each sixteen bits are the digits of the width in whole groups. -/
theorem groupedDigitCount_eq (bits : Nat) : groupedDigitCount bits = 4 * (bits ⌈/⌉ 16) := by
  -- Both count whole groups, once by digits of four bits and once by groups of sixteen.
  rw [groupedDigitCount, hexDigitCount, Nat.ceilDiv_eq_add_pred_div]
  omega

/-- One digit for each four bits are the digits of the width. -/
theorem hexDigitCount_eq (bits : Nat) : hexDigitCount bits = bits ⌈/⌉ 4 := rfl

/-- A number that fits a width has no more hexadecimal digits than cover the width. -/
theorem length_hexDigits_le {bits n : Nat} (positive : 1 ≤ bits) (fits : n < 2 ^ bits) :
    (hexDigits n).length ≤ hexDigitCount bits := by
  -- Each digit covers four bits.
  have some : 0 < hexDigitCount bits := by
    unfold hexDigitCount
    omega
  have covered : bits ≤ 4 * hexDigitCount bits := by
    unfold hexDigitCount
    omega
  rw [hexDigits, Nat.length_toDigits_le_iff (by decide) some]
  calc
    n < 2 ^ bits := fits
    _ ≤ 2 ^ (4 * hexDigitCount bits) := Nat.pow_le_pow_right (by decide) covered
    _ = 16 ^ hexDigitCount bits := by rw [Nat.pow_mul]

/-- Digits that are no longer than a width are filled up to it. -/
theorem length_zeroPadded {width : Nat} {digits : List Char} (short : digits.length ≤ width) :
    (zeroPadded width digits).length = width := by
  -- The zeros in front are as many as are missing.
  rw [zeroPadded, List.leftpad, List.length_append, List.length_replicate]
  omega

/-- Digits in whole groups are cut into groups of exactly four. -/
theorem groupsOfFour_of_length {digits : List Char} {count : Nat}
    (whole : digits.length = 4 * count) :
    (groupsOfFour digits).length = count ∧ ∀ group ∈ groupsOfFour digits, group.length = 4 := by
  -- Each group takes four digits off, and none are left over at the end.
  induction count generalizing digits with
  | zero =>
    have none := List.length_eq_zero_iff.1 whole
    simp [none, groupsOfFour]
  | succ count ih =>
    -- Fewer than four digits would not be a whole group.
    rcases digits with _ | ⟨a, _ | ⟨b, _ | ⟨c, _ | ⟨d, rest⟩⟩⟩⟩
    all_goals simp only [List.length_nil, List.length_cons] at whole
    · omega
    · omega
    · omega
    · omega
    · have shorter : rest.length = 4 * count := by omega
      have later := ih shorter
      simpa [groupsOfFour, later.1] using later.2

/-- Groups of exactly four are cut again into these groups. -/
theorem groupsOfFour_flatten {groups : List (List Char)}
    (four : ∀ group ∈ groups, group.length = 4) : groupsOfFour groups.flatten = groups := by
  -- Induction on the groups, as the first four digits are the first group.
  induction groups with
  | nil => rfl
  | cons group rest ih =>
    have others := ih fun other among => four other (List.mem_cons_of_mem _ among)
    have first := four group List.mem_cons_self
    match group, first with
    | [a, b, c, d], _ => simp [groupsOfFour, others]

/-- Digits that are filled up with zeros are still digits of their number, and small ones. -/
theorem areSmallDigits_zeroPadded (width n : Nat) :
    LiteralStyle.sizedHex.AreSmallDigits (zeroPadded width (hexDigits n)) ∧
      numeral 16 (zeroPadded width (hexDigits n)) = n := by
  -- Padded digits are read back as the number, and the zeros are small digits too.
  have read : number? LiteralStyle.sizedHex.base (zeroPadded width (hexDigits n)) = some n :=
    number?_zeroPadded width n
  obtain ⟨areDigits, denotes⟩ := number?_eq_some_iff.1 read
  refine ⟨⟨areDigits.1, fun c member => ?_⟩, denotes.symm⟩
  rcases mem_zeroPadded member with rfl | digit
  · decide
  · exact (areSmallDigits_toDigits .sizedHex n).2 c digit

/-- What a style writes for a number has the form of the style, with digits of the number. -/
theorem LiteralStyle.writing_write (style : LiteralStyle) {bits n : Nat} (positive : 1 ≤ bits)
    (fits : n < 2 ^ bits) :
    ∃ digits, Writing bits style (style.write bits n) digits ∧ numeral style.base digits = n := by
  -- Digits are as many as the width has room for, or fewer, so each style can fill them up.
  have short := length_hexDigits_le positive fits
  cases style with
  | asmHex =>
    exact ⟨_, .asmHex (areSmallDigits_toDigits .asmHex n) (isUnpadded_toDigits .asmHex n),
      (numeral_toDigits .asmHex n).2⟩
  | cHex =>
    -- The digits fill whole groups, so none of the groups is shorter than the others.
    obtain ⟨small, denotes⟩ := areSmallDigits_zeroPadded (groupedDigitCount bits) n
    have within : (hexDigits n).length ≤ groupedDigitCount bits := by
      refine Nat.le_trans short ?_
      unfold groupedDigitCount
      omega
    have whole := (length_zeroPadded within).trans (groupedDigitCount_eq bits)
    obtain ⟨count, four⟩ := groupsOfFour_of_length whole
    have flat := flatten_groupsOfFour (zeroPadded (groupedDigitCount bits) (hexDigits n))
    refine ⟨_, .cHex count four fun group among c member => ?_, ?_⟩
    · have inside := List.mem_flatten_of_mem among member
      rw [flat] at inside
      exact small.2 c inside
    · rw [flat]
      exact denotes
  -- The digits fill the width exactly, behind the width itself.
  | sizedHex =>
    obtain ⟨small, denotes⟩ := areSmallDigits_zeroPadded (hexDigitCount bits) n
    refine ⟨_, ?_, denotes⟩
    have written : Writing bits .sizedHex _ _ := .sizedHex (length_zeroPadded short) small
    simpa [write, hexDigitCount_eq] using written
  | decimal =>
    exact ⟨_, .decimal (areSmallDigits_toDigits .decimal n) (isUnpadded_toDigits .decimal n),
      (numeral_toDigits .decimal n).2⟩

/-- A text of the form of a style is what the style writes for the number of its digits. -/
theorem Writing.eq_write {style : LiteralStyle} {bits : Nat} {text digits : List Char}
    (positive : 1 ≤ bits) (written : Writing bits style text digits) :
    text = style.write bits (numeral style.base digits) := by
  -- Per style, the digits are those of their number in the length that the form has.
  cases written with
  | asmHex small unpadded =>
    have same := small.eq_toDigits unpadded
    simp only [LiteralStyle.write, hexDigits]
    exact congrArg ("0x".toList ++ ·) same
  | @cHex groups count four small =>
    -- Together the groups are as many digits as the number is filled up to, cut as they were.
    have length : groups.flatten.length = groupedDigitCount bits := by
      rw [List.length_flatten, List.map_congr_left four, List.map_const', List.sum_replicate_nat,
        count, groupedDigitCount_eq, Nat.mul_comm]
    -- The digits of all groups are small, and there are some, as the width has bits to cover.
    have all : LiteralStyle.cHex.AreSmallDigits groups.flatten := by
      refine ⟨?_, fun c member => ?_⟩
      · rw [← List.length_pos_iff, length, groupedDigitCount, hexDigitCount]
        omega
      · obtain ⟨group, among, inside⟩ := List.mem_flatten.1 member
        exact small group among c inside
    have same := all.eq_zeroPadded
    rw [length] at same
    have cut := groupsOfFour_flatten four
    rw [same] at cut
    simp only [LiteralStyle.write, hexDigits]
    exact congrArg (fun groups => "0x".toList ++ ['\''].intercalate groups) cut.symm
  -- The digits fill the width, behind the width and its marker.
  | sizedHex count small =>
    have same := small.eq_zeroPadded
    rw [count] at same
    simp only [LiteralStyle.write, hexDigits, hexDigitCount_eq]
    rw [← Nat.toList_repr, List.append_assoc]
    exact congrArg (fun digits => bits.repr.toList ++ ("'h".toList ++ digits)) same
  | decimal small unpadded => exact small.eq_toDigits unpadded

/-- For a number that fits the width, the form of a style describes one text, the one that is written. -/
theorem LiteralStyle.eq_write_iff {style : LiteralStyle} {bits n : Nat} {text : List Char}
    (positive : 1 ≤ bits) (fits : n < 2 ^ bits) :
    text = style.write bits n ↔
      ∃ digits, Writing bits style text digits ∧ numeral style.base digits = n := by
  -- The form determines the text, and what is written has the form.
  constructor
  · rintro rfl
    exact style.writing_write positive fits
  · rintro ⟨digits, written, rfl⟩
    exact written.eq_write positive

/-- A value is written exactly if its width is valid and it fits, as what its style writes for it. -/
theorem encode_eq_ok_iff {value : UInt64} {style : LiteralStyle} {bits : Nat} {text : String} :
    encode value style bits = .ok text ↔
      ValidWidth bits ∧ value.toNat < 2 ^ bits ∧
        text.toList = style.write bits value.toNat := by
  -- What is written tells the checks it has passed, and passed checks lead to the text.
  constructor
  · intro encoded
    obtain ⟨valid, fits, rfl⟩ := encode_ok encoded
    exact ⟨valid, fits, String.toList_ofList⟩
  · rintro ⟨valid, fits, same⟩
    simp [encode, valid, fits, ← same]

/--
A value is refused for a bad width first and for its range second, and any other value is written.

The text is the only one of the form that its style has for the value.
-/
theorem encode_exact (value : UInt64) (style : LiteralStyle) (bits : Nat) :
    (encode value style bits = .error (.invalidWidth bits) ↔ ¬ (1 ≤ bits ∧ bits ≤ 64)) ∧
    (encode value style bits = .error (.outOfRange value bits style) ↔
      (1 ≤ bits ∧ bits ≤ 64) ∧ 2 ^ bits ≤ value.toNat) ∧
    ((∃ text, encode value style bits = .ok text) ↔
      (1 ≤ bits ∧ bits ≤ 64) ∧ value.toNat < 2 ^ bits) ∧
    (∀ text, encode value style bits = .ok text ↔
      (1 ≤ bits ∧ bits ≤ 64) ∧ value.toNat < 2 ^ bits ∧
        ∃ digits, Writing bits style text.toList digits ∧
          numeral style.base digits = value.toNat) := by
  -- The checks come one behind the other, the width before the range.
  by_cases valid : ValidWidth bits
  · have width : 1 ≤ bits ∧ bits ≤ 64 := valid
    by_cases fits : value.toNat < 2 ^ bits
    · -- The value is written, as the one text of the form.
      have written : encode value style bits =
          .ok (String.ofList (style.write bits value.toNat)) := by
        simp [encode, valid, fits]
      refine ⟨by simp [written, width], by simp [written, fits], by simp [written, width, fits],
        fun text => ?_⟩
      rw [encode_eq_ok_iff, LiteralStyle.eq_write_iff width.1 fits]
      rfl
    · -- The value does not fit, which is told with the value itself.
      have refused : encode value style bits = .error (.outOfRange value bits style) := by
        simp [encode, valid, fits]
      simp [refused, width, fits, Nat.le_of_not_lt fits]
  · -- A width that no literal has is refused before the value is looked at.
    have width : ¬ (1 ≤ bits ∧ bits ≤ 64) := valid
    have refused : encode value style bits = .error (.invalidWidth bits) := by
      simp [encode, valid]
    simp [refused, width]

end BoardConfig
