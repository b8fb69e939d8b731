import BoardConfig.Proofs.Literal.Writing

/-! The texts that are read as a value besides its literal, and what tells the literal from them. -/

namespace BoardConfig

/-- A text that is written belongs to the grammar that is read, with the same digits. -/
theorem Writing.spelling {style : LiteralStyle} {bits : Nat} {text digits : List Char}
    (positive : 1 ≤ bits) (written : Writing bits style text digits) :
    Spelling bits style text digits := by
  -- Each form that is written is one that is read, with narrower digits.
  cases written with
  | asmHex small unpadded => exact .asmHex small.areDigits
  | @cHex groups count four small =>
    -- There is a group, as the width has bits to cover, and no group is empty.
    have filled : groups ≠ [] := by
      rintro rfl
      rw [Nat.ceilDiv_eq_add_pred_div, List.length_nil] at count
      omega
    refine .cHex filled fun group among => ⟨?_, fun c member => ?_⟩
    · rintro rfl
      exact absurd (four [] among) (by decide)
    · exact (mem_alphabet_of_small (small group among c member)).1
  | sizedHex count small => exact .sizedHex small.areDigits
  | decimal small unpadded => exact .decimal small.areDigits

/-- A text of the grammar has digits of its style. -/
theorem Spelling.areDigits {style : LiteralStyle} {bits : Nat} {text digits : List Char}
    (spelled : Spelling bits style text digits) : style.AreDigits digits :=
  -- What is left of a text without its marks are digits.
  (spelling_iff.1 spelled).2

/-- A value that is read can be written, and its literal belongs to the grammar with digits of the value. -/
theorem literal_of_decode {text : String} {style : LiteralStyle} {bits : Nat} {value : UInt64}
    (read : decode text style bits = .ok value) :
    ∃ literal written, encode value style bits = .ok literal ∧
      Spelling bits style literal.toList written ∧ numeral style.base written = value.toNat := by
  -- The number was read within the width, so it is written in the form of the style.
  obtain ⟨valid, digits, spelled, fits, same⟩ := decode_eq_ok_iff.1 read
  rw [← same] at fits
  obtain ⟨written, form, denotes⟩ := style.writing_write valid.1 fits
  refine ⟨String.ofList (style.write bits value.toNat), written, ?_, ?_, denotes⟩
  · exact encode_eq_ok_iff.2 ⟨valid, fits, String.toList_ofList⟩
  · rw [String.toList_ofList]
    exact form.spelling valid.1

/--
A text is read as a value exactly if its digits are those of the value's literal, but for their case
and the zeros in front.

Nor do the lengths of groups matter to reading. So a text that is read is the literal of what it is
read as exactly if it has the form in which its style is written.
-/
theorem decode_iff_significant (text : String) (style : LiteralStyle) (bits : Nat) (value : UInt64) :
    (decode text style bits = .ok value ↔
      ∃ literal written digits, encode value style bits = .ok literal ∧
        Spelling bits style literal.toList written ∧ Spelling bits style text.toList digits ∧
        significantDigits digits = significantDigits written) ∧
    (decode text style bits = .ok value →
      (encode value style bits = .ok text ↔ ∃ digits, Writing bits style text.toList digits)) := by
  -- Both claims compare the text with the literal of the number that its digits denote.
  constructor
  · constructor
    · -- The literal and the text denote one number, so they share the digits that matter.
      intro read
      obtain ⟨literal, written, encoded, form, denotes⟩ := literal_of_decode read
      obtain ⟨_, digits, spelled, _, same⟩ := decode_eq_ok_iff.1 read
      refine ⟨literal, written, digits, encoded, form, spelled, ?_⟩
      rw [significantDigits_eq_iff spelled.areDigits form.areDigits, denotes, same]
    · -- With the same digits that matter, the text denotes the number of the literal.
      rintro ⟨literal, written, digits, encoded, form, spelled, same⟩
      obtain ⟨valid, others, again, fits, denotes⟩ := decode_eq_ok_iff.1 (decode_encode encoded)
      rw [again.digits_unique form] at fits denotes
      rw [significantDigits_eq_iff spelled.areDigits form.areDigits] at same
      exact decode_eq_ok_iff.2 ⟨valid, digits, spelled, same ▸ fits, same ▸ denotes⟩
  · -- What has the form of the style is written for the number of its digits, which is what is read.
    intro read
    obtain ⟨valid, digits, spelled, fits, same⟩ := decode_eq_ok_iff.1 read
    rw [← same] at fits
    rw [encode_eq_ok_iff, LiteralStyle.eq_write_iff valid.1 fits]
    constructor
    · rintro ⟨_, _, written, form, _⟩
      exact ⟨written, form⟩
    · rintro ⟨written, form⟩
      refine ⟨valid, fits, written, form, ?_⟩
      rw [(form.spelling valid.1).digits_unique spelled, same]

/-- A capital letter is read like a small one, and such a text is no literal of what it is read as. -/
theorem decode_iff_significant_capital :
    decode "0x1F" .asmHex 8 = .ok 31 ∧ encode 31 .asmHex 8 ≠ .ok "0x1F" := by
  have read : decode "0x1F" .asmHex 8 = .ok 31 := by decide
  refine ⟨read, fun encoded => ?_⟩
  -- The form of the style has no place for the letter.
  obtain ⟨digits, form⟩ := ((decode_iff_significant "0x1F" .asmHex 8 31).2 read).1 encoded
  generalize marked : "0x1F".toList = characters at form
  cases form with
  | asmHex small unpadded =>
    have capital : 'F' ∈ digits := by
      have same : digits = ['1', 'F'] := by simpa using marked.symm
      simp [same]
    exact absurd (small.2 'F' capital) (by decide)

end BoardConfig
