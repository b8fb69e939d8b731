import BoardConfig.Proofs.Literal.Grammar

/-! A text denotes one number, whatever style and width it is read in. -/

namespace BoardConfig

/-- The base of a text's digits, which its marks tell. -/
def markedBase (text : List Char) : Nat :=
  if 'x' ∈ text ∨ 'h' ∈ text then 16 else 10

/-- The digits of a text: those behind its mark, without separators, or all of it. -/
def markedDigits (text : List Char) : List Char :=
  if 'x' ∈ text then ((text.dropWhile (· ≠ 'x')).drop 1).filter (· ≠ '\'')
  else if 'h' ∈ text then (text.dropWhile (· ≠ 'h')).drop 1
  else text

/-- The number that a text denotes, by its characters alone. -/
def markedNumber (text : List Char) : Nat :=
  numeral (markedBase text) (markedDigits text)

/-- Without its separators, what is joined are the runs put together. -/
theorem filter_intercalate {separator : Char} {runs : List (List Char)}
    (absent : ∀ run ∈ runs, separator ∉ run) :
    ([separator].intercalate runs).filter (· ≠ separator) = runs.flatten := by
  -- No run loses a character, as none of them holds the separator.
  have kept {run : List Char} (plain : separator ∉ run) : run.filter (· ≠ separator) = run := by
    apply List.filter_eq_self.2
    rintro c member
    apply decide_eq_true
    rintro rfl
    exact plain member
  -- The separator behind the first run goes, and the other runs follow.
  induction runs with
  | nil => rfl
  | cons run rest ih =>
    have first := kept (absent run List.mem_cons_self)
    have later := ih fun other among => absent other (List.mem_cons_of_mem _ among)
    cases rest with
    | nil => simpa [List.intercalate] using first
    | cons next others =>
      rw [intercalate_cons_cons, List.filter_append, first, List.filter_cons_of_neg (by simp), later]
      rfl

/-- The digits of a width in decimal are decimal digits. -/
theorem areDigits_toDigits (n : Nat) : LiteralStyle.decimal.AreDigits (Nat.toDigits 10 n) := by
  -- A number has a digit at least, and decimal digits are of the decimal alphabet.
  refine ⟨Nat.toDigits_ne_nil, fun c member => mem_alphabet_of_isDigitOf ?_⟩
  exact isDigitOf_of_mem_toDigits (by decide) (by decide) member

/-- The marks of a text tell its digits and their base, whatever grammar it belongs to. -/
theorem Spelling.marked {style : LiteralStyle} {bits : Nat} {text digits : List Char}
    (spelled : Spelling bits style text digits) :
    style.base = markedBase text ∧ digits = markedDigits text := by
  -- Each grammar puts its own mark before the digits, which hold none.
  cases spelled with
  | asmHex areDigits =>
    have quote : ∀ run ∈ [digits], '\'' ∉ run := by
      simpa using areDigits.not_mem '\'' (by decide)
    have bare := filter_intercalate quote
    simpa [LiteralStyle.base, markedBase, markedDigits, List.intercalate, eq_comm] using bare
  | @cHex runs filled areDigits =>
    have quote : ∀ run ∈ runs, '\'' ∉ run := by
      intro run among
      exact (areDigits run among).not_mem '\'' (by decide)
    have bare := filter_intercalate quote
    simpa [LiteralStyle.base, markedBase, markedDigits, eq_comm] using bare
  | sizedHex areDigits =>
    -- The width in front of the mark holds neither letter.
    have width := areDigits_toDigits bits
    have noX := width.not_mem 'x' (by decide)
    have noH := width.not_mem 'h' (by decide)
    have alsoNoX := areDigits.not_mem 'x' (by decide)
    have passed : ∀ c ∈ Nat.toDigits 10 bits, decide (c ≠ 'h') = true := by
      rintro c member
      apply decide_eq_true
      rintro rfl
      exact noH member
    have behind : (Nat.toDigits 10 bits ++ '\'' :: 'h' :: digits).dropWhile (· ≠ 'h') =
        'h' :: digits := by
      rw [List.dropWhile_append_of_pos passed]
      rfl
    have whole : bits.repr.toList ++ "'h".toList ++ digits =
        Nat.toDigits 10 bits ++ '\'' :: 'h' :: digits := by
      simp
    rw [whole, markedBase, markedDigits, behind]
    simp [LiteralStyle.base, noX, alsoNoX]
  | decimal areDigits =>
    have noX := areDigits.not_mem 'x' (by decide)
    have noH := areDigits.not_mem 'h' (by decide)
    simp [LiteralStyle.base, markedBase, markedDigits, noX, noH]

/-- A value that is read is the number that the text denotes by its characters alone. -/
theorem toNat_of_decode {text : String} {style : LiteralStyle} {bits : Nat} {value : UInt64}
    (read : decode text style bits = .ok value) : value.toNat = markedNumber text.toList := by
  -- What is read denotes its value by its marks and digits, whatever style and width were asked
  -- for.
  obtain ⟨_, digits, spelled, _, same⟩ := decode_eq_ok_iff.1 read
  obtain ⟨base, rfl⟩ := spelled.marked
  rw [same, base, markedNumber]

/--
A literal reads back as the value that it was written from, and as no other value in any style or width.

Another style or width may refuse it.
-/
theorem decode_never_misreads {value : UInt64} {style : LiteralStyle} {bits : Nat} {text : String}
    (encoded : encode value style bits = .ok text) :
    decode text style bits = .ok value ∧
      ∀ other width, decode text other width = .ok value ∨
        ∃ e, decode text other width = .error e := by
  -- Both readings give the number that the text denotes, so they give one value.
  have back := decode_encode encoded
  refine ⟨back, ?_⟩
  intro other width
  cases read : decode text other width with
  | error e => exact .inr ⟨e, rfl⟩
  | ok found =>
    have same : found.toNat = value.toNat := (toNat_of_decode read).trans (toNat_of_decode back).symm
    rw [UInt64.toNat_inj.1 same]
    exact .inl rfl

/-- The groups of zeros in front of a value are never read as another value. -/
theorem decode_never_misreads_sixteen :
    encode 16 .cHex 64 = .ok "0x0000'0000'0000'0010" ∧
      decode "0x0000'0000'0000'0010" .cHex 64 = .ok 16 ∧
      ∀ other width, decode "0x0000'0000'0000'0010" other width = .ok 16 ∨
        ∃ e, decode "0x0000'0000'0000'0010" other width = .error e :=
  have encoded : encode 16 .cHex 64 = .ok "0x0000'0000'0000'0010" := by decide
  ⟨encoded, decode_never_misreads encoded⟩

end BoardConfig
