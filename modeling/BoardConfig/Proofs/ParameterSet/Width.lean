import BoardConfig.Proofs.Literal
import BoardConfig.Proofs.ParameterSet.Conformance
import Mathlib.Tactic.Zify

/-! The width of a declared type and that of a literal are one bound. -/

namespace BoardConfig

/-- The word of all ones, shifted right until as many bits are left as a type has. -/
def shiftedOnes? (bits : Nat) : Option UInt64 :=
  if 64 < bits then none
  -- A shift by as many places as a word has bits is refused.
  else if 64 ≤ 64 - bits then none
  else some (UInt64.ofNat (2 ^ 64 - 1) >>> UInt64.ofNat (64 - bits))

/-- Whether nothing is left of a word that is shifted right by a width, which may be past the word. -/
def VanishesBeyond (value : UInt64) (bits : Nat) : Prop :=
  64 ≤ bits ∨ value >>> UInt64.ofNat bits = 0

/-- A shift by fewer places than a word has bits divides by a power of two. -/
theorem toNat_shiftRight_ofNat (value : UInt64) {places : Nat} (few : places < 64) :
    (value >>> UInt64.ofNat places).toNat = value.toNat / 2 ^ places := by
  -- The shift is by the number of places, as these are fewer than the bits of a word.
  calc
    (value >>> UInt64.ofNat places).toNat
        = value.toNat >>> ((UInt64.ofNat places).toNat % 64) := UInt64.toNat_shiftRight _ _
    _ = value.toNat >>> places := by
      rw [UInt64.toNat_ofNat_of_lt' (Nat.lt_trans few (by decide)), Nat.mod_eq_of_lt few]
    _ = value.toNat / 2 ^ places := Nat.shiftRight_eq_div_pow _ _

/-- A word vanishes beyond a width exactly if it is below two to the width. -/
theorem vanishesBeyond_iff {value : UInt64} {bits : Nat} :
    VanishesBeyond value bits ↔ value.toNat < 2 ^ bits := by
  -- Shifting is division for fewer places than bits, and told apart otherwise.
  unfold VanishesBeyond
  rcases Nat.lt_or_ge bits 64 with few | many
  · -- What is left of the word is its quotient, which is zero below the divisor only.
    have left := toNat_shiftRight_ofNat value few
    rw [← UInt64.toNat_inj, left, UInt64.toNat_zero,
      Nat.div_eq_zero_iff_lt (Nat.two_pow_pos bits)]
    constructor
    · rintro (many | fits)
      · omega
      · exact fits
    · exact .inr
  · -- No word reaches two to the number of its bits.
    have bound : 2 ^ 64 ≤ 2 ^ bits := Nat.pow_le_pow_right (by decide) many
    have below : value.toNat < 2 ^ 64 := value.toNat_lt
    exact ⟨fun _ => by omega, fun _ => .inl many⟩

/-- An integer of 64 bits from zero on is the word of the same bits. -/
theorem toNat_toUInt64_of_nonneg {i : Int64} (natural : 0 ≤ i) :
    (i.toUInt64.toNat : Int) = i.toInt := by
  -- The first bit is not set, so both readings of the bits agree.
  have signed : 0 ≤ i.toInt := Int64.le_iff_toInt_le.1 natural
  rw [Int64.toNat_toUInt64_of_le natural]
  exact Int.toNat_of_nonneg signed

namespace ParameterType

variable {bits : Nat}

/-- The shift of the word of all ones leaves the largest value. -/
theorem shiftedOnes?_eq_maxValue? (bits : Nat) :
    shiftedOnes? bits = (ParameterType.uint bits).maxValue? := by
  -- Shifting the largest word by the missing places divides it by their power.
  unfold shiftedOnes?
  by_cases valid : ValidWidth bits
  · obtain ⟨least, most⟩ := valid
    rw [if_neg (by omega), if_neg (by omega)]
    symm
    refine maxValue?_eq_some_iff.2 ⟨⟨least, most⟩, ?_⟩
    rw [toNat_shiftRight_ofNat _ (by omega)]
    -- Two to the word's bits is the product of the two powers.
    have product : 2 ^ bits * 2 ^ (64 - bits) = 2 ^ 64 := by
      rw [← Nat.pow_add]
      congr 1
      omega
    have positive : 0 < 2 ^ bits := Nat.two_pow_pos bits
    have places : 0 < 2 ^ (64 - bits) := Nat.two_pow_pos _
    show (2 ^ 64 - 1) / 2 ^ (64 - bits) = 2 ^ bits - 1
    rw [← product]
    apply Nat.div_eq_of_lt_le
    · rw [Nat.sub_one_mul]
      omega
    · rw [Nat.sub_add_cancel positive]
      exact Nat.sub_one_lt (Nat.mul_pos positive places).ne'
  · -- No bits at all are too many places to shift by, and past 64 there is nothing to subtract.
    rw [maxValue?_eq_none_iff.2 valid]
    unfold ValidWidth at valid
    split
    · rfl
    · rw [if_pos (by omega)]

/-- The values with a literal of a width are those up to the largest of the type. -/
theorem encode_iff_le_maxValue? {greatest value : UInt64} (style : LiteralStyle)
    (largest : (ParameterType.uint bits).maxValue? = some greatest) :
    (∃ text, encode value style bits = .ok text) ↔ value ≤ greatest := by
  -- The largest value is one less than the first that does not fit.
  obtain ⟨valid, all⟩ := maxValue?_eq_some_iff.1 largest
  have positive : 0 < 2 ^ bits := Nat.two_pow_pos bits
  rw [exists_encode_iff, UInt64.le_iff_toNat_le, all]
  constructor
  · rintro ⟨-, fits⟩
    omega
  · intro small
    exact ⟨valid, by omega⟩

/-- An integer of 64 bits conforms to a width exactly if it is a number with a literal of the width. -/
theorem conforms_iff_encode {i : Int64} (style : LiteralStyle) :
    (ParameterType.uint bits).Conforms (.integer i.toInt) ↔
      0 ≤ i ∧ ∃ text, encode i.toUInt64 style bits = .ok text := by
  -- Both ask for a valid width and for a number below its power of two.
  rw [conforms_uint_iff, exists_encode_iff]
  constructor
  · rintro ⟨least, most, signed, below⟩
    have natural : 0 ≤ i := Int64.le_iff_toInt_le.2 signed
    have word := toNat_toUInt64_of_nonneg natural
    have fits : i.toUInt64.toNat < 2 ^ bits := by
      zify
      rwa [word]
    exact ⟨natural, ⟨least, most⟩, fits⟩
  · rintro ⟨natural, ⟨least, most⟩, fits⟩
    have word := toNat_toUInt64_of_nonneg natural
    refine ⟨least, most, by omega, ?_⟩
    rw [← word]
    exact_mod_cast fits

end ParameterType

/-- Whether a table suits a schema but for what it binds one declared name to. -/
def Schema.AdmitsBut (schema : Schema) (declaration : Declaration) (table : Toml.Table) : Prop :=
  (∀ name, name ∈ table.keys ↔ name ∈ schema.names) ∧
    ∀ other ∈ schema.declarations, other ≠ declaration → other.Accepts table

/-- A table suits a schema if it suits it but for one declaration, whose value conforms. -/
theorem Schema.admits_iff_of_bound {schema : Schema} {declaration : Declaration}
    {table : Toml.Table} {raw : Toml.Value} (declared : declaration ∈ schema.declarations)
    (bound : table.get? declaration.name = some raw) :
    schema.Admits table ↔ declaration.type.Conforms raw ∧ schema.AdmitsBut declaration table := by
  -- A schema asks of each declaration by itself, and this is one of them.
  constructor
  · rintro ⟨keys, accepts⟩
    obtain ⟨found, again, conforms⟩ := accepts declaration declared
    -- The table has one value for the name.
    cases bound.symm.trans again
    exact ⟨conforms, keys, fun other among _ => accepts other among⟩
  · rintro ⟨conforms, keys, others⟩
    refine ⟨keys, fun other among => ?_⟩
    by_cases same : other = declaration
    · subst same
      exact ⟨raw, bound, conforms⟩
    · exact others other among same

/-- A table is bound exactly if the schema admits it. -/
theorem ParameterSet.exists_ofTable_iff {schema : Schema} {profile : String} {table : Toml.Table} :
    (∃ parameters, ofTable schema profile table = .ok parameters) ↔ schema.Admits table := by
  -- A table is bound or has a fault, which one that conforms has not.
  rcases ofTable_cases schema profile table with ⟨admits, bound, binds, -⟩ | ⟨e, faults, fails⟩
  · exact ⟨fun _ => admits, fun _ => ⟨bound, binds⟩⟩
  · simp [fails, faults.not_admits]

/--
The schema and the literals of an artifact draw one line for each width, however they compute it.

An integer is accepted for an unsigned parameter just if it is not negative and its word has a
literal of that width, in whichever style; the parameter then is that word, and is read back from
its literal. The largest value of a type is the word of all ones shifted right, a value fits a
literal if a shift to the right leaves nothing of it, and both bounds are two to the width.
-/
theorem width_exact (bits : Nat) (style : LiteralStyle) :
    (∀ (i : Int64) (schema : Schema) (profile : String) (table : Toml.Table)
      (declaration : Declaration), declaration ∈ schema.declarations →
      declaration.type = .uint bits → table.get? declaration.name = some (.integer i.toInt) →
      ((∃ parameters, ParameterSet.ofTable schema profile table = .ok parameters) ↔
        (0 ≤ i ∧ ∃ text, encode i.toUInt64 style bits = .ok text) ∧
          schema.AdmitsBut declaration table) ∧
      ∀ parameters, ParameterSet.ofTable schema profile table = .ok parameters →
        ∃ value text, parameters.get? declaration.name = some (.uint value) ∧
          parameters.uint declaration.name = .ok value ∧ (value.toNat : Int) = i.toInt ∧
          encode value style bits = .ok text ∧ decode text style bits = .ok value) ∧
    (∀ greatest, (ParameterType.uint bits).maxValue? = some greatest ↔
      (1 ≤ bits ∧ bits ≤ 64) ∧ greatest.toNat = 2 ^ bits - 1) ∧
    ((ParameterType.uint bits).maxValue? = none ↔ ¬ (1 ≤ bits ∧ bits ≤ 64)) ∧
    (∀ greatest, (ParameterType.uint bits).maxValue? = some greatest →
      ∀ value, (∃ text, encode value style bits = .ok text) ↔ value ≤ greatest) ∧
    (ParameterType.uint bits).maxValue? = shiftedOnes? bits ∧
    ∀ value, (∃ text, encode value style bits = .ok text) ↔
      (1 ≤ bits ∧ bits ≤ 64) ∧ VanishesBeyond value bits := by
  -- Acceptance, literals and both formulas are each compared with the power of two.
  refine ⟨?_, fun greatest => ParameterType.maxValue?_eq_some_iff,
    ParameterType.maxValue?_eq_none_iff,
    fun greatest largest value => ParameterType.encode_iff_le_maxValue? style largest,
    (ParameterType.shiftedOnes?_eq_maxValue? bits).symm, ?_⟩
  · intro i schema profile table declaration declared type bound
    -- But for this declaration, admission does not depend on the integer.
    have admits : schema.Admits table ↔
        (0 ≤ i ∧ ∃ text, encode i.toUInt64 style bits = .ok text) ∧
          schema.AdmitsBut declaration table := by
      rw [schema.admits_iff_of_bound declared bound, type, ParameterType.conforms_iff_encode style]
    refine ⟨ParameterSet.exists_ofTable_iff.trans admits, ?_⟩
    intro parameters binds
    obtain ⟨admitted, -, holds⟩ := ParameterSet.ofTable_ok_iff.1 binds
    obtain ⟨⟨natural, text, encoded⟩, -⟩ := admits.1 admitted
    have word := toNat_toUInt64_of_nonneg natural
    -- The set holds the value that the raw integer stands for, which is its word.
    have raw : (parameters.get? declaration.name).map ParameterValue.raw =
        some (ParameterValue.uint i.toUInt64).raw := by
      rw [holds, bound, ParameterValue.raw, word]
    obtain ⟨value, found, same⟩ := Option.map_eq_some_iff.1 raw
    cases ParameterValue.raw_injective same
    refine ⟨i.toUInt64, text, found, ?_, word, encoded, decode_encode encoded⟩
    simp [ParameterSet.uint, ParameterSet.require, found]
  · intro value
    rw [vanishesBeyond_iff]
    exact exists_encode_iff style

/-- A schema with one parameter of eight bits. -/
def byteSchema : Schema where
  declarations := [⟨"WIDTH", .uint 8, "a width"⟩]

/-- A table that binds the parameter to an integer. -/
def byteTable (i : Int64) : Toml.Table :=
  .ofList [("WIDTH", .integer i.toInt)]

/-- Eight bits hold the largest byte and not the number after it. -/
theorem width_exact_sample :
    (∃ parameters, ParameterSet.ofTable byteSchema "b" (byteTable 255) = .ok parameters ∧
      parameters.uint "WIDTH" = .ok 255) ∧
    ¬ ∃ parameters, ParameterSet.ofTable byteSchema "b" (byteTable 256) = .ok parameters := by
  -- The table binds the one parameter of the schema to the integer.
  have bound (i : Int64) : (byteTable i).get? "WIDTH" = some (.integer i.toInt) := by
    simp [byteTable, SortedMap.get?_ofList, findEntry]
  have parameter (i : Int64) := (width_exact 8 .asmHex).1 i byteSchema "b" (byteTable i)
    ⟨"WIDTH", .uint 8, "a width"⟩ List.mem_cons_self rfl (bound i)
  constructor
  · -- The table has the one declared name, and 255 has a literal of eight bits.
    have apart : byteSchema.AdmitsBut ⟨"WIDTH", .uint 8, "a width"⟩ (byteTable 255) := by
      refine ⟨fun name => ?_, ?_⟩
      · have keys : (byteTable 255).keys = byteSchema.names := by decide
        rw [keys]
      · intro other among different
        exact absurd (List.mem_singleton.1 among) different
    obtain ⟨parameters, binds⟩ :=
      (parameter 255).1.2 ⟨⟨by decide, "0xff", by decide⟩, apart⟩
    obtain ⟨value, -, -, found, same, -⟩ := (parameter 255).2 parameters binds
    have number : value = 255 := by
      have integer : (255 : Int64).toInt = 255 := by decide
      rw [integer] at same
      rw [← UInt64.toNat_inj]
      exact_mod_cast same
    exact ⟨parameters, binds, number ▸ found⟩
  · -- The number after it has no literal of eight bits.
    intro binds
    obtain ⟨⟨-, text, encoded⟩, -⟩ := (parameter 256).1.1 binds
    have refused : encode (256 : Int64).toUInt64 .asmHex 8 =
        .error (.outOfRange 256 8 .asmHex) := by decide
    cases refused.symm.trans encoded

end BoardConfig
