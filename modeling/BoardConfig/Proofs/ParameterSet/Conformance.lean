import BoardConfig.ParameterSet
import BoardConfig.SortedMap.Lookup
import Mathlib.Algebra.Group.Int.Defs
import Mathlib.Algebra.Group.Nat.Defs

/-! A table is bound by a schema exactly if it conforms to it, and keeps every value as it was written. -/

namespace BoardConfig

/-- The raw values of a declared type; an unsigned type has one to 64 bits. -/
inductive ParameterType.Conforms : ParameterType → Toml.Value → Prop
  | uint {bits : Nat} {i : Int} (least : 1 ≤ bits) (most : bits ≤ 64) (natural : 0 ≤ i)
      (fits : i < 2 ^ bits) : Conforms (.uint bits) (.integer i)
  | string (text : String) : Conforms .string (.string text)
  | boolean (value : Bool) : Conforms .boolean (.boolean value)

/-- What a mismatch message says was found in place of a value of the type. -/
inductive ParameterType.Refuses : ParameterType → Toml.Value → String → Prop
  | negative {bits : Nat} {i : Int} (negative : i < 0) :
      Refuses (.uint bits) (.integer i) s!"negative integer {i}"
  | wide {bits : Nat} {i : Int} (natural : 0 ≤ i)
      (beyond : ¬ (ParameterType.uint bits).Conforms (.integer i)) :
      Refuses (.uint bits) (.integer i) s!"integer {i} wider than {bits} bits"
  /-- A value of another sort is told by that sort and its text. -/
  | other {type : ParameterType} {raw : Toml.Value}
      (foreign : ∀ bits i, ¬ (type = .uint bits ∧ raw = .integer i)) (beyond : ¬ type.Conforms raw) :
      Refuses type raw s!"{raw.typeName} {raw.display}"

/-- The raw value that a bound value was read from. -/
def ParameterValue.raw : ParameterValue → Toml.Value
  | .uint value => .integer value.toNat
  | .string text => .string text
  | .boolean value => .boolean value

/-- No two bound values are read from one raw value. -/
theorem ParameterValue.raw_injective {first second : ParameterValue}
    (same : first.raw = second.raw) : first = second := by
  -- Values of two sorts have raw values of two sorts, and a number is determined by its value.
  cases first <;> cases second <;> simp_all only [raw, reduceCtorEq, Toml.Value.integer.injEq,
    Toml.Value.string.injEq, Toml.Value.boolean.injEq, Int.natCast_inj, UInt64.toNat_inj]

namespace ParameterType

variable {type : ParameterType} {raw : Toml.Value} {value : ParameterValue} {found : String}

/-- A number is the largest of an unsigned type exactly if all bits of a width up to 64 are set. -/
theorem maxValue?_eq_some_iff {bits : Nat} {greatest : UInt64} :
    (ParameterType.uint bits).maxValue? = some greatest ↔
      (1 ≤ bits ∧ bits ≤ 64) ∧ greatest.toNat = 2 ^ bits - 1 := by
  -- Only widths from one to 64 have a largest value.
  simp only [maxValue?]
  split
  · -- All bits set is one less than the first power that does not fit, which 64 bits can hold.
    rename_i width
    have positive : 0 < 2 ^ bits := Nat.two_pow_pos bits
    have bound : 2 ^ bits ≤ 2 ^ 64 := Nat.pow_le_pow_right (by decide) width.2
    have held : (UInt64.ofNat (Nat.pow 2 bits - 1)).toNat = 2 ^ bits - 1 := by
      apply UInt64.toNat_ofNat_of_lt'
      show 2 ^ bits - 1 < 2 ^ 64
      omega
    rw [Option.some.injEq, ← UInt64.toNat_inj, held]
    exact ⟨fun same => ⟨width, same.symm⟩, fun same => same.2.symm⟩
  · rename_i width
    exact ⟨by simp, fun largest => absurd largest.1 width⟩

/-- An unsigned type has no largest value exactly if it has no bits, or more than 64. -/
theorem maxValue?_eq_none_iff {bits : Nat} :
    (ParameterType.uint bits).maxValue? = none ↔ ¬ (1 ≤ bits ∧ bits ≤ 64) := by
  -- The definition asks for the width first.
  simp [maxValue?]

/-- The largest value of an unsigned type bounds exactly the integers that need no more bits. -/
theorem le_maxValue?_iff {bits : Nat} {n : Nat} :
    (∃ greatest, (ParameterType.uint bits).maxValue? = some greatest ∧ n ≤ greatest.toNat) ↔
      1 ≤ bits ∧ bits ≤ 64 ∧ n < 2 ^ bits := by
  -- The largest value is one less than the power of two.
  have positive : 0 < 2 ^ bits := Nat.two_pow_pos bits
  constructor
  · intro bounded
    obtain ⟨greatest, largest, le⟩ := bounded
    obtain ⟨width, all⟩ := maxValue?_eq_some_iff.1 largest
    exact ⟨width.1, width.2, by omega⟩
  · intro bounds
    cases largest : (ParameterType.uint bits).maxValue? with
    | none => exact absurd ⟨bounds.1, bounds.2.1⟩ (maxValue?_eq_none_iff.1 largest)
    | some greatest =>
      have all := (maxValue?_eq_some_iff.1 largest).2
      exact ⟨greatest, rfl, by omega⟩

/-- An unsigned type holds the integers from zero on that its bits can express. -/
theorem conforms_uint_iff {bits : Nat} {i : Int} :
    (ParameterType.uint bits).Conforms (.integer i) ↔
      1 ≤ bits ∧ bits ≤ 64 ∧ 0 ≤ i ∧ i < 2 ^ bits := by
  -- Conforming to an unsigned type is what its constructor asks for.
  constructor
  · intro conforms
    -- Of the three ways to conform, only the one for unsigned types is about integers.
    cases conforms with
    | uint least most natural fits => exact ⟨least, most, natural, fits⟩
  · intro bounds
    obtain ⟨least, most, natural, fits⟩ := bounds
    exact .uint least most natural fits

/-- A value that is refused does not conform. -/
theorem Refuses.not_conforms (refuses : type.Refuses raw found) : ¬ type.Conforms raw := by
  -- Each refusal is for one of the conditions that conforming asks for.
  cases refuses with
  | negative negative =>
    -- A type that an integer conforms to is unsigned.
    intro conforms
    have natural := (conforms_uint_iff.1 conforms).2.2.1
    omega
  | wide _ beyond => exact beyond
  | other _ beyond => exact beyond

/-- A value is refused in one way. -/
theorem Refuses.unique {other : String} (refuses : type.Refuses raw found)
    (again : type.Refuses raw other) : found = other := by
  -- Integers are refused by their sign, and values of another sort are no integers.
  cases refuses with
  | negative negative =>
    cases again with
    | negative => rfl
    -- A number is not below zero and from zero on.
    | wide natural => omega
    | other foreign => exact absurd ⟨rfl, rfl⟩ (foreign _ _)
  | wide natural =>
    cases again with
    | negative negative => omega
    | wide => rfl
    -- The type is unsigned and the value an integer, which is what the other message excludes.
    | other foreign => exact absurd ⟨rfl, rfl⟩ (foreign _ _)
  | other foreign =>
    cases again with
    | negative => exact absurd ⟨rfl, rfl⟩ (foreign _ _)
    | wide => exact absurd ⟨rfl, rfl⟩ (foreign _ _)
    | other => rfl

/-- An integer either conforms to an unsigned type and converts to itself, or is refused. -/
theorem convert_integer (bits : Nat) (i : Int) :
    ((ParameterType.uint bits).Conforms (.integer i) ∧ ∃ value : ParameterValue,
      value.raw = .integer i ∧ (ParameterType.uint bits).convert (.integer i) = .ok value) ∨
    ∃ found, (ParameterType.uint bits).Refuses (.integer i) found ∧
      (ParameterType.uint bits).convert (.integer i) = .error found := by
  -- Below zero the width is not looked at; from zero on the largest value decides.
  rcases Int.lt_or_le i 0 with negative | natural
  · exact .inr ⟨_, .negative negative, by rw [convert, if_pos negative]⟩
  have small : i.toNat < 2 ^ bits ↔ i < 2 ^ bits := by
    rw [Int.toNat_lt natural]
    norm_cast
  -- What the code compares with is the largest value, and what conforms is told by the width.
  have held : (ParameterType.uint bits).Conforms (.integer i) ↔
      ∃ greatest, (ParameterType.uint bits).maxValue? = some greatest ∧ i.toNat ≤ greatest.toNat := by
    rw [le_maxValue?_iff, conforms_uint_iff, small]
    simp [natural]
  have wide (beyond : ¬ (ParameterType.uint bits).Conforms (.integer i)) :=
    Refuses.wide natural beyond
  rw [convert, if_neg (Int.not_lt.2 natural)]
  cases largest : (ParameterType.uint bits).maxValue? with
  -- A width without a largest value refuses every integer.
  | none => exact .inr ⟨_, wide (by simp [held, largest]), rfl⟩
  | some greatest =>
    by_cases fits : i.toNat ≤ greatest.toNat
    · -- The largest value has 64 bits, so nothing is cut off.
      have whole := UInt64.toNat_ofNat_of_lt' (Nat.lt_of_le_of_lt fits greatest.toNat_lt)
      refine .inl ⟨held.2 ⟨greatest, largest, fits⟩, _, ?_, if_pos fits⟩
      rw [ParameterValue.raw, whole, Int.toNat_of_nonneg natural]
    · exact .inr ⟨_, wide (by simpa [held, largest] using fits), if_neg fits⟩

/-- A raw value conforms and converts to what was read from it, or is refused with a reason. -/
theorem convert_cases (type : ParameterType) (raw : Toml.Value) :
    (type.Conforms raw ∧ ∃ value : ParameterValue,
      value.raw = raw ∧ type.convert raw = .ok value) ∨
    ∃ found, type.Refuses raw found ∧ type.convert raw = .error found := by
  -- Only integers are measured; of the other values those of the declared sort conform.
  cases type with
  | uint bits =>
    cases raw with
    | integer i => exact convert_integer bits i
    | _ => exact .inr ⟨_, .other nofun nofun, rfl⟩
  | string =>
    cases raw with
    | string text => exact .inl ⟨.string text, .string text, rfl, rfl⟩
    | _ => exact .inr ⟨_, .other nofun nofun, rfl⟩
  | boolean =>
    cases raw with
    | boolean value => exact .inl ⟨.boolean value, .boolean value, rfl, rfl⟩
    | _ => exact .inr ⟨_, .other nofun nofun, rfl⟩

end ParameterType

/-- Whether a table binds the declared name to a value of the declared type. -/
def Declaration.Accepts (declaration : Declaration) (table : Toml.Table) : Prop :=
  ∃ raw, table.get? declaration.name = some raw ∧ declaration.type.Conforms raw

/-- What is wrong with the binding of a declared name. -/
inductive Declaration.Faults (profile : String) (table : Toml.Table) :
    Declaration → ParameterError → Prop
  | missing {declaration : Declaration} (absent : table.get? declaration.name = none) :
      Faults profile table declaration (.missing profile declaration.name)
  | mismatch {declaration : Declaration} {raw : Toml.Value} {found : String}
      (bound : table.get? declaration.name = some raw)
      (refuses : declaration.type.Refuses raw found) :
      Faults profile table declaration
        (.typeMismatch declaration.name declaration.type.display found)

/-- What is wrong with the first of some declarations that a table does not suit. -/
inductive FirstFault (profile : String) (table : Toml.Table) :
    List Declaration → ParameterError → Prop
  | here {declaration : Declaration} {rest : List Declaration} {error : ParameterError}
      (faults : declaration.Faults profile table error) :
      FirstFault profile table (declaration :: rest) error
  | later {declaration : Declaration} {rest : List Declaration} {error : ParameterError}
      (accepts : declaration.Accepts table) (behind : FirstFault profile table rest error) :
      FirstFault profile table (declaration :: rest) error

section Faults

variable {declaration : Declaration} {declarations : List Declaration} {profile : String}
  {table : Toml.Table} {error other : ParameterError}

/-- A declaration with a fault is not accepted. -/
theorem Declaration.Faults.not_accepts (faults : declaration.Faults profile table error) :
    ¬ declaration.Accepts table := by
  -- A declaration is accepted by a value of the table that conforms.
  intro accepts
  obtain ⟨raw, there, conforms⟩ := accepts
  cases faults with
  -- What is missing in the table has no value there.
  | missing absent => cases there.symm.trans absent
  | mismatch bound refuses =>
    cases there.symm.trans bound
    exact refuses.not_conforms conforms

/-- A declaration has at most one fault. -/
theorem Declaration.Faults.unique (faults : declaration.Faults profile table error)
    (again : declaration.Faults profile table other) : error = other := by
  -- The table binds the name or does not, and a value that it binds is refused with one message.
  cases faults with
  | missing absent =>
    cases again with
    | missing => rfl
    | mismatch bound => cases bound.symm.trans absent
  | mismatch bound refuses =>
    cases again with
    | missing absent => cases bound.symm.trans absent
    | mismatch boundAgain refusesAgain =>
      cases bound.symm.trans boundAgain
      rw [refuses.unique refusesAgain]

/-- A fault is that of a declaration which is not accepted. -/
theorem FirstFault.not_accepts (first : FirstFault profile table declarations error) :
    ¬ ∀ declaration ∈ declarations, declaration.Accepts table := by
  -- Induction on the declarations before the one with the fault.
  intro all
  induction first with
  | here faults => exact faults.not_accepts (all _ List.mem_cons_self)
  | later _ _ ih =>
    apply ih
    intro declaration behind
    exact all declaration (List.mem_cons_of_mem _ behind)

/-- Declarations in order have at most one first fault. -/
theorem FirstFault.unique (first : FirstFault profile table declarations error)
    (again : FirstFault profile table declarations other) : error = other := by
  -- Both sequences pass the declarations that the table suits, and stop at the same one.
  induction first with
  | here faults =>
    cases again with
    | here faultsAgain => exact faults.unique faultsAgain
    | later accepts => exact absurd accepts faults.not_accepts
  | later accepts _ ih =>
    cases again with
    | here faults => exact absurd accepts faults.not_accepts
    | later _ behind => exact ih behind

end Faults

/-- A declaration is bound to the value that the table gives it, or fails with its fault. -/
theorem Declaration.bind_cases (declaration : Declaration) (profile : String)
    (table : Toml.Table) :
    (declaration.Accepts table ∧ ∃ value : ParameterValue,
      table.get? declaration.name = some value.raw ∧
      declaration.bind profile table = .ok value) ∨
    ∃ error, declaration.Faults profile table error ∧
      declaration.bind profile table = .error error := by
  -- The table is asked for the name first, and its value is converted second.
  unfold bind
  cases bound : table.get? declaration.name with
  | none => exact .inr ⟨_, .missing bound, rfl⟩
  | some raw =>
    -- A value that is there is converted, and a failure to do so is the declaration's fault.
    rcases declaration.type.convert_cases raw with
      ⟨conforms, value, rfl, converted⟩ | ⟨found, refuses, refused⟩
    · exact .inl ⟨⟨_, bound, conforms⟩, value, rfl, by simp only [converted]⟩
    · exact .inr ⟨_, .mismatch bound refuses, by simp only [refused]⟩

namespace ParameterSet

/-- Binding declarations in order gives each name what the table gives it, or fails with the first fault. -/
theorem bindAll_cases (profile : String) (table : Toml.Table) (declarations : List Declaration)
    (values : SortedMap ParameterValue) :
    ((∀ declaration ∈ declarations, declaration.Accepts table) ∧ ∃ bound,
      bindAll profile table declarations values = .ok bound ∧
      ∀ name, (bound.get? name).map ParameterValue.raw =
        if name ∈ declarations.map (·.name) then table.get? name
        else (values.get? name).map ParameterValue.raw) ∨
    ∃ error, FirstFault profile table declarations error ∧
      bindAll profile table declarations values = .error error := by
  -- The induction goes on over the set that the first declaration has been added to.
  induction declarations generalizing values with
  | nil => exact .inl ⟨by simp, values, rfl, by simp⟩
  | cons declaration rest ih =>
    rcases declaration.bind_cases profile table with
      ⟨accepts, value, there, given⟩ | ⟨error, faults, refused⟩
    · rcases ih (values.insert declaration.name value) with
        ⟨all, bound, binds, holds⟩ | ⟨error, behind, fails⟩
      · have bindsAll : bindAll profile table (declaration :: rest) values = .ok bound := by
          rw [bindAll, given]
          exact binds
        refine .inl ⟨List.forall_mem_cons.2 ⟨accepts, all⟩, bound, bindsAll, ?_⟩
        intro name
        rw [holds, SortedMap.get?_insert]
        by_cases again : name ∈ rest.map (·.name)
        · -- A name that is declared again is bound again, and to the same value of the table.
          simp [again]
        · by_cases own : name = declaration.name
          · subst own
            simp [again, there]
          · simp [again, own]
      · exact .inr ⟨error, .later accepts behind, by rw [bindAll, given]; exact fails⟩
    · exact .inr ⟨error, .here faults, by rw [bindAll, refused]⟩

end ParameterSet

/-- The replacement registered first for a retired name, if there is one. -/
inductive IsReplacement (aliases : List (String × String)) (retired : String) :
    Option String → Prop
  | none (unknown : ∀ pair ∈ aliases, pair.1 ≠ retired) : IsReplacement aliases retired none
  | some {before after : List (String × String)} {replacement : String}
      (first : aliases = before ++ (retired, replacement) :: after)
      (unknown : ∀ pair ∈ before, pair.1 ≠ retired) :
      IsReplacement aliases retired (some replacement)

/-- Whether a table has exactly the declared names, with a value for each declaration that conforms. -/
def Schema.Admits (schema : Schema) (table : Toml.Table) : Prop :=
  (∀ name, name ∈ table.keys ↔ name ∈ schema.names) ∧
    ∀ declaration ∈ schema.declarations, declaration.Accepts table

/-- What is wrong with a table: its least undeclared key, else the first fault of a declaration. -/
inductive Schema.Faults (schema : Schema) (profile : String) (table : Toml.Table) :
    ParameterError → Prop
  | unknown {name : String} {hint : Option String} (bound : name ∈ table.keys)
      (undeclared : name ∉ schema.names)
      (least : ∀ other ∈ table.keys, other ∉ schema.names → name ≤ other)
      (hinted : IsReplacement schema.aliases name hint) :
      Faults schema profile table (.unknown profile name hint)
  | declared {error : ParameterError} (declared : ∀ name ∈ table.keys, name ∈ schema.names)
      (first : FirstFault profile table schema.declarations error) :
      Faults schema profile table error

/-- An error without the replacement that it suggests. -/
def ParameterError.withoutHint : ParameterError → ParameterError
  | .unknown profile name _ => .unknown profile name none
  | error => error

namespace Schema

variable {schema : Schema} {name : String} {profile : String} {table : Toml.Table}

/-- A name is looked up in vain exactly if it is not declared. -/
theorem get?_isNone_iff : (schema.get? name).isNone = true ↔ name ∉ schema.names := by
  -- Looking up goes through the declarations by their names.
  simp [get?, names]

/-- A retired name has the replacement that was registered first for it. -/
theorem isReplacement_replacement? (schema : Schema) (retired : String) :
    IsReplacement schema.aliases retired (schema.replacement? retired) := by
  -- The aliases are searched from the front.
  unfold replacement?
  cases found : schema.aliases.find? (·.1 = retired) with
  | none => exact .none (by simpa using found)
  | some pair =>
    -- The search passes over the pairs of other names, so it finds the first of this one.
    obtain ⟨same, before, after, first, unknown⟩ := List.find?_eq_some_iff_append.1 found
    obtain ⟨name, replacement⟩ := pair
    obtain rfl : name = retired := by simpa using same
    exact .some first (by simpa using unknown)

/-- A retired name has one replacement at most. -/
theorem replacement?_of_isReplacement {retired : String} {hint : Option String}
    (hinted : IsReplacement schema.aliases retired hint) : hint = schema.replacement? retired := by
  -- What the search passes over are pairs of other names.
  unfold replacement?
  cases hinted with
  | none unknown => rw [List.find?_eq_none.2 (by simpa using unknown), Option.map_none]
  | some first unknown =>
    rw [first, List.find?_append, List.find?_eq_none.2 (by simpa using unknown)]
    simp

/-- A table that conforms has no fault. -/
theorem Faults.not_admits {error : ParameterError} (faults : schema.Faults profile table error) :
    ¬ schema.Admits table := by
  -- A fault is an undeclared key, or belongs to a declaration that is not accepted.
  intro admits
  obtain ⟨keys, accepts⟩ := admits
  cases faults with
  | unknown bound undeclared => exact undeclared ((keys _).1 bound)
  | declared _ first => exact first.not_accepts accepts

/-- A table has at most one fault. -/
theorem Faults.unique {error other : ParameterError} (faults : schema.Faults profile table error)
    (again : schema.Faults profile table other) : error = other := by
  -- Of two least undeclared keys each is at most the other, and their replacements are looked up.
  cases faults with
  | unknown bound undeclared least hinted =>
    cases again with
    | unknown boundAgain undeclaredAgain leastAgain hintedAgain =>
      obtain rfl := String.le_antisymm (least _ boundAgain undeclaredAgain)
        (leastAgain _ bound undeclared)
      rw [replacement?_of_isReplacement hinted, replacement?_of_isReplacement hintedAgain]
    | declared declared => exact absurd (declared _ bound) undeclared
  | declared declared first =>
    cases again with
    | unknown bound undeclared => exact absurd (declared _ bound) undeclared
    | declared _ firstAgain => exact first.unique firstAgain

end Schema

/-- The first key of a table that is not declared is the least of them. -/
theorem least_of_find?_keys {schema : Schema} {table : Toml.Table} {name : String}
    (found : table.keys.find? (fun name => (schema.get? name).isNone) = some name) :
    name ∈ table.keys ∧ name ∉ schema.names ∧
      ∀ other ∈ table.keys, other ∉ schema.names → name ≤ other := by
  -- The keys stand in order, so those behind the first one are greater, and those before are declared.
  obtain ⟨undeclared, before, after, keys, passed⟩ := List.find?_eq_some_iff_append.1 found
  have sorted : table.keys.Pairwise (· < ·) := List.pairwise_map.2 table.sorted
  rw [keys] at sorted
  refine ⟨by simp [keys], Schema.get?_isNone_iff.1 undeclared, ?_⟩
  intro other among outside
  rw [keys, List.mem_append, List.mem_cons] at among
  rcases among with earlier | rfl | later
  · -- The search has passed the keys before, so they are declared.
    have declared := passed other earlier
    simp [Schema.get?_isNone_iff.2 outside] at declared
  · exact String.le_refl other
  · have greater := (List.pairwise_cons.1 (List.pairwise_append.1 sorted).2.1).1 other later
    exact Std.le_of_lt greater

namespace ParameterSet

/-- Sets of one profile that were read from the same raw values are equal. -/
theorem ext_raw {first second : ParameterSet} (profile : first.profile = second.profile)
    (same : ∀ name, (first.get? name).map ParameterValue.raw =
      (second.get? name).map ParameterValue.raw) : first = second := by
  -- A sorted map is determined by what it answers to every name.
  have values : first.values = second.values :=
    SortedMap.ext_get? fun name =>
      Option.map_injective (fun _ _ => ParameterValue.raw_injective) (same name)
  cases first
  cases second
  simp_all

/-- A table that conforms is bound value by value, and any other fails with its fault. -/
theorem ofTable_cases (schema : Schema) (profile : String) (table : Toml.Table) :
    (schema.Admits table ∧ ∃ parameters, ofTable schema profile table = .ok parameters ∧
      parameters.profile = profile ∧
      ∀ name, (parameters.get? name).map ParameterValue.raw = table.get? name) ∨
    ∃ error, schema.Faults profile table error ∧ ofTable schema profile table = .error error := by
  -- Undeclared keys are looked for first, and then the declarations are bound in order.
  unfold ofTable
  cases found : table.keys.find? fun name => (schema.get? name).isNone with
  -- An undeclared key is told before any declaration is looked at.
  | some name =>
    obtain ⟨bound, undeclared, least⟩ := least_of_find?_keys found
    exact .inr ⟨_, .unknown bound undeclared least (schema.isReplacement_replacement? name), rfl⟩
  | none =>
    have declared : ∀ name ∈ table.keys, name ∈ schema.names := by
      intro name among
      have passed := mt Schema.get?_isNone_iff.2 (List.find?_eq_none.1 found name among)
      exact Classical.not_not.1 passed
    rcases bindAll_cases profile table schema.declarations .empty with
      ⟨accepts, bound, binds, holds⟩ | ⟨error, first, fails⟩
    · refine .inl ⟨⟨fun name => ⟨declared name, ?_⟩, accepts⟩, ⟨profile, bound⟩, by simp only [binds],
        rfl, ?_⟩
      · -- A declared name is a key, as its declaration found a value.
        intro among
        obtain ⟨declaration, member, rfl⟩ := List.mem_map.1 among
        obtain ⟨raw, there, -⟩ := accepts declaration member
        exact SortedMap.mem_keys_iff.2 ⟨raw, there⟩
      · -- A name that is not declared is bound neither in the set nor in the table.
        intro name
        rw [get?, holds, SortedMap.get?_empty, Option.map_none]
        split
        · rfl
        · rename_i outside
          cases there : table.get? name with
          | none => rfl
          | some raw =>
            exact absurd (declared name (SortedMap.mem_keys_iff.2 ⟨raw, there⟩)) outside
    · exact .inr ⟨error, .declared declared first, by simp only [fails]⟩

variable {schema : Schema} {profile : String} {table : Toml.Table}

/-- The set of a table has the names of the schema with the values of the table. -/
theorem ofTable_ok_iff {parameters : ParameterSet} :
    ofTable schema profile table = .ok parameters ↔
      schema.Admits table ∧ parameters.profile = profile ∧
        ∀ name, (parameters.get? name).map ParameterValue.raw = table.get? name := by
  -- A table that is bound conforms, and any other has a fault.
  rcases ofTable_cases schema profile table with
    ⟨admits, bound, binds, named, holds⟩ | ⟨error, faults, fails⟩
  · rw [binds, Except.ok.injEq]
    constructor
    · intro same
      subst same
      exact ⟨admits, named, holds⟩
    · intro bindsAgain
      obtain ⟨-, again, holdsAgain⟩ := bindsAgain
      -- Two sets that hold the table's values hold the same ones.
      exact ext_raw (named.trans again.symm) fun name => (holds name).trans (holdsAgain name).symm
  · simp [fails, faults.not_admits]

/-- A table fails with the fault that it has. -/
theorem ofTable_error_iff {error : ParameterError} :
    ofTable schema profile table = .error error ↔ schema.Faults profile table error := by
  -- A table that has a fault has one, and one that conforms has none.
  rcases ofTable_cases schema profile table with ⟨admits, bound, binds, -⟩ | ⟨other, faults, fails⟩
  · rw [binds]
    exact ⟨nofun, fun faults => absurd admits faults.not_admits⟩
  · rw [fails, Except.error.injEq]
    constructor
    · intro same
      subst same
      exact faults
    · exact faults.unique

/-- Retired names change nothing but the replacement that an error suggests. -/
theorem ofTable_aliases (schema : Schema) (profile : String) (table : Toml.Table)
    (aliases : List (String × String)) :
    (ofTable { schema with aliases } profile table).mapError (·.withoutHint) =
      (ofTable schema profile table).mapError (·.withoutHint) := by
  -- Neither the search for an undeclared key nor the declarations look at retired names.
  have undeclared (name : String) :
      ({ schema with aliases } : Schema).get? name = schema.get? name := rfl
  unfold ofTable
  simp only [undeclared]
  cases table.keys.find? fun name => (schema.get? name).isNone with
  | some name => rfl
  | none => rfl

/-- The order and the number of the declarations change neither the tables nor the sets. -/
theorem ofTable_declarations {other : Schema}
    (same : ∀ declaration, declaration ∈ other.declarations ↔ declaration ∈ schema.declarations)
    (parameters : ParameterSet) :
    ofTable other profile table = .ok parameters ↔ ofTable schema profile table = .ok parameters := by
  -- Which tables a schema admits is said of its declarations as a set.
  have names (name : String) : name ∈ other.names ↔ name ∈ schema.names := by
    simp only [Schema.names, List.mem_map, same]
  simp only [ofTable_ok_iff, Schema.Admits, names, same]

/--
A table is bound exactly if it conforms to the schema, without loss, and else fails with its one fault.

The keys must be the declared names and each value must conform to every declaration of its name; the
set then has exactly these names and the very values of the table. Of several faults the least
undeclared key comes first, then the declarations in order. Retired names only change the
replacement that an error suggests, and the declarations count as a set.
-/
theorem ofTable_exact (schema : Schema) (profile : String) (table : Toml.Table) :
    ((∃ parameters, ofTable schema profile table = .ok parameters) ↔ schema.Admits table) ∧
    (∀ parameters, ofTable schema profile table = .ok parameters → parameters.profile = profile ∧
      ∀ name, (parameters.get? name).map ParameterValue.raw = table.get? name) ∧
    (∀ error, ofTable schema profile table = .error error ↔ schema.Faults profile table error) ∧
    (∀ aliases, (ofTable { schema with aliases } profile table).mapError (·.withoutHint) =
      (ofTable schema profile table).mapError (·.withoutHint)) ∧
    (∀ other : Schema,
      (∀ declaration, declaration ∈ other.declarations ↔ declaration ∈ schema.declarations) →
      ∀ parameters, ofTable other profile table = .ok parameters ↔
        ofTable schema profile table = .ok parameters) := by
  -- Each part is a lemma about binding or about faults.
  refine ⟨?_, fun parameters bound => (ofTable_ok_iff.1 bound).2, fun error => ofTable_error_iff,
    ofTable_aliases schema profile table, fun other same => ofTable_declarations same⟩
  constructor
  · intro binds
    obtain ⟨parameters, bound⟩ := binds
    exact (ofTable_ok_iff.1 bound).1
  · intro admits
    -- A table that is admitted has no fault to fail with.
    rcases ofTable_cases schema profile table with ⟨-, parameters, bound, -⟩ | ⟨error, faults, -⟩
    · exact ⟨parameters, bound⟩
    · exact absurd admits faults.not_admits

end ParameterSet

end BoardConfig
