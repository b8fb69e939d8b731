import BoardConfig.Artifact.Catalog
import BoardConfig.Proofs.Derivation.AddressBounds

/-! The sizes that the rules of every board profile accept, and the powers of two derived from them. -/

namespace BoardConfig

/-- Whether a rule gives a number under a condition, and refuses its inputs in its own name otherwise. -/
structure Determines (rule : String) (accepted : Prop) (number : Nat)
    (result : Except DerivationError UInt64) : Prop where
  accepts : accepted → ∃ value, result = .ok value ∧ value.toNat = number
  refuses : ¬ accepted → ∃ detail, result = .error (.domain rule detail)

/-- Whether a parameter set binds the four sizes of memory and cache, which are exponents of two. -/
structure ParameterSet.BindsSizes (parameters : ParameterSet) (width mode column line : UInt64) :
    Prop where
  width : parameters.get? "RAM_ADDRESS_BITWIDTH" = some (.uint width)
  mode : parameters.get? "RAM_ADDRESSING_MODE" = some (.uint mode)
  column : parameters.get? "CACHE_COLUMN_INDEX_BITWIDTH" = some (.uint column)
  line : parameters.get? "CACHE_LINE_INDEX_BITWIDTH" = some (.uint line)

variable {rule : String} {width mode column line : UInt64}

/-- A condition may be told in other words. -/
theorem Determines.of_iff {accepted other : Prop} {number : Nat}
    {result : Except DerivationError UInt64} (determines : Determines rule accepted number result)
    (same : accepted ↔ other) : Determines rule other number result :=
  -- Either condition decides which of the two answers the rule gives.
  ⟨fun holds => determines.accepts (same.2 holds), fun fails => determines.refuses (mt same.1 fails)⟩

/-- A power of two fits in an address exactly if its exponent is at most 31. -/
theorem two_pow_lt_address_iff {exponent : Nat} : 2 ^ exponent < 2 ^ addressBits ↔ exponent ≤ 31 := by
  -- An address has 32 bits, and powers of two grow with their exponents.
  rw [Nat.pow_lt_pow_iff_right (by decide)]
  exact Nat.lt_succ_iff

/-- The product of two words is exact unless it overflows, and then it is larger than any address. -/
theorem checkedMul_cases (a b : UInt64) :
    (∃ product, checkedMul a b = some product ∧ product.toNat = a.toNat * b.toNat) ∨
      (checkedMul a b = none ∧ 2 ^ addressBits ≤ a.toNat * b.toNat) := by
  -- The product of the numbers decides: below the size of a word it is the word's own.
  unfold checkedMul
  by_cases small : a.toNat * b.toNat < UInt64.size
  · have exact : (a * b).toNat = a.toNat * b.toNat := by
      rw [UInt64.toNat_mul]
      exact Nat.mod_eq_of_lt small
    exact .inl ⟨a * b, if_pos small, exact⟩
  · -- An address is narrower than a word, so what overflows a word is past all addresses.
    have large : 2 ^ addressBits ≤ UInt64.size := by decide
    exact .inr ⟨if_neg small, Nat.le_trans large (Nat.le_of_not_lt small)⟩

namespace RuleInputs

/-- The first input is found by its name. -/
theorem get_first (rule name : String) (value : UInt64) (rest : List (String × UInt64)) :
    get ⟨rule, (name, value) :: rest⟩ name = .ok value := by
  -- The inputs are looked up from the front.
  simp [get, findEntry]

/-- The second input is found by its name, which is another one than that of the first. -/
theorem get_second (rule : String) {first second : String} (different : second ≠ first)
    (value other : UInt64) : get ⟨rule, [(first, value), (second, other)]⟩ second = .ok other := by
  -- The look-up passes over the first input, whose name is another one.
  simp [get, findEntry, different]

/-- A power of two is given exactly if it fits in an address. -/
theorem powerOfTwo_determines (inputs : RuleInputs) (exponent : UInt64) :
    Determines inputs.rule (exponent.toNat ≤ 31) (2 ^ exponent.toNat) (inputs.powerOfTwo exponent) := by
  -- The check compares the exponent with the width of an address.
  constructor
  · intro small
    have fits : exponent.toNat < addressBits := Nat.lt_succ_of_le small
    have given : inputs.powerOfTwo exponent = .ok (UInt64.ofNat (Nat.pow 2 exponent.toNat)) :=
      if_pos fits
    exact ⟨_, given, powerOfTwo_ok given⟩
  · intro large
    have wide : ¬ exponent.toNat < addressBits := fun fits => large (Nat.le_of_lt_succ fits)
    exact ⟨_, if_neg wide⟩

/-- A product is given exactly if it fits in an address, whether or not it overflows a word. -/
theorem fitAddress_determines (inputs : RuleInputs) (a b : UInt64) :
    Determines inputs.rule (a.toNat * b.toNat < 2 ^ addressBits) (a.toNat * b.toNat)
      (inputs.fitAddress (checkedMul a b)) := by
  -- What the multiplication gives is exact, or past all addresses.
  rcases checkedMul_cases a b with ⟨product, computed, exact⟩ | ⟨overflow, large⟩
  · rw [computed, ← exact]
    exact ⟨fun fits => ⟨product, if_pos fits, rfl⟩, fun wide => ⟨_, if_neg wide⟩⟩
  · rw [overflow]
    exact ⟨fun fits => absurd fits (Nat.not_lt.2 large), fun _ => ⟨_, rfl⟩⟩

end RuleInputs

open RuleInputs

/-- The bytes per address are two to the mode, which is at most 3. -/
theorem ramWordBytes_determines (rule : String) (mode : UInt64) :
    Determines rule (mode.toNat ≤ 3) (2 ^ mode.toNat)
      (ramWordBytes ⟨rule, [("RAM_ADDRESSING_MODE", mode)]⟩) := by
  -- The rule compares the mode first, and a small mode is a small exponent too.
  have power := powerOfTwo_determines ⟨rule, [("RAM_ADDRESSING_MODE", mode)]⟩ mode
  unfold ramWordBytes
  rw [get_first]
  simp only [Bind.bind, Except.bind]
  constructor
  · intro small
    rw [if_neg (Nat.not_lt.2 small)]
    exact power.accepts (by omega)
  · intro large
    rw [if_pos (Nat.lt_of_not_le large)]
    exact ⟨_, rfl⟩

/-- The end of memory is two to the sum of width and mode, which is at most 31. -/
theorem memoryEndAddress_determines (rule : String) (width mode : UInt64) :
    Determines rule (width.toNat + mode.toNat ≤ 31) (2 ^ (width.toNat + mode.toNat))
      (memoryEndAddress ⟨rule, [("RAM_ADDRESS_BITWIDTH", width), ("RAM_ADDRESSING_MODE", mode)]⟩) := by
  -- The rule adds the two exponents and raises two to the sum.
  unfold memoryEndAddress
  rw [get_first, get_second rule (by decide)]
  simp only [Bind.bind, Except.bind]
  cases sum : checkedAdd width mode with
  | some exponent =>
    -- A sum that fits a word is exact, so the power decides alone.
    rw [← checkedAdd_ok sum]
    exact powerOfTwo_determines
      ⟨rule, [("RAM_ADDRESS_BITWIDTH", width), ("RAM_ADDRESSING_MODE", mode)]⟩ exponent
  | none =>
    -- A sum that overflows a word is no exponent of an address.
    have overflow : ¬ width.toNat + mode.toNat < UInt64.size := by
      intro small
      simp [checkedAdd, small] at sum
    have large : 31 < UInt64.size := by decide
    exact ⟨fun small => by omega, fun _ => ⟨_, rfl⟩⟩

/-- The bytes of a cache line are two to the column width and two more, which are at most 31. -/
theorem cacheLineBytes_determines (rule : String) (column : UInt64) :
    Determines rule (column.toNat + 2 ≤ 31) (2 ^ (column.toNat + 2))
      (cacheLineBytes ⟨rule, [("CACHE_COLUMN_INDEX_BITWIDTH", column)]⟩) := by
  -- Four is two squared, so a product by four is a power with two more in its exponent.
  have power := powerOfTwo_determines ⟨rule, [("CACHE_COLUMN_INDEX_BITWIDTH", column)]⟩ column
  unfold cacheLineBytes
  rw [get_first]
  simp only [Bind.bind, Except.bind]
  by_cases small : column.toNat ≤ 31
  · -- The entries are counted, and their bytes are what has to fit.
    obtain ⟨entries, given, exact⟩ := power.accepts small
    have number : entries.toNat * cacheEntryBytes.toNat = 2 ^ (column.toNat + 2) := by
      rw [exact, Nat.pow_add]
      rfl
    have fitted := fitAddress_determines ⟨rule, [("CACHE_COLUMN_INDEX_BITWIDTH", column)]⟩ entries
      cacheEntryBytes
    rw [number] at fitted
    rw [given]
    exact fitted.of_iff two_pow_lt_address_iff
  · -- An exponent that is too large by itself is so with two more.
    obtain ⟨detail, refused⟩ := power.refuses small
    rw [refused]
    exact ⟨fun fits => by omega, fun _ => ⟨detail, rfl⟩⟩

/-- The bytes of the cache are those of a line times two to the line width, which fit in an address. -/
theorem cacheSizeBytes_determines (rule : String) {bytes : UInt64} {exponent : Nat}
    (power : bytes.toNat = 2 ^ exponent) (line : UInt64) :
    Determines rule (exponent + line.toNat ≤ 31) (2 ^ (exponent + line.toNat))
      (cacheSizeBytes ⟨rule, [("cache_line_bytes", bytes), ("CACHE_LINE_INDEX_BITWIDTH", line)]⟩) := by
  -- A product of two powers of two is the power of the sum.
  have count := powerOfTwo_determines
    ⟨rule, [("cache_line_bytes", bytes), ("CACHE_LINE_INDEX_BITWIDTH", line)]⟩ line
  unfold cacheSizeBytes
  rw [get_first, get_second rule (by decide)]
  simp only [Bind.bind, Except.bind]
  by_cases small : line.toNat ≤ 31
  · -- The lines are counted, and the bytes of all are what has to fit.
    obtain ⟨lines, given, exact⟩ := count.accepts small
    have number : bytes.toNat * lines.toNat = 2 ^ (exponent + line.toNat) := by
      rw [power, exact, Nat.pow_add]
    have fitted := fitAddress_determines
      ⟨rule, [("cache_line_bytes", bytes), ("CACHE_LINE_INDEX_BITWIDTH", line)]⟩ bytes lines
    rw [number] at fitted
    rw [given]
    exact fitted.of_iff two_pow_lt_address_iff
  · -- Too many lines are too many whatever their size is.
    obtain ⟨detail, refused⟩ := count.refuses small
    rw [refused]
    exact ⟨fun fits => by omega, fun _ => ⟨detail, rfl⟩⟩

/-- A rule that determines a number ends the evaluation, or binds the number for the rules behind it. -/
theorem evaluateInOrder_cons_cases {parameters : ParameterSet} {derived : DerivedValues} (first : Rule)
    {values : List (String × UInt64)} {accepted : Prop} {number : Nat}
    (given : inputValues parameters derived first.output first.inputs = .ok values)
    (determines : Determines first.output accepted number (first.compute ⟨first.output, values⟩)) :
    (¬ accepted ∧ ∃ detail, ∀ rest,
      evaluateInOrder parameters (first :: rest) derived = .error (.domain first.output detail)) ∨
    (accepted ∧ ∃ value, value.toNat = number ∧ ∀ rest,
      evaluateInOrder parameters (first :: rest) derived =
        evaluateInOrder parameters rest (derived.insert first.output value)) := by
  -- The inputs have values, so the rule's computation alone decides how evaluation goes on.
  have evaluated : first.evaluate parameters derived = first.compute ⟨first.output, values⟩ := by
    simp only [Rule.evaluate, given]
  simp only [evaluateInOrder, evaluated]
  by_cases holds : accepted
  · -- An accepted input has the value bound, over which the other rules are evaluated.
    obtain ⟨value, computed, exact⟩ := determines.accepts holds
    rw [computed]
    exact .inr ⟨holds, value, exact, fun _ => rfl⟩
  · -- A refusal is told with the rule's name, and no other rule is looked at.
    obtain ⟨detail, refused⟩ := determines.refuses holds
    rw [refused]
    exact .inl ⟨holds, detail, fun _ => rfl⟩

/-- Whether sizes are those of a memory and a cache that an address reaches. -/
def SizesFit (width mode column line : Nat) : Prop :=
  mode ≤ 3 ∧ width + mode ≤ 31 ∧ column + line + 2 ≤ 31

/-- The first rule that refuses sizes which do not fit; the last one does if no other does. -/
def refusingRule (width mode column : Nat) : String :=
  if 3 < mode then "ram_word_bytes"
  else if 31 < width + mode then "memory_end_address"
  else if 31 < column + 2 then "cache_line_bytes"
  else "cache_size_bytes"

/-- The numbers that are derived from sizes which fit, in name order. -/
def derivedSizes (width mode column line : Nat) : List (String × Nat) :=
  [("cache_line_bytes", 2 ^ (column + 2)), ("cache_size_bytes", 2 ^ (column + line + 2)),
    ("memory_end_address", 2 ^ (width + mode)), ("ram_word_bytes", 2 ^ mode)]

/-- Derived values as numbers, in name order. -/
def DerivedValues.numbers (derived : DerivedValues) : List (String × Nat) :=
  derived.entries.map fun (name, value) => (name, value.toNat)

/-- The rules of every board profile derive powers of two, unless one of them refuses the sizes. -/
theorem evaluate_standardRules_cases {parameters : ParameterSet}
    (sizes : parameters.BindsSizes width mode column line) :
    (¬ SizesFit width.toNat mode.toNat column.toNat line.toNat ∧ ∃ detail,
      evaluate standardRules parameters =
        .error (.domain (refusingRule width.toNat mode.toNat column.toNat) detail)) ∨
    (SizesFit width.toNat mode.toNat column.toNat line.toNat ∧ ∃ derived,
      evaluate standardRules parameters = .ok derived ∧
        derived.numbers = derivedSizes width.toNat mode.toNat column.toNat line.toNat) := by
  -- The rules stand in an order that may be evaluated as it is.
  have inOrder : evaluate standardRules parameters =
      evaluateInOrder parameters standardRules .empty := by
    rw [evaluate, evaluationOrder_standardRules]
    rfl
  rw [inOrder, standardRules]
  unfold SizesFit refusingRule
  -- What has been derived hides none of the four parameters.
  have readWord : inputValues parameters .empty "ram_word_bytes" ["RAM_ADDRESSING_MODE"] =
      .ok [("RAM_ADDRESSING_MODE", mode)] := by
    simp [inputValues, inputValue, sizes.mode]
  have readMemory (word : UInt64) : inputValues parameters (SortedMap.empty.insert "ram_word_bytes" word)
      "memory_end_address" ["RAM_ADDRESS_BITWIDTH", "RAM_ADDRESSING_MODE"] =
      .ok [("RAM_ADDRESS_BITWIDTH", width), ("RAM_ADDRESSING_MODE", mode)] := by
    simp [inputValues, inputValue, SortedMap.get?_insert, sizes.width, sizes.mode]
  have readLine (word memoryEnd : UInt64) : inputValues parameters
      ((SortedMap.empty.insert "ram_word_bytes" word).insert "memory_end_address" memoryEnd)
      "cache_line_bytes" ["CACHE_COLUMN_INDEX_BITWIDTH"] =
      .ok [("CACHE_COLUMN_INDEX_BITWIDTH", column)] := by
    simp [inputValues, inputValue, SortedMap.get?_insert, sizes.column]
  have readCache (word memoryEnd lineBytes : UInt64) : inputValues parameters
      (((SortedMap.empty.insert "ram_word_bytes" word).insert "memory_end_address"
        memoryEnd).insert "cache_line_bytes" lineBytes)
      "cache_size_bytes" ["cache_line_bytes", "CACHE_LINE_INDEX_BITWIDTH"] =
      .ok [("cache_line_bytes", lineBytes), ("CACHE_LINE_INDEX_BITWIDTH", line)] := by
    simp [inputValues, inputValue, SortedMap.get?_insert, sizes.line]
  -- The first rule that refuses its inputs ends the evaluation.
  rcases evaluateInOrder_cons_cases ⟨_, _, ramWordBytes⟩ readWord (ramWordBytes_determines _ mode) with
    ⟨large, detail, refused⟩ | ⟨modeFits, wordBytes, word, onwards⟩
  · refine .inl ⟨fun fits => large fits.1, detail, ?_⟩
    rw [refused, if_pos (Nat.lt_of_not_le large)]
  rw [onwards, if_neg (Nat.not_lt.2 modeFits)]
  rcases evaluateInOrder_cons_cases ⟨_, _, memoryEndAddress⟩ (readMemory wordBytes)
      (memoryEndAddress_determines _ width mode) with
    ⟨large, detail, refused⟩ | ⟨memoryFits, memoryEnd, memory, onwards⟩
  · refine .inl ⟨fun fits => large fits.2.1, detail, ?_⟩
    rw [refused, if_pos (Nat.lt_of_not_le large)]
  rw [onwards, if_neg (Nat.not_lt.2 memoryFits)]
  rcases evaluateInOrder_cons_cases ⟨_, _, cacheLineBytes⟩ (readLine wordBytes memoryEnd)
      (cacheLineBytes_determines _ column) with
    ⟨large, detail, refused⟩ | ⟨lineFits, lineBytes, lines, onwards⟩
  · refine .inl ⟨fun fits => by omega, detail, ?_⟩
    rw [refused, if_pos (Nat.lt_of_not_le large)]
  rw [onwards, if_neg (Nat.not_lt.2 lineFits)]
  rcases evaluateInOrder_cons_cases ⟨_, _, cacheSizeBytes⟩ (readCache wordBytes memoryEnd lineBytes)
      (cacheSizeBytes_determines _ lines line) with
    ⟨large, detail, refused⟩ | ⟨cacheFits, cacheBytes, cache, onwards⟩
  · refine .inl ⟨fun fits => by omega, detail, ?_⟩
    rw [refused]
  · -- All four have accepted, and each value is the power that its rule determines.
    refine .inr ⟨⟨modeFits, memoryFits, by omega⟩, _, onwards [], ?_⟩
    have exponents : column.toNat + 2 + line.toNat = column.toNat + line.toNat + 2 := by omega
    rw [derivedSizes, ← word, ← memory, ← lines, ← exponents, ← cache]
    rfl

/-- A derived value is found as the number that it has. -/
theorem DerivedValues.findEntry_numbers (derived : DerivedValues) (name : String) :
    findEntry name derived.numbers = (derived.get? name).map UInt64.toNat := by
  -- Numbers stand where the values do, under the same names.
  unfold numbers SortedMap.get?
  induction derived.entries with
  | nil => rfl
  | cons entry rest ih => by_cases atHead : name = entry.1 <;> simp [findEntry, atHead, ih]

/-- Numbers that are derived from sizes which fit are those of addresses. -/
theorem lt_of_mem_derivedSizes {width mode column line : Nat} (fits : SizesFit width mode column line)
    {named : String × Nat} (among : named ∈ derivedSizes width mode column line) :
    named.2 < 2 ^ addressBits := by
  -- Each number is a power of two, whose exponent the sizes keep at 31 or below.
  obtain ⟨modeFits, memoryFits, cacheFits⟩ := fits
  simp only [derivedSizes, List.mem_cons, List.not_mem_nil, or_false] at among
  rcases among with rfl | rfl | rfl | rfl <;> (apply two_pow_lt_address_iff.2; omega)

/-- The registers of the hardware are above the largest memory. -/
theorem memoryMap_above : ∀ register ∈ memoryMap, 2 ^ 31 < register.address.toNat := by
  -- The registers are a few fixed addresses.
  decide

/--
The rules of every board profile derive exact powers of two, from all sizes that an address reaches.

Sums, products and shifts never wrap around: whatever is too large is refused, by the first rule in
declared order that finds it so. The memory ends below the registers of the hardware.
-/
theorem evaluate_standardRules_exact {parameters : ParameterSet}
    (sizes : parameters.BindsSizes width mode column line) :
    ((∃ derived, evaluate standardRules parameters = .ok derived) ↔
      SizesFit width.toNat mode.toNat column.toNat line.toNat) ∧
    (∀ derived, evaluate standardRules parameters = .ok derived →
      derived.numbers = derivedSizes width.toNat mode.toNat column.toNat line.toNat ∧
      (∀ named ∈ derived.numbers, named.2 < 2 ^ 32) ∧
      ∃ memoryEnd, derived.get? "memory_end_address" = some memoryEnd ∧
        memoryEnd.toNat = 2 ^ (width.toNat + mode.toNat) ∧
        ∀ register ∈ memoryMap, memoryEnd.toNat < register.address.toNat) ∧
    (¬ SizesFit width.toNat mode.toNat column.toNat line.toNat → ∃ detail,
      evaluate standardRules parameters =
        .error (.domain (refusingRule width.toNat mode.toNat column.toNat) detail)) := by
  -- The rules refuse the sizes or derive the numbers, and both cannot happen at once.
  rcases evaluate_standardRules_cases sizes with
    ⟨large, detail, refused⟩ | ⟨fits, derived, evaluated, numbers⟩
  · rw [refused]
    refine ⟨⟨?_, fun fits => absurd fits large⟩, ?_, fun _ => ⟨detail, rfl⟩⟩
    · intro accepted
      obtain ⟨derived, impossible⟩ := accepted
      cases impossible
    · intro derived impossible
      cases impossible
  · rw [evaluated]
    refine ⟨⟨fun _ => fits, fun _ => ⟨derived, rfl⟩⟩, ?_, fun large => absurd fits large⟩
    intro same equal
    cases equal
    -- The end of memory is the number that stands under its name.
    have found := derived.findEntry_numbers "memory_end_address"
    rw [numbers] at found ⊢
    obtain ⟨memoryEnd, bound, exact⟩ := Option.map_eq_some_iff.1 found.symm
    refine ⟨rfl, fun named => lt_of_mem_derivedSizes fits, memoryEnd, bound, exact, ?_⟩
    intro register among
    -- The largest memory ends at two to 31, below every register.
    have within : memoryEnd.toNat ≤ 2 ^ 31 := by
      rw [exact]
      exact Nat.pow_le_pow_right (by decide) fits.2.1
    exact Nat.lt_of_le_of_lt within (memoryMap_above register among)

/-- Parameters that bind the sizes of a memory and a cache. -/
def sizeParameters (width mode column line : UInt64) : ParameterSet where
  profile := "p"
  values := .ofList [("RAM_ADDRESS_BITWIDTH", .uint width), ("RAM_ADDRESSING_MODE", .uint mode),
    ("CACHE_COLUMN_INDEX_BITWIDTH", .uint column), ("CACHE_LINE_INDEX_BITWIDTH", .uint line)]

/-- The four sizes are bound whatever words they are. -/
theorem bindsSizes_sizeParameters (width mode column line : UInt64) :
    (sizeParameters width mode column line).BindsSizes width mode column line := by
  constructor <;> rfl

/-- The largest memory and cache are accepted; a width and a mode whose sum overflows a word are refused. -/
theorem evaluate_standardRules_exact_sample :
    (sizeParameters 28 3 19 10).BindsSizes 28 3 19 10 ∧
    (∃ derived, evaluate standardRules (sizeParameters 28 3 19 10) = .ok derived) ∧
    ∃ detail, evaluate standardRules (sizeParameters 18446744073709551615 3 19 10) =
      .error (.domain "memory_end_address" detail) := by
  have largest := bindsSizes_sizeParameters 28 3 19 10
  have wide := bindsSizes_sizeParameters 18446744073709551615 3 19 10
  refine ⟨largest, ?_, ?_⟩
  · apply (evaluate_standardRules_exact largest).1.2
    unfold SizesFit
    decide
  · apply (evaluate_standardRules_exact wide).2.2
    unfold SizesFit
    decide

end BoardConfig
