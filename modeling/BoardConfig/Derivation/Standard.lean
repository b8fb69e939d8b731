import BoardConfig.Derivation.Evaluation

/-! The rules shared by every board profile. -/

namespace BoardConfig

/-- The bytes of one cache entry, a word of 32 bits. -/
def cacheEntryBytes : UInt64 := 4

/-- The sum of two words, unless it overflows. -/
def checkedAdd (a b : UInt64) : Option UInt64 :=
  if a.toNat + b.toNat < UInt64.size then some (a + b) else none

/-- The product of two words, unless it overflows. -/
def checkedMul (a b : UInt64) : Option UInt64 :=
  if a.toNat * b.toNat < UInt64.size then some (a * b) else none

/-- A result that must fit in an address. -/
def RuleInputs.fitAddress (inputs : RuleInputs) (value : Option UInt64) :
    Except DerivationError UInt64 :=
  let tooWide := inputs.refuse s!"result does not fit in a {addressBits}-bit address"
  -- A product that overflows does not fit either.
  match value with
  | some value => if value.toNat < Nat.pow 2 addressBits then .ok value else .error tooWide
  | none => .error tooWide

/-- The bytes per memory address. -/
def ramWordBytes (inputs : RuleInputs) : Except DerivationError UInt64 := do
  let mode ← inputs.get "RAM_ADDRESSING_MODE"
  if 3 < mode.toNat then
    throw (inputs.refuse
      s!"RAM_ADDRESSING_MODE must be 0..=3 (1 to 8 bytes per address), got {mode.toNat}")
  inputs.powerOfTwo mode

/-- The first address past the end of memory, where the stack starts. -/
def memoryEndAddress (inputs : RuleInputs) : Except DerivationError UInt64 := do
  let width ← inputs.get "RAM_ADDRESS_BITWIDTH"
  let mode ← inputs.get "RAM_ADDRESSING_MODE"
  -- The sum of two words is checked before it is an exponent.
  match checkedAdd width mode with
  | some exponent => inputs.powerOfTwo exponent
  | none => throw (inputs.refuse "address exponent overflows")

/-- The bytes of one cache line. -/
def cacheLineBytes (inputs : RuleInputs) : Except DerivationError UInt64 := do
  let entries ← inputs.powerOfTwo (← inputs.get "CACHE_COLUMN_INDEX_BITWIDTH")
  inputs.fitAddress (checkedMul entries cacheEntryBytes)

/-- The bytes of the whole cache. -/
def cacheSizeBytes (inputs : RuleInputs) : Except DerivationError UInt64 := do
  let line ← inputs.get "cache_line_bytes"
  let lines ← inputs.powerOfTwo (← inputs.get "CACHE_LINE_INDEX_BITWIDTH")
  inputs.fitAddress (checkedMul line lines)

/-- The rules shared by every board profile, in declared order. -/
def standardRules : List Rule := [
  ⟨"ram_word_bytes", ["RAM_ADDRESSING_MODE"], ramWordBytes⟩,
  ⟨"memory_end_address", ["RAM_ADDRESS_BITWIDTH", "RAM_ADDRESSING_MODE"], memoryEndAddress⟩,
  ⟨"cache_line_bytes", ["CACHE_COLUMN_INDEX_BITWIDTH"], cacheLineBytes⟩,
  ⟨"cache_size_bytes", ["cache_line_bytes", "CACHE_LINE_INDEX_BITWIDTH"], cacheSizeBytes⟩]

end BoardConfig
