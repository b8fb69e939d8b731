/-! Declarations of the parameters that a board profile must bind. -/

namespace BoardConfig

/-- The declared type of a parameter. -/
inductive ParameterType
  /-- An unsigned integer below two to the number of bits, of which there are one to 64. -/
  | uint (bits : Nat)
  | string
  | boolean
  deriving DecidableEq, Repr

/-- The spelling of a type in messages. -/
def ParameterType.display : ParameterType → String
  | .uint bits => s!"u{bits}"
  | .string => "string"
  | .boolean => "bool"

/-- The largest value of an unsigned type whose width is one to 64 bits; others have none. -/
def ParameterType.maxValue? : ParameterType → Option UInt64
  -- The greatest value has all bits set.
  | .uint bits => if 1 ≤ bits ∧ bits ≤ 64 then some (UInt64.ofNat (Nat.pow 2 bits - 1)) else none
  | _ => none

/-- A value that a parameter is bound to. -/
inductive ParameterValue
  | uint (value : UInt64)
  | string (text : String)
  | boolean (value : Bool)
  deriving DecidableEq, Repr

/-- The short name of a value's type in mismatch messages. -/
def ParameterValue.typeName : ParameterValue → String
  | .uint _ => "integer"
  | .string _ => "string"
  | .boolean _ => "bool"

/-- A value as listings show it; text stands between quotes as it is. -/
def ParameterValue.display : ParameterValue → String
  | .uint value => toString value.toNat
  | .string text => "\"" ++ text ++ "\""
  | .boolean value => if value then "true" else "false"

/-- The declaration of one parameter. -/
structure Declaration where
  /-- The name that profiles bind. -/
  name : String
  type : ParameterType
  /-- Its unit or meaning, for readers only. -/
  doc : String
  deriving DecidableEq, Repr

/-- An ordered, closed list of declarations, with retired names and what replaced them. -/
structure Schema where
  /-- The declarations, in reporting order. -/
  declarations : List Declaration
  /-- Retired names with their replacements. -/
  aliases : List (String × String) := []
  deriving DecidableEq, Repr

namespace Schema

/-- The first declaration of a name. -/
def get? (schema : Schema) (name : String) : Option Declaration :=
  schema.declarations.find? (·.name = name)

/-- The replacement that was registered first for a retired name. -/
def replacement? (schema : Schema) (retired : String) : Option String :=
  (schema.aliases.find? (·.1 = retired)).map (·.2)

/-- The declared names, in order. -/
def names (schema : Schema) : List String :=
  schema.declarations.map (·.name)

/-- The number of declarations. -/
def size (schema : Schema) : Nat :=
  schema.declarations.length

/-- The declarations shared by every board profile. -/
def standard : Schema where
  declarations := [
    ⟨"BOARD_NAME", .string, "board identifier used in generated banners"⟩,
    ⟨"CLOCK_FREQUENCY_HZ", .uint 32, "frequency of the input clock (signal 'clk')"⟩,
    ⟨"CPU_FREQUENCY_HZ", .uint 32, "frequency the CPU runs on"⟩,
    ⟨"RAM_ADDRESS_BITWIDTH", .uint 32, "RAM address bus width in bits"⟩,
    ⟨"RAM_ADDRESSING_MODE", .uint 32,
      "bytes per address as a power of two: 0 = 1 B, 1 = 2 B, 2 = 4 B, 3 = 8 B"⟩,
    ⟨"UART_BAUD_RATE", .uint 32, "baud, 8 data bits, 1 stop bit, no parity"⟩,
    ⟨"CACHE_COLUMN_INDEX_BITWIDTH", .uint 32, "log2 of 32-bit entries per cache line"⟩,
    ⟨"CACHE_LINE_INDEX_BITWIDTH", .uint 32, "log2 of cache lines"⟩,
    ⟨"FLASH_TRANSFER_FROM_ADDRESS", .uint 32, "flash read start address"⟩,
    ⟨"FLASH_TRANSFER_BYTE_COUNT", .uint 32, "bytes copied from flash to RAM at startup"⟩,
    ⟨"STARTUP_WAIT_CYCLES", .uint 32, "cycles to wait at startup for flash to initialise"⟩]
  aliases := [("FLASH_FROM_ADDRESS", "FLASH_TRANSFER_FROM_ADDRESS")]

end Schema

end BoardConfig
