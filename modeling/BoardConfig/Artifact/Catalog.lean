import BoardConfig.Template

/-! The templates of the four artifacts. -/

namespace BoardConfig

/-- The width in bits of every value in the artifacts. -/
def wordBits : Nat := 32

/-- A register of the hardware at a fixed memory address. -/
structure MappedRegister where
  /-- Its macro in the firmware's header. -/
  macroName : String
  /-- Its constant in the emulator's header. -/
  constantName : String
  address : UInt64
  deriving DecidableEq, Repr

/-- The registers at the top of the address space. -/
def memoryMap : List MappedRegister := [
  ⟨"LED", "led", 0xffffffff⟩,
  ⟨"UART_OUT", "uart_out", 0xfffffffe⟩,
  ⟨"UART_IN", "uart_in", 0xfffffffd⟩]

/-- The end of memory as a literal of a style. -/
def memoryEndSegment (style : LiteralStyle) : Segment :=
  .value "memory_end_address" (.derived "memory_end_address") style wordBits

/-- The boot stub: the stack starts at the end of memory. -/
def bootStubTemplate : Template where
  artifact := .bootStub
  comment := "#"
  segments := [
    .text ".global _start\n",
    .text "_start:\n",
    .text "    li sp, ", memoryEndSegment .asmHex, .text "\n",
    .text "    j run\n"]

/-- The firmware's header: a macro for each register and for the end of memory. -/
def nativeHeaderTemplate : Template where
  artifact := .nativeHeader
  comment := "//"
  segments :=
    [.text "#pragma once\n"] ++
    memoryMap.flatMap (fun register => [
      .text "#define ", .text register.macroName, .text " ((char volatile *)",
      .value register.macroName (.constant register.address) .cHex wordBits,
      .text ")\n"]) ++
    [.text "#define MEMORY_END ", memoryEndSegment .cHex, .text "\n"]

/-- The emulator's header: a constant for each register and for the end of memory. -/
def nativeNamespaceTemplate : Template where
  artifact := .nativeNamespace
  comment := "//"
  segments :=
    [.text "#pragma once\n", .text "#include <cstdint>\n\n", .text "namespace osqa \x7b\n\n",
      .text "// memory map\n"] ++
    memoryMap.flatMap (fun register => [
      .text "std::uint32_t constexpr ", .text register.constantName, .text " = ",
      .value register.constantName (.constant register.address) .cHex wordBits,
      .text ";\n"]) ++
    [.text "std::uint32_t constexpr memory_end = ", memoryEndSegment .cHex, .text ";\n",
      .text "\n\x7d // namespace osqa\n"]

/-- The parameters of the hardware package: name, source and style of each. -/
def hardwareParameters : List (String × Source × LiteralStyle) := [
  ("CLOCK_FREQUENCY_HZ", .parameter "CLOCK_FREQUENCY_HZ", .decimal),
  ("CPU_FREQUENCY_HZ", .parameter "CPU_FREQUENCY_HZ", .decimal),
  ("RAM_ADDRESS_BITWIDTH", .parameter "RAM_ADDRESS_BITWIDTH", .decimal),
  ("RAM_ADDRESSING_MODE", .parameter "RAM_ADDRESSING_MODE", .decimal),
  ("CACHE_COLUMN_INDEX_BITWIDTH", .parameter "CACHE_COLUMN_INDEX_BITWIDTH", .decimal),
  ("CACHE_LINE_INDEX_BITWIDTH", .parameter "CACHE_LINE_INDEX_BITWIDTH", .decimal),
  ("UART_BAUD_RATE", .parameter "UART_BAUD_RATE", .decimal),
  ("FLASH_TRANSFER_FROM_ADDRESS", .parameter "FLASH_TRANSFER_FROM_ADDRESS", .sizedHex),
  ("FLASH_TRANSFER_BYTE_COUNT", .parameter "FLASH_TRANSFER_BYTE_COUNT", .sizedHex),
  ("STARTUP_WAIT_CYCLES", .parameter "STARTUP_WAIT_CYCLES", .decimal),
  ("MEMORY_END_ADDRESS", .derived "memory_end_address", .sizedHex)]

/-- The hardware description's package: one parameter a line. -/
def hdlPackageTemplate : Template where
  artifact := .hdlPackage
  comment := "//"
  segments :=
    [.text "\n", .text "package configuration;\n\n"] ++
    hardwareParameters.flatMap (fun (name, source, style) => [
      .text "  parameter int unsigned ", .text name, .text " = ",
      .value name source style wordBits,
      .text ";\n"]) ++
    [.text "\nendpackage\n"]

/-- The template of an artifact. -/
def Artifact.template : Artifact → Template
  | .bootStub => bootStubTemplate
  | .nativeHeader => nativeHeaderTemplate
  | .nativeNamespace => nativeNamespaceTemplate
  | .hdlPackage => hdlPackageTemplate

end BoardConfig
