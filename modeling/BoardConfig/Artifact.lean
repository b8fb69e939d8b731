/-! The four generated files. -/

namespace BoardConfig

/-- A generated file. -/
inductive Artifact
  /-- The assembly entry point that sets the stack pointer. -/
  | bootStub
  /-- The firmware's header of macros. -/
  | nativeHeader
  /-- The emulator's header of constants in a namespace. -/
  | nativeNamespace
  /-- The hardware description's package of parameters. -/
  | hdlPackage
  deriving DecidableEq, Repr

namespace Artifact

/-- Every artifact, in the order in which they are rendered and written. -/
def all : List Artifact :=
  [.bootStub, .nativeHeader, .nativeNamespace, .hdlPackage]

/-- Every artifact is among all. -/
theorem mem_all (artifact : Artifact) : artifact ∈ Artifact.all := by
  -- The list names the artifacts one by one, so each of them is looked up in it.
  cases artifact <;> decide

/-- The name of an artifact in manifests, messages and reports. -/
def name : Artifact → String
  | .bootStub => "boot-stub"
  | .nativeHeader => "native-header"
  | .nativeNamespace => "native-namespace"
  | .hdlPackage => "hdl-package"

/-- The artifact of a name. -/
def ofName? (text : String) : Option Artifact :=
  all.find? (·.name = text)

/-- Where an artifact goes below the project root unless told otherwise. -/
def defaultPath : Artifact → String
  | .bootStub => "os/src/os_start.S"
  | .nativeHeader => "os/src/os_config.hpp"
  | .nativeNamespace => "emulator/src/main_config.hpp"
  | .hdlPackage => "src/configuration.sv"

end Artifact

end BoardConfig
