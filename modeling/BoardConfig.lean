import BoardConfig.FileSystem.Lookup
import BoardConfig.Main
import BoardConfig.Path.Pieces
import BoardConfig.SortedMap.Lookup
import BoardConfig.Proofs.FileSystem.Growth
import BoardConfig.Proofs.FileSystem.Replacement
import BoardConfig.Proofs.Generation.Turns
import BoardConfig.Proofs.Generation.Failure
import BoardConfig.Proofs.Generation.Repetition
import BoardConfig.Proofs.Literal
import BoardConfig.Proofs.Text.Lines
import BoardConfig.Proofs.Artifact.Lines
import BoardConfig.Proofs.Artifact.Literals
import BoardConfig.Proofs.Derivation.MemoryEnd
import BoardConfig.Proofs.Profile.Parameters
import BoardConfig.Proofs.Generation.Fidelity
import BoardConfig.Proofs.Artifact.Distinct
import BoardConfig.Proofs.Generation.Overwriting
import BoardConfig.Proofs.Derivation.Dependence
import BoardConfig.Proofs.Derivation.Placement
import BoardConfig.Proofs.Derivation.Order
import BoardConfig.Proofs.Derivation.Equations
import BoardConfig.Proofs.Derivation.Solution
import BoardConfig.Proofs.FileSystem.Beside
import BoardConfig.Proofs.Profile.Overriding
import BoardConfig.Proofs.Derivation.AddressBounds
import BoardConfig.Proofs.Generation.Availability
import BoardConfig.Proofs.Command.Validation
import BoardConfig.Proofs.Text.Numeral
import BoardConfig.Proofs.Literal.Grammar
import BoardConfig.Proofs.Literal.Agreement
import BoardConfig.Proofs.Profile.Walk
import BoardConfig.Proofs.Profile.Detour
import BoardConfig.Proofs.Generation.Banner
import BoardConfig.Proofs.ParameterSet.Conformance
import BoardConfig.Proofs.Generation.Influence
import BoardConfig.Proofs.Path.Joining
import BoardConfig.Proofs.FileSystem.Alike
import BoardConfig.Proofs.Profile.Counterparts
import BoardConfig.Proofs.FileSystem.AlikeUpdate
import BoardConfig.Proofs.Generation.Relocation
import BoardConfig.Proofs.Command.Selection
import BoardConfig.Proofs.Derivation.Footprint
import BoardConfig.Proofs.Derivation.Rearrangement
import BoardConfig.Proofs.Derivation.Domain
import BoardConfig.Proofs.FileSystem.SameDirectories
import BoardConfig.Proofs.Profile.Discovery
import BoardConfig.Proofs.Command.EveryProfile
import BoardConfig.Proofs.Literal.Writing
import BoardConfig.Proofs.Literal.Variants
import BoardConfig.Proofs.Generation.Renderability
import BoardConfig.Proofs.Template.Resolution
import BoardConfig.Proofs.FileSystem.ConditionalWrite
import BoardConfig.Proofs.Template.Composition
import BoardConfig.Proofs.ParameterSet.Width
import BoardConfig.Proofs.Path.Ancestors
import BoardConfig.Proofs.FileSystem.Standpoint
import BoardConfig.Proofs.Generation.Standpoint
import BoardConfig.Proofs.Command.Standpoint
import BoardConfig.Proofs.Command.Nearest
import BoardConfig.Proofs.Command.Naming
import BoardConfig.Proofs.Derivation.Releases
