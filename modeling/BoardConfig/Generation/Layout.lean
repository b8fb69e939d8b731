import BoardConfig.Artifact
import BoardConfig.Path

/-! Where the artifacts of a project go. -/

namespace BoardConfig

/-- The places of the artifacts. -/
structure Layout where
  root : Path
  /-- Places other than the usual ones, the newest first. -/
  overrides : List (Artifact × Path) := []
  deriving DecidableEq, Repr

namespace Layout

/-- Places an artifact elsewhere; a relative path starts at the root. -/
def withOverride (layout : Layout) (artifact : Artifact) (path : Path) : Layout :=
  { layout with overrides := (artifact, path) :: layout.overrides }

/-- The path of an artifact. -/
def path (layout : Layout) (artifact : Artifact) : Path :=
  -- An override that is absolute leaves the root.
  layout.root.join ((layout.overrides.lookup artifact).getD ⟨artifact.defaultPath⟩)

end Layout

end BoardConfig
