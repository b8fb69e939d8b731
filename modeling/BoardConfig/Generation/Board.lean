import BoardConfig.Artifact.Catalog
import BoardConfig.Derivation.Standard
import BoardConfig.Profile

/-! Profiles with their derived values, and the artifacts rendered from them. -/

namespace BoardConfig

/-- Why a generation run fails. -/
inductive GenerationError
  | profile (cause : ProfileError)
  | derivation (cause : DerivationError)
  /-- Artifacts cannot be rendered, besides those that were. -/
  | render (failures : List RenderError) (rendered : List Artifact)
  /-- A file cannot be compared or written, after those that were written. -/
  | write (path : Path) (written : List Path) (cause : OsError)
  deriving DecidableEq, Repr

/-- The wording of a generation error, without its cause. -/
def GenerationError.message : GenerationError → String
  | .profile cause => cause.message
  | .derivation cause => cause.message
  | .render failures rendered =>
    let messages := "; ".intercalate (failures.map (·.message))
    let names := if rendered = [] then "none" else ", ".intercalate (rendered.map (·.name))
    s!"{failures.length} artifact(s) failed to render, nothing written: {messages}; rendered: {names}"
  | .write path written _ =>
    let paths := ", ".intercalate (written.map (·.text))
    let done := if written = [] then "" else s!" (already regenerated: {paths})"
    s!"cannot write {path.text}{done}"

/-- The wording of a generation error with its cause. -/
def GenerationError.report (diagnostics : Toml.Diagnostics) (e : GenerationError) : String :=
  match e with
  | .profile cause => cause.report diagnostics
  | .write _ _ cause => s!"{e.message}: {cause.message}"
  | _ => e.message

/-- What profiles are held to. -/
structure Blueprint where
  /-- The parameters that a profile binds. -/
  schema : Schema
  /-- The values that are derived from them. -/
  rules : List Rule

/-- The blueprint shared by every board profile. -/
def Blueprint.standard : Blueprint :=
  { schema := .standard, rules := standardRules }

/-- A profile with its derived values. -/
structure Board where
  profile : Profile
  derived : DerivedValues
  deriving DecidableEq, Repr

namespace Blueprint

/-- Loads a profile and evaluates the rules over its parameters. -/
def prepare (blueprint : Blueprint) (fs : FileSystem) (directory : Path)
    (reference : ProfileReference) : Except GenerationError Board :=
  match Profile.load fs blueprint.schema directory reference with
  | .error cause => .error (.profile cause)
  | .ok profile =>
    match evaluate blueprint.rules profile.parameters with
    | .error cause => .error (.derivation cause)
    | .ok derived => .ok { profile, derived }

/-- Prepares every profile in a directory, each on its own, by name. -/
def validateAll (blueprint : Blueprint) (fs : FileSystem) (directory : Path) :
    List (String × Except GenerationError Board) :=
  (Profile.discover fs directory).entries.map fun (name, path) =>
    (name, blueprint.prepare fs directory (.file path))

end Blueprint

/-- The errors of the artifacts that cannot be rendered, and the texts of the others. -/
def renderEach (context : RenderContext) :
    List Artifact → List RenderError × List (Artifact × String)
  | [] => ([], [])
  | artifact :: rest =>
    -- The others are rendered whether this one fails or not.
    let (failures, texts) := renderEach context rest
    match artifact.template.render context with
    | .ok text => (failures, (artifact, text) :: texts)
    | .error e => (e :: failures, texts)

/-- The texts of all artifacts; every artifact is attempted before a failure is told. -/
def renderAll (context : RenderContext) : Except GenerationError (List (Artifact × String)) :=
  match renderEach context Artifact.all with
  | ([], texts) => .ok texts
  -- One failure is enough to withhold all texts.
  | (failures, texts) => .error (.render failures (texts.map (·.1)))

/-- The context in which a board's artifacts name a source. -/
def Board.context (board : Board) (source : String) : RenderContext :=
  { profile := board.profile.name
    source
    parameters := board.profile.parameters
    derived := board.derived }

end BoardConfig
