import BoardConfig.Artifact
import BoardConfig.Derivation.Rule
import BoardConfig.Literal

/-! Texts with values in them. -/

namespace BoardConfig

/-- Where a value of a template comes from. -/
inductive Source
  | parameter (name : String)
  | derived (name : String)
  | constant (value : UInt64)
  deriving DecidableEq, Repr

/-- One piece of a template. -/
inductive Segment
  /-- Text that stands as it is. -/
  | text (text : String)
  /-- A value as a literal of a style and width, with a label for messages. -/
  | value (label : String) (source : Source) (style : LiteralStyle) (bits : Nat)
  deriving DecidableEq, Repr

/-- The body of an artifact. -/
structure Template where
  /-- The artifact that the template renders. -/
  artifact : Artifact
  /-- What opens a line comment in the artifact's language. -/
  comment : String
  /-- The pieces after the banner, in order. -/
  segments : List Segment
  deriving DecidableEq, Repr

/-- What the templates of one run read. -/
structure RenderContext where
  /-- The profile's name, for the banner. -/
  profile : String
  /-- The profile's file, for the banner. -/
  source : String
  parameters : ParameterSet
  derived : DerivedValues

/-- Why an artifact cannot be rendered. -/
inductive RenderError
  /-- A value has no literal of its style and width. -/
  | literal (artifact : Artifact) (label : String) (cause : LiteralError)
  /-- There is no derived value of a name. -/
  | noDerivedValue (artifact : Artifact) (name : String)
  /-- A parameter is absent or no integer. -/
  | parameter (artifact : Artifact) (cause : ParameterError)
  deriving DecidableEq, Repr

/-- The wording of a render error. -/
def RenderError.message : RenderError → String
  | .literal artifact label cause => s!"{artifact.name}: cannot encode {label}: {cause.message}"
  | .noDerivedValue artifact name => s!"{artifact.name}: no derived value named {name}"
  | .parameter artifact cause => s!"{artifact.name}: {cause.message}"

/-- The artifact that failed. -/
def RenderError.artifact : RenderError → Artifact
  | .literal artifact .. => artifact
  | .noDerivedValue artifact _ => artifact
  | .parameter artifact _ => artifact

namespace Template

/-- The first line of an artifact, which names the profile and no time. -/
def banner (template : Template) (context : RenderContext) : String :=
  s!"{template.comment} generated - do not edit (profile `{context.profile}` from `{context.source}`; regenerate with `osqa-config`)\n"

/-- The value that a source stands for. -/
def resolve (artifact : Artifact) (context : RenderContext) : Source → Except RenderError UInt64
  | .parameter name =>
    match context.parameters.uint name with
    -- The error of a parameter is told for the artifact that needs it.
    | .ok value => .ok value
    | .error cause => .error (.parameter artifact cause)
  | .derived name =>
    match context.derived.get? name with
    | some value => .ok value
    | none => .error (.noDerivedValue artifact name)
  | .constant value => .ok value

/-- The text of one segment. -/
def renderSegment (artifact : Artifact) (context : RenderContext) :
    Segment → Except RenderError String
  | .text text => .ok text
  | .value label source style bits =>
    match resolve artifact context source with
    | .error e => .error e
    -- A value that its literal cannot hold is refused under its label.
    | .ok value =>
      match encode value style bits with
      | .ok text => .ok text
      | .error cause => .error (.literal artifact label cause)

/-- The texts of segments joined, or the error of the first that has none. -/
def renderSegments (artifact : Artifact) (context : RenderContext) :
    List Segment → Except RenderError String
  | [] => .ok ""
  | segment :: rest =>
    match renderSegment artifact context segment with
    | .error e => .error e
    | .ok text =>
      match renderSegments artifact context rest with
      | .error e => .error e
      | .ok more => .ok (text ++ more)

/-- The text of an artifact: its banner and its segments. -/
def render (template : Template) (context : RenderContext) : Except RenderError String :=
  match renderSegments template.artifact context template.segments with
  -- The banner comes first and can never fail.
  | .ok body => .ok (template.banner context ++ body)
  | .error e => .error e

end Template

end BoardConfig
