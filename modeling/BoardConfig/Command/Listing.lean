import BoardConfig.Generation
import BoardConfig.Json

/-! How results are shown. -/

namespace BoardConfig

/-- A text filled up with blanks on the right to a width, or left as it is if longer. -/
def padded (width : Nat) (text : String) : String :=
  text ++ String.ofList (List.replicate (width - text.length) ' ')

/-- Lines, each with its end. -/
def unlines (lines : List String) : String :=
  String.join (lines.map (· ++ "\n"))

/-- Derived values as JSON. -/
def derivedJson (derived : DerivedValues) : JsonValue :=
  .object [("values", .object (derived.entries.map fun (name, value) => (name, .number value.toNat)))]

namespace Outcome

/-- The line of an artifact's file, whose path is shown from the root where it is below the root. -/
def line (root : Path) (outcome : Outcome) : String :=
  let label :=
    match outcome.status with
    | .written => "wrote"
    | .unchanged => "unchanged"
    | .upToDate => "up to date"
    | .stale => "stale"
  s!"{label}: {((outcome.path.strip? root).getD outcome.path).text}"

/-- An artifact's file as JSON. -/
def json (outcome : Outcome) : JsonValue :=
  .object [
    ("kind", .string outcome.artifact.name),
    ("path", .string outcome.path.text),
    ("status", .string outcome.status.name)]

end Outcome

/-- A report as JSON. -/
def Report.json (report : Report) : JsonValue :=
  .object [
    ("profile", .string report.profile),
    ("derived", derivedJson report.derived),
    ("artifacts", .array (report.outcomes.map (·.json)))]

/-- A parameter as JSON. -/
def ParameterValue.json : ParameterValue → JsonValue
  | .uint value => .number value.toNat
  | .string text => .string text
  | .boolean value => .boolean value

namespace Board

/-- A profile with its parameters and derived values as JSON. -/
def json (board : Board) : JsonValue :=
  .object [
    ("name", .string board.profile.name),
    ("description", (board.profile.description.map JsonValue.string).getD .null),
    ("source", .string board.profile.source.text),
    ("extends", .array (board.profile.bases.map .string)),
    ("parameters", .object
      (board.profile.parameters.values.entries.map fun (name, value) => (name, value.json))),
    ("derived", derivedJson board.derived)]

/-- The lines that show a profile, with the parameters in the order of a schema. -/
def lines (board : Board) (schema : Schema) : List String :=
  let profile := board.profile
  [s!"=== Profile: {profile.name} ==="] ++
    profile.description.toList ++
    [s!"Source:  {profile.source.text}"] ++
    (if profile.bases = [] then [] else ["Extends: " ++ " -> ".intercalate profile.bases]) ++
    ["", "--- Parameters ---"] ++
    schema.names.filterMap (fun name =>
      (profile.parameters.get? name).map fun value => s!"  {padded 28 name} = {value.display}") ++
    ["", "--- Derived ---"] ++
    board.derived.entries.map fun (name, value) =>
      s!"  {padded 28 name} = {value.toNat} ({hexText value.toNat})"

end Board

/-- The line of a profile in a list, where a star marks the active one. -/
def listLine (diagnostics : Toml.Diagnostics) (active : Option String) (name : String)
    (result : Except GenerationError Board) : String :=
  let marker := if active = some name then "*" else " "
  let summary :=
    match result with
    | .ok board => board.profile.description.getD ""
    | .error e => s!"invalid: {e.report diagnostics}"
  s!"{marker} {padded 24 name} {summary}"

/-- The line that tells whether a profile is valid. -/
def validityLine (diagnostics : Toml.Diagnostics) (name : String) :
    Except GenerationError Board → String
  | .ok _ => s!"ok   {name}"
  | .error e => s!"FAIL {name}: {e.report diagnostics}"

end BoardConfig
