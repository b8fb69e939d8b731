import BoardConfig.Schema
import BoardConfig.Toml.Value

/-! Raw tables checked against a schema. -/

namespace BoardConfig

/-- Why a table does not bind a schema, or a parameter cannot be used as asked. -/
inductive ParameterError
  /-- A declared name is not bound. -/
  | missing (profile name : String)
  /-- A bound name is not declared; a retired name has a replacement. -/
  | unknown (profile name : String) (replacement : Option String)
  /-- A value is not of the expected type. -/
  | typeMismatch (name expected found : String)
  deriving DecidableEq, Repr

/-- The wording of a parameter error. -/
def ParameterError.message : ParameterError → String
  | .missing profile name => s!"profile '{profile}' is missing required parameter {name}"
  | .unknown profile name replacement =>
    let hint :=
      match replacement with
      | some other => s!" (did you mean {other}?)"
      | none => ""
    s!"profile '{profile}' defines unknown parameter {name}{hint}"
  | .typeMismatch name expected found => s!"parameter {name}: expected {expected}, found {found}"

/-- Every declared name bound to a value of its declared type. -/
structure ParameterSet where
  /-- The profile that the values came from, for messages. -/
  profile : String
  values : SortedMap ParameterValue
  deriving DecidableEq, Repr

/-- The value of a declared type that a raw value stands for, or what stands there instead. -/
def ParameterType.convert (type : ParameterType) (raw : Toml.Value) : Except String ParameterValue :=
  match type, raw with
  | .uint bits, .integer i =>
    if i < 0 then .error s!"negative integer {i}"
    else
      -- A type of no bits or too many holds no integer at all.
      match (ParameterType.uint bits).maxValue? with
      | some greatest =>
        if i.toNat ≤ greatest.toNat then .ok (.uint (UInt64.ofNat i.toNat))
        else .error s!"integer {i} wider than {bits} bits"
      | none => .error s!"integer {i} wider than {bits} bits"
  | .string, .string text => .ok (.string text)
  | .boolean, .boolean value => .ok (.boolean value)
  | _, other => .error s!"{other.typeName} {other.display}"

/-- The value that a table binds to a declared name. -/
def Declaration.bind (declaration : Declaration) (profile : String) (table : Toml.Table) :
    Except ParameterError ParameterValue :=
  match table.get? declaration.name with
  | none => .error (.missing profile declaration.name)
  | some raw =>
    match declaration.type.convert raw with
    | .ok value => .ok value
    | .error found =>
      .error (.typeMismatch declaration.name declaration.type.display found)

namespace ParameterSet

/-- Binds declarations in order on top of values that are bound already. -/
def bindAll (profile : String) (table : Toml.Table) :
    List Declaration → SortedMap ParameterValue → Except ParameterError (SortedMap ParameterValue)
  | [], values => .ok values
  | declaration :: rest, values =>
    match declaration.bind profile table with
    | .ok value => bindAll profile table rest (values.insert declaration.name value)
    | .error e => .error e

/-- Checks a raw table against a schema: undeclared names first, then each declaration in order. -/
def ofTable (schema : Schema) (profile : String) (table : Toml.Table) :
    Except ParameterError ParameterSet :=
  match table.keys.find? fun name => (schema.get? name).isNone with
  -- An undeclared name is told before any missing one.
  | some name => .error (.unknown profile name (schema.replacement? name))
  | none =>
    match bindAll profile table schema.declarations .empty with
    | .ok values => .ok { profile, values }
    | .error e => .error e

/-- The value bound to a name. -/
def get? (parameters : ParameterSet) (name : String) : Option ParameterValue :=
  parameters.values.get? name

/-- The value bound to a name, which must be bound. -/
def require (parameters : ParameterSet) (name : String) : Except ParameterError ParameterValue :=
  match parameters.get? name with
  | some value => .ok value
  | none => .error (.missing parameters.profile name)

/-- An unsigned integer parameter. -/
def uint (parameters : ParameterSet) (name : String) : Except ParameterError UInt64 :=
  match parameters.require name with
  | .ok (.uint value) => .ok value
  | .ok other => .error (.typeMismatch name "unsigned integer" other.typeName)
  | .error e => .error e

/-- A text parameter. -/
def string (parameters : ParameterSet) (name : String) : Except ParameterError String :=
  match parameters.require name with
  | .ok (.string text) => .ok text
  | .ok other => .error (.typeMismatch name "string" other.typeName)
  | .error e => .error e

/-- A truth value parameter. -/
def boolean (parameters : ParameterSet) (name : String) : Except ParameterError Bool :=
  match parameters.require name with
  | .ok (.boolean value) => .ok value
  | .ok other => .error (.typeMismatch name "bool" other.typeName)
  | .error e => .error e

end ParameterSet

end BoardConfig
