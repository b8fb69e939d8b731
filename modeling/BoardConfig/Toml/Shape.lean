import BoardConfig.Toml.Value

/-! Reading tables of a fixed shape. -/

namespace BoardConfig.Toml

/-- The text that a value is. -/
def Value.text? : Value → Option String
  | .string text => some text
  | _ => none

/-- The named values that a value holds; a point in time stands for a table of its text. -/
def Value.table? : Value → Option Table
  | .table entries => some (.ofList entries)
  | .datetime value => some (.ofList [(datetimeKey, .string value.display)])
  | _ => none

/-- Whether a table binds none but some names. -/
def Table.bindsOnly (table : Table) (names : List String) : Bool :=
  table.keys.all (· ∈ names)

/-- What is read from the value of a name that need not be bound; none if the value is refused. -/
def Table.optional? {α : Type} (table : Table) (name : String) (read : Value → Option α) :
    Option (Option α) :=
  match table.get? name with
  -- A name that is not bound is no fault, unlike a value that is refused.
  | none => some none
  | some value => (read value).map some

end BoardConfig.Toml
