import BoardConfig.Toml.Meaning
import BoardConfig.Toml.Reader
import BoardConfig.Toml.Shape

/-! What a profile's file says. -/

namespace BoardConfig

/-- The contents of a profile's file. -/
structure ProfileFile where
  /-- The profile's name, if it is not the file's. -/
  name : Option String
  /-- A description for readers. -/
  description : Option String
  /-- The profile that this one overrides. -/
  base : Option String
  parameters : Toml.Table
  deriving Repr

namespace ProfileFile

/-- The profile that a table describes, which binds no other keys than these four. -/
def ofTable? (table : Toml.Table) : Option ProfileFile :=
  if table.bindsOnly ["name", "description", "extends", "parameters"] then do
    let name ← table.optional? "name" Toml.Value.text?
    let description ← table.optional? "description" Toml.Value.text?
    let base ← table.optional? "extends" Toml.Value.text?
    let parameters ← table.optional? "parameters" (·.table?.bind Toml.Table.meaning?)
    return { name, description, base, parameters := parameters.getD .empty }
  else none

/-- The profile that a document describes. -/
def parse? (document : String) : Option ProfileFile :=
  (Toml.Table.parse? document).bind ofTable?

end ProfileFile

end BoardConfig
