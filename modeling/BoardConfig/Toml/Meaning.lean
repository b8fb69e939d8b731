import BoardConfig.Toml.Value

/-! What values of a document mean: tables in name order, and points in time given as tables. -/

namespace BoardConfig.Toml

/-- The value that a table begins with, if it begins with the key of points in time. -/
def leadingDatetime? : List (String × Value) → Option Value
  -- The first entry decides, whatever else the table binds.
  | (key, value) :: _ => if key = datetimeKey then some value else none
  | [] => none

/-- The point in time that a value gives as text. -/
def Value.datetime? : Value → Option Datetime
  | .string text => Datetime.ofText? text
  | _ => none

mutual

/-- The meaning of a value; a table that begins with the key of points in time must give one. -/
def Value.meaning? : Value → Option Value
  | .array items => (itemMeanings? items).map .array
  | .table entries =>
    match leadingDatetime? entries with
    | some value => value.datetime?.map .datetime
    | none => (entryMeanings? entries).map fun entries => .table (SortedMap.ofList entries).entries
  -- All other values mean what they say.
  | value => some value

/-- The meanings of the items of an array. -/
def itemMeanings? : List Value → Option (List Value)
  | [] => some []
  | item :: rest => do return (← item.meaning?) :: (← itemMeanings? rest)

/-- The meanings of the entries of a table. -/
def entryMeanings? : List (String × Value) → Option (List (String × Value))
  | [] => some []
  | (key, value) :: rest => do return (key, ← value.meaning?) :: (← entryMeanings? rest)

end

/-- The meaning of each entry of a table, which is itself no point in time. -/
def Table.meaning? (table : Table) : Option Table :=
  (entryMeanings? table.entries).map SortedMap.ofList

end BoardConfig.Toml
