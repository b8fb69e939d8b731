import BoardConfig.Toml.Value

/-! Tables under construction, and what the statements of a document may add to them. -/

namespace BoardConfig.Toml

/-- How a table came about, which decides what may still extend it. -/
inductive Origin
  /-- Its own header opened it. -/
  | header
  /-- The header of a table below it passed through it. -/
  | passage
  /-- A dotted key made it. -/
  | dotted
  deriving DecidableEq, Repr

/-- A value or table of a document under construction. -/
inductive Tree
  | value (value : Value)
  /-- A table that may still grow. -/
  | table (origin : Origin) (branches : List (String × Tree))
  /-- An array of tables, of which the latest may still grow and the earlier ones stand latest first. -/
  | tables (latest : List (String × Tree)) (earlier : List (List (String × Tree)))

/-- The named parts of a table under construction, in the order in which the document binds them. -/
abbrev Branches := List (String × Tree)

/-- Binds a name to a tree, in place of its earlier tree or after all other names. -/
def setBranch (name : String) (tree : Tree) : Branches → Branches
  | [] => [(name, tree)]
  | (other, kept) :: rest =>
    -- An earlier tree of the name gives way in its place.
    if name = other then (name, tree) :: rest else (other, kept) :: setBranch name tree rest

/-- Binds a dotted key below a table; only tables that dotted keys made may take the value itself. -/
def bindDotted (name : String) (value : Value) : List String → Branches → Option Branches
  | [], branches =>
    match findEntry name branches with
    -- The last part must be new in its table.
    | none => some (setBranch name (.value value) branches)
    | some _ => none
  | step :: path, branches =>
    match findEntry step branches with
    | none =>
      (bindDotted name value path []).map fun below =>
        setBranch step (.table .dotted below) branches
    | some (.table origin below) =>
      -- A table of its own header is closed to dotted keys, whatever is bound.
      if origin = .header ∨ (path = [] ∧ origin = .passage) then none
      else
        (bindDotted name value path below).map fun below =>
          setBranch step (.table origin below) branches
    | some (.tables latest earlier) =>
      -- Dotted keys may go through the latest table of an array but bind nothing right in it.
      if path = [] then none
      else
        (bindDotted name value path latest).map fun latest =>
          setBranch step (.tables latest earlier) branches
    -- Nothing can be bound below a finished value.
    | some (.value _) => none

/-- Changes the table at the end of a path of headers, passing through the latest of arrays of tables. -/
def changeAt (change : Branches → Option Branches) : List String → Branches → Option Branches
  | [], branches => change branches
  | step :: path, branches =>
    match findEntry step branches with
    -- A table that is only passed through may still get a header of its own.
    | none =>
      (changeAt change path []).map fun below => setBranch step (.table .passage below) branches
    | some (.table origin below) =>
      (changeAt change path below).map fun below => setBranch step (.table origin below) branches
    | some (.tables latest earlier) =>
      (changeAt change path latest).map fun latest =>
        setBranch step (.tables latest earlier) branches
    | some (.value _) => none

/-- Opens a table by its header, once, even after the headers of tables below it, and binds it last. -/
def openTable (name : String) (branches : Branches) : Option Branches :=
  match findEntry name branches with
  | none => some (setBranch name (.table .header []) branches)
  -- The table moves to the end, as its own header binds it now.
  | some (.table .passage below) =>
    some (branches.filter (·.1 ≠ name) ++ [(name, .table .header below)])
  | some _ => none

/-- Opens a further table of an array of tables. -/
def openElement (name : String) (branches : Branches) : Option Branches :=
  match findEntry name branches with
  | none => some (setBranch name (.tables [] []) branches)
  | some (.tables latest earlier) => some (setBranch name (.tables [] (latest :: earlier)) branches)
  | some _ => none

mutual

/-- The finished value of a tree. -/
def Tree.finish : Tree → Value
  | .value value => value
  | .table _ branches => .table (finishBranches branches)
  -- The latest table comes last in the array.
  | .tables latest earlier =>
    .array ((Value.table (finishBranches latest) :: finishTables earlier).reverse)

/-- The finished entries of a table. -/
def finishBranches : List (String × Tree) → List (String × Value)
  | [] => []
  | (name, tree) :: rest => (name, tree.finish) :: finishBranches rest

/-- The finished tables of an array of tables. -/
def finishTables : List (List (String × Tree)) → List Value
  | [] => []
  | branches :: rest => .table (finishBranches branches) :: finishTables rest

end

/-- A statement of a document: a header or a binding. -/
inductive Statement
  /-- The header of a table. -/
  | table (path : List String) (name : String)
  /-- The header of a further table in an array of tables. -/
  | element (path : List String) (name : String)
  /-- A key with its value. -/
  | binding (path : List String) (name : String) (value : Value)

/-- A document read so far: its tables, and the path of the header that stands last. -/
structure Draft where
  /-- The top of the document. -/
  branches : Branches
  /-- The path to which bindings belong. -/
  current : List String

/-- The draft after one more statement, if the statement is allowed there. -/
def Draft.add? (draft : Draft) : Statement → Option Draft
  -- A header becomes the place that later bindings belong to.
  | .table path name =>
    (changeAt (openTable name) path draft.branches).map fun branches =>
      ⟨branches, path ++ [name]⟩
  | .element path name =>
    (changeAt (openElement name) path draft.branches).map fun branches =>
      ⟨branches, path ++ [name]⟩
  | .binding path name value =>
    (changeAt (bindDotted name value path) draft.current draft.branches).map fun branches =>
      { draft with branches }

/-- The table that the statements of a document describe, if they agree with one another. -/
def Table.ofStatements? (statements : List Statement) : Option Table :=
  (statements.foldlM Draft.add? ⟨[], []⟩).map fun draft =>
    SortedMap.ofList (finishBranches draft.branches)

end BoardConfig.Toml
