import BoardConfig.FileSystem.Update
import BoardConfig.Generation.Board
import BoardConfig.Generation.Layout

/-! Generation runs, which write or compare files only after every artifact is rendered. -/

namespace BoardConfig

/-- What a run does with the files. -/
inductive Mode
  /-- Writes those that differ. -/
  | write
  /-- Tells which differ. -/
  | check
  deriving DecidableEq, Repr, Inhabited

/-- What happened to an artifact's file. -/
inductive Status
  /-- It was written. -/
  | written
  /-- It held the text already. -/
  | unchanged
  /-- It was found to hold the text. -/
  | upToDate
  /-- It is missing or differs. -/
  | stale
  deriving DecidableEq, Repr

/-- The name of a status in reports. -/
def Status.name : Status → String
  | .written => "written"
  | .unchanged => "unchanged"
  | .upToDate => "up-to-date"
  | .stale => "stale"

/-- An artifact's file after a run. -/
structure Outcome where
  artifact : Artifact
  path : Path
  /-- What happened to the file. -/
  status : Status
  deriving DecidableEq, Repr

/-- The result of a run. -/
structure Report where
  profile : String
  derived : DerivedValues
  /-- The files, in the order of the artifacts. -/
  outcomes : List Outcome
  deriving DecidableEq, Repr

namespace Report

/-- The paths of the files that were written. -/
def written (report : Report) : List Path :=
  (report.outcomes.filter (·.status = .written)).map (·.path)

/-- The number of files that are missing or differ. -/
def staleCount (report : Report) : Nat :=
  report.outcomes.countP (·.status = .stale)

/-- Whether no file is missing or differs. -/
def isClean (report : Report) : Bool :=
  report.outcomes.all (·.status ≠ .stale)

end Report

/-- What a run is asked for. -/
structure Request where
  directory : Path
  reference : ProfileReference
  /-- The places of the artifacts. -/
  layout : Layout
  /-- Whether to write or to compare. -/
  mode : Mode
  deriving DecidableEq, Repr

/-- A source as banners name it: from the root where it is below the root, whatever its spelling. -/
def bannerSource (source root : Path) : String :=
  "/".intercalate (((source.strip? root).getD source).components.map Component.display)

/-- Writes texts to their places in order, until one fails. -/
def writeTexts (layout : Layout) :
    List (Artifact × String) → List Path → FileSystem →
      Except GenerationError (List Outcome) × FileSystem
  | [], _, fs => (.ok [], fs)
  | (artifact, text) :: rest, written, fs =>
    let path := layout.path artifact
    match fs.writeIfChanged path text with
    -- The first failure ends the run, and the paths written so far are told.
    | (.error cause, fs) => (.error (.write path written cause), fs)
    | (.ok changed, fs) =>
      match writeTexts layout rest (if changed then written ++ [path] else written) fs with
      | (.error e, fs) => (.error e, fs)
      | (.ok outcomes, fs) =>
        (.ok (⟨artifact, path, if changed then .written else .unchanged⟩ :: outcomes), fs)

/-- Compares texts with the files in their places in order, until one fails. -/
def compareTexts (layout : Layout) (fs : FileSystem) :
    List (Artifact × String) → Except GenerationError (List Outcome)
  | [] => .ok []
  | (artifact, text) :: rest =>
    let path := layout.path artifact
    match fs.isUpToDate path text with
    -- Nothing has been written that could be told.
    | .error cause => .error (.write path [] cause)
    | .ok same =>
      match compareTexts layout fs rest with
      | .error e => .error e
      | .ok outcomes => .ok (⟨artifact, path, if same then .upToDate else .stale⟩ :: outcomes)

namespace Blueprint

/-- The board of a request and the texts of all its artifacts. -/
def renderRequest (blueprint : Blueprint) (fs : FileSystem) (request : Request) :
    Except GenerationError (Board × List (Artifact × String)) :=
  match blueprint.prepare fs request.directory request.reference with
  | .error e => .error e
  | .ok board =>
    match renderAll (board.context (bannerSource board.profile.source request.layout.root)) with
    | .error e => .error e
    | .ok texts => .ok (board, texts)

/-- One generation run; the file system after it tells what it wrote. -/
def run (blueprint : Blueprint) (fs : FileSystem) (request : Request) :
    Except GenerationError Report × FileSystem :=
  match blueprint.renderRequest fs request with
  | .error e => (.error e, fs)
  | .ok (board, texts) =>
    let (outcomes, fs) :=
      match request.mode with
      | .write => writeTexts request.layout texts [] fs
      | .check => (compareTexts request.layout fs texts, fs)
    match outcomes with
    | .error e => (.error e, fs)
    | .ok outcomes =>
      (.ok { profile := board.profile.name, derived := board.derived, outcomes }, fs)

end Blueprint

end BoardConfig
