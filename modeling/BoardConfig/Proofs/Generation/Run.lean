import BoardConfig.Proofs.Generation.Rendering
import BoardConfig.Proofs.Generation.Turns
import BoardConfig.Proofs.Profile.Chain

/-! A run renders every artifact before it looks at any file, and then gives each its turn. -/

namespace BoardConfig

open FileSystem

/-- A comparison that fails has written nothing. -/
theorem compareTexts_error {layout : Layout} {fs : FileSystem} {texts : List (Artifact × String)}
    {e : GenerationError} (failed : compareTexts layout fs texts = .error e) :
    ∃ path cause, e = .write path [] cause := by
  -- The failing comparison is that of the first text or of a later one.
  induction texts with
  | nil => cases failed
  | cons first rest ih =>
    obtain ⟨artifact, text⟩ := first
    simp only [compareTexts] at failed
    split at failed
    · rename_i cause _
      cases failed
      exact ⟨_, cause, rfl⟩
    · split at failed
      · rename_i behind
        cases failed
        exact ih behind
      · cases failed

/-- A result that is kept as an optional value is that value. -/
theorem ok_of_toOption {ε α : Type} {result : Except ε α} {value : α}
    (kept : result.toOption = some value) : result = .ok value := by
  -- An error is kept as nothing.
  cases result <;> cases kept
  rfl

/-- The error of a result, if it is one. -/
def error? {ε α : Type} : Except ε α → Option ε
  | .error e => some e
  | .ok _ => none

/-- A result whose error is known is that error. -/
theorem error_of_error? {ε α : Type} {result : Except ε α} {e : ε} (known : error? result = some e) :
    result = .error e := by
  -- A result that is no error has none to be known.
  cases result <;> cases known
  rfl

/-- The report of a board's run. -/
def Board.report (board : Board) (outcomes : List Outcome) : Report :=
  { profile := board.profile.name, derived := board.derived, outcomes }

namespace Blueprint

variable {blueprint : Blueprint} {fs after : FileSystem} {request : Request} {report : Report}

/-- A request that cannot be rendered fails before any file is looked at. -/
theorem run_of_error {e : GenerationError} (failed : blueprint.renderRequest fs request = .error e) :
    blueprint.run fs request = (.error e, fs) := by
  -- Rendering is the first thing a run does.
  simp [run, failed]

/-- A rendered request in write mode gives its texts their turns. -/
theorem run_write {board : Board} {texts : List (Artifact × String)}
    (rendered : blueprint.renderRequest fs request = .ok (board, texts))
    (mode : request.mode = .write) :
    blueprint.run fs request =
      ((writeTexts request.layout texts [] fs).1.map board.report,
        (writeTexts request.layout texts [] fs).2) := by
  -- Success and failure alike are what the turns give.
  simp only [run, rendered, mode]
  cases (writeTexts request.layout texts [] fs).1 <;> rfl

/-- A rendered request in check mode compares its texts with the files. -/
theorem run_check {board : Board} {texts : List (Artifact × String)}
    (rendered : blueprint.renderRequest fs request = .ok (board, texts))
    (mode : request.mode = .check) :
    blueprint.run fs request = ((compareTexts request.layout fs texts).map board.report, fs) := by
  -- The comparison has no state to change.
  simp only [run, rendered, mode]
  cases compareTexts request.layout fs texts <;> rfl

/-- A run in check mode leaves everything alone. -/
theorem run_check_state (mode : request.mode = .check) : (blueprint.run fs request).2 = fs := by
  -- A failure to render changes nothing either.
  cases rendered : blueprint.renderRequest fs request with
  | error e => rw [run_of_error rendered]
  | ok found => rw [run_check rendered mode]

/-- A run in check mode that fails over a file has written no other. -/
theorem run_check_error {path : Path} {written : List Path} {cause : OsError}
    (mode : request.mode = .check)
    (failed : (blueprint.run fs request).1 = .error (.write path written cause)) :
    written = [] := by
  -- An error over a file comes from the comparison, which has written none.
  cases rendered : blueprint.renderRequest fs request with
  | error e =>
    rw [run_of_error rendered] at failed
    cases failed
    exact absurd rfl (renderRequest_error rendered path written cause)
  | ok found =>
    obtain ⟨board, texts⟩ := found
    rw [run_check rendered mode] at failed
    cases compared : compareTexts request.layout fs texts with
    | ok outcomes => simp [compared, Except.map] at failed
    | error e =>
      obtain ⟨other, reason, rfl⟩ := compareTexts_error compared
      simp only [compared, Except.map, Except.error.injEq, GenerationError.write.injEq] at failed
      exact failed.2.1.symm

/-- A run in write mode that fails over a file does so at the turn of one of its artifacts. -/
theorem run_write_error {e : GenerationError} (mode : request.mode = .write)
    (failed : blueprint.run fs request = (.error e, after)) :
    (blueprint.renderRequest fs request = .error e ∧ after = fs) ∨
      ∃ board texts before artifact text later outcomes middle cause,
        blueprint.renderRequest fs request = .ok (board, texts) ∧
        texts = before ++ (artifact, text) :: later ∧
        e = .write (request.layout.path artifact) (writtenPaths outcomes) cause ∧
        Turns request.layout before fs outcomes middle ∧
        middle.writeIfChanged (request.layout.path artifact) text = (.error cause, after) := by
  -- The run fails before the first turn, or at the turn of some text.
  cases rendered : blueprint.renderRequest fs request with
  | error refusal =>
    rw [run_of_error rendered] at failed
    cases failed
    exact .inl ⟨rfl, rfl⟩
  | ok found =>
    obtain ⟨board, texts⟩ := found
    rw [run_write rendered mode] at failed
    cases finished : writeTexts request.layout texts [] fs with
    | mk result last =>
      cases result with
      | ok outcomes => simp [finished, Except.map] at failed
      | error told =>
        simp only [finished, Except.map, Prod.mk.injEq, Except.error.injEq] at failed
        obtain ⟨rfl, rfl⟩ := failed
        obtain ⟨before, artifact, text, later, outcomes, middle, cause, parts, named, turns,
          stops⟩ := writeTexts_error finished
        exact .inr ⟨board, texts, before, artifact, text, later, outcomes, middle, cause, rfl,
          parts, by simpa using named, turns, stops⟩

/-- A run in write mode that succeeds gives every artifact's text its turn. -/
theorem run_write_ok (mode : request.mode = .write)
    (finished : blueprint.run fs request = (.ok report, after)) :
    ∃ board texts, blueprint.renderRequest fs request = .ok (board, texts) ∧
      report = board.report report.outcomes ∧
      Turns request.layout texts fs report.outcomes after := by
  -- Success needs texts and the success of every turn.
  cases rendered : blueprint.renderRequest fs request with
  | error e =>
    rw [run_of_error rendered] at finished
    cases finished
  | ok found =>
    obtain ⟨board, texts⟩ := found
    rw [run_write rendered mode] at finished
    cases written : writeTexts request.layout texts [] fs with
    | mk result last =>
      cases result with
      | error e => simp [written, Except.map] at finished
      | ok outcomes =>
        simp only [written, Except.map, Prod.mk.injEq, Except.ok.injEq] at finished
        obtain ⟨rfl, rfl⟩ := finished
        exact ⟨board, texts, rfl, rfl, writeTexts_ok written⟩

/-- What a chain of profile files is rendered to, if it is. -/
def renderLinks? (blueprint : Blueprint) (root : Path) (top : ProfileLink)
    (bases : List ProfileLink) : Option (Board × List (Artifact × String)) := do
  let profile ← (Profile.ofChain blueprint.schema top bases).toOption
  let derived ← (evaluate blueprint.rules profile.parameters).toOption
  let board : Board := ⟨profile, derived⟩
  let texts ← (renderAll (board.context (bannerSource profile.source root))).toOption
  return (board, texts)

/-- A profile is prepared as the chain that it is followed along, where nothing refuses. -/
theorem prepare_of_links {directory : Path} {reference : ProfileReference} {top : ProfileLink}
    {bases : List ProfileLink} {profile : Profile} {derived : DerivedValues}
    (followed : fs.profileChain directory (reference.resolve directory ⟨""⟩) = .ok (top :: bases))
    (checked : Profile.ofChain blueprint.schema top bases = .ok profile)
    (evaluated : evaluate blueprint.rules profile.parameters = .ok derived) :
    blueprint.prepare fs directory reference = .ok ⟨profile, derived⟩ := by
  -- Loading is following and checking, and the rules come behind it.
  simp only [prepare, Profile.load, followed, checked, evaluated]

/-- A request is rendered as the chain that its profile is followed along. -/
theorem renderRequest_of_links {top : ProfileLink} {bases : List ProfileLink}
    {found : Board × List (Artifact × String)} (followed : request.chain fs = .ok (top :: bases))
    (made : blueprint.renderLinks? request.layout.root top bases = some found) :
    blueprint.renderRequest fs request = .ok found := by
  -- Each step gives a value, and the rendering is made of these steps.
  simp only [renderLinks?, Option.bind_eq_bind, Option.bind_eq_some_iff, Option.pure_def,
    Option.some.injEq] at made
  obtain ⟨profile, checked, derived, evaluated, texts, all, rfl⟩ := made
  replace all := ok_of_toOption all
  have prepared := prepare_of_links followed (ok_of_toOption checked) (ok_of_toOption evaluated)
  simp only [renderRequest, prepared, all]

end Blueprint

/-- A profile that binds every parameter of the standard schema. -/
def sampleDocument : String :=
  "[parameters]
BOARD_NAME = \"b\"
CLOCK_FREQUENCY_HZ = 27
CPU_FREQUENCY_HZ = 9
RAM_ADDRESS_BITWIDTH = 3
RAM_ADDRESSING_MODE = 2
UART_BAUD_RATE = 6
CACHE_COLUMN_INDEX_BITWIDTH = 1
CACHE_LINE_INDEX_BITWIDTH = 1
FLASH_TRANSFER_FROM_ADDRESS = 4
FLASH_TRANSFER_BYTE_COUNT = 5
STARTUP_WAIT_CYCLES = 7
"

/-- The names of a board's parameters in byte order. -/
theorem boardNames_sorted : List.Pairwise (· < ·) ["BOARD_NAME", "CACHE_COLUMN_INDEX_BITWIDTH",
    "CACHE_LINE_INDEX_BITWIDTH", "CLOCK_FREQUENCY_HZ", "CPU_FREQUENCY_HZ",
    "FLASH_TRANSFER_BYTE_COUNT", "FLASH_TRANSFER_FROM_ADDRESS", "RAM_ADDRESSING_MODE",
    "RAM_ADDRESS_BITWIDTH", "STARTUP_WAIT_CYCLES", "UART_BAUD_RATE"] :=
  -- It is enough to compare each name with the next one.
  List.isChain_iff_pairwise.1 (by decide)

/-- The parameters of a board with an address width and an addressing mode. -/
def boardTable (width mode : Int) : Toml.Table where
  entries := [("BOARD_NAME", .string "b"), ("CACHE_COLUMN_INDEX_BITWIDTH", .integer 1),
    ("CACHE_LINE_INDEX_BITWIDTH", .integer 1), ("CLOCK_FREQUENCY_HZ", .integer 27),
    ("CPU_FREQUENCY_HZ", .integer 9), ("FLASH_TRANSFER_BYTE_COUNT", .integer 5),
    ("FLASH_TRANSFER_FROM_ADDRESS", .integer 4), ("RAM_ADDRESSING_MODE", .integer mode),
    ("RAM_ADDRESS_BITWIDTH", .integer width), ("STARTUP_WAIT_CYCLES", .integer 7),
    ("UART_BAUD_RATE", .integer 6)]
  sorted := (@List.pairwise_map _ _ Prod.fst _ _).1 boardNames_sorted

/-- The sample profile. -/
def sampleProfile : ProfileFile where
  name := none
  description := none
  base := none
  parameters := boardTable 3 2

set_option maxRecDepth 8000 in
/-- It is what the document says. -/
theorem parse_sampleDocument : ProfileFile.parse? sampleDocument = some sampleProfile := by
  -- Listing the document's characters beforehand spares decoding its bytes again at each of them.
  have characters : sampleDocument.toList = _ := String.toList_ofList
  rw [ProfileFile.parse?, Toml.Table.parse?, characters]
  rfl

/-- A file system that holds the sample profile alone. -/
def sampleFiles : FileSystem where
  entries := [([⟨"board.toml", by decide⟩], .file sampleDocument.toUTF8)]
  distinct := by simp
  rooted := by simp [StandsIn]
  cwd := []

/-- A request to write the artifacts of the sample profile beside it. -/
def sampleRequest : Request where
  directory := ⟨""⟩
  reference := .file ⟨"board.toml"⟩
  layout := {
    root := ⟨""⟩
    overrides := [(.bootStub, ⟨"boot.S"⟩), (.nativeHeader, ⟨"board.h"⟩),
      (.nativeNamespace, ⟨"board.hpp"⟩), (.hdlPackage, ⟨"board.sv"⟩)] }
  mode := .write

/-- The sample request with a file in the way of its second artifact. -/
def blockedRequest : Request where
  directory := sampleRequest.directory
  reference := sampleRequest.reference
  layout := {
    root := sampleRequest.layout.root
    overrides := [(.bootStub, ⟨"boot.S"⟩), (.nativeHeader, ⟨"board.toml/board.h"⟩)] }
  mode := .write

/-- The name of the sample profile's file. -/
def sampleName : Name := ⟨"board.toml", by decide⟩

/-- The sample profile's link. -/
def sampleLink (file : ProfileFile) : ProfileLink where
  name := file.nameAt ⟨"board.toml"⟩
  path := ⟨"board.toml"⟩
  location := [⟨"board.toml", by decide⟩]
  file

/-- The sample profile can be rendered, and its texts written unless a file is in the way. -/
theorem sample_steps :
    (Blueprint.standard.renderLinks? ⟨""⟩ (sampleLink sampleProfile) []).any fun found =>
      (writeTexts sampleRequest.layout found.2 [] sampleFiles).1.toOption.isSome ∧
        error? (writeTexts blockedRequest.layout found.2 [] sampleFiles).1 =
          some (.write ⟨"board.toml/board.h"⟩ [⟨"boot.S"⟩] .notADirectory) := by
  -- The sample profile is evaluated, its texts rendered, and then written in both layouts.
  decide +kernel

/-- A file system that holds a document as its only profile. -/
def filesOf (document : String) : FileSystem where
  entries := [([⟨"board.toml", by decide⟩], .file document.toUTF8)]
  distinct := by simp
  rooted := by simp [StandsIn]
  cwd := []

/-- The chain of a profile that stands alone is that profile's own file. -/
theorem chain_of_document {document : String} {file : ProfileFile} {request : Request}
    (parsed : ProfileFile.parse? document = some file) (alone : file.base = none)
    (resolved : request.reference.resolve request.directory ⟨""⟩ = ⟨"board.toml"⟩) :
    request.chain (filesOf document) = .ok [sampleLink file] := by
  -- The file system has one file, and the path leads to it.
  have located : (filesOf document).locateFile ⟨"board.toml"⟩ =
      .ok ([⟨"board.toml", by decide⟩], document.toUTF8) := by
    unfold locateFile locate origin
    rfl
  -- The walk reads the file and finds no base to go on with.
  rw [Request.chain, resolved]
  exact profileChain_of_alone (readLink_of_text located parsed) alone

/-- A request for a profile that stands alone is rendered from that profile's own link. -/
theorem renderRequest_of_document {document : String} {file : ProfileFile} {request : Request}
    {found : Board × List (Artifact × String)} (parsed : ProfileFile.parse? document = some file)
    (alone : file.base = none)
    (resolved : request.reference.resolve request.directory ⟨""⟩ = ⟨"board.toml"⟩)
    (made : Blueprint.standard.renderLinks? request.layout.root (sampleLink file) [] = some found) :
    Blueprint.standard.renderRequest (filesOf document) request = .ok found :=
  Blueprint.renderRequest_of_links (chain_of_document parsed alone resolved) made

/-- Both requests are rendered to the same texts, which one of them can write. -/
theorem sample_rendered : ∃ found,
    Blueprint.standard.renderRequest sampleFiles sampleRequest = .ok found ∧
      Blueprint.standard.renderRequest sampleFiles blockedRequest = .ok found ∧
      (writeTexts sampleRequest.layout found.2 [] sampleFiles).1.toOption.isSome ∧
      error? (writeTexts blockedRequest.layout found.2 [] sampleFiles).1 =
        some (.write ⟨"board.toml/board.h"⟩ [⟨"boot.S"⟩] .notADirectory) := by
  obtain ⟨found, made, writes⟩ := (Option.any_eq_true _ _).1 sample_steps
  -- Both requests are about the same profile.
  have resolved : sampleRequest.reference.resolve sampleRequest.directory ⟨""⟩ = ⟨"board.toml"⟩ := by
    decide
  exact ⟨found, renderRequest_of_document parse_sampleDocument rfl resolved made,
    renderRequest_of_document parse_sampleDocument rfl resolved made, of_decide_eq_true writes⟩

/-- The sample request's run succeeds. -/
theorem sample_run :
    ∃ report after, Blueprint.standard.run sampleFiles sampleRequest = (.ok report, after) := by
  -- Writing the rendered texts succeeds, and the run with it.
  obtain ⟨⟨board, texts⟩, rendered, _, writes, _⟩ := sample_rendered
  obtain ⟨outcomes, written⟩ := Option.isSome_iff_exists.1 writes
  rw [Blueprint.run_write rendered rfl, ok_of_toOption written]
  exact ⟨_, _, rfl⟩

/-- The blocked request's run fails at its second artifact. -/
theorem blocked_run : ∃ after, Blueprint.standard.run sampleFiles blockedRequest =
    (.error (.write ⟨"board.toml/board.h"⟩ [⟨"boot.S"⟩] .notADirectory), after) := by
  -- Writing the rendered texts stops at the second one, and the run with it.
  obtain ⟨⟨board, texts⟩, _, rendered, _, stops⟩ := sample_rendered
  rw [Blueprint.run_write rendered rfl, error_of_error? stops]
  exact ⟨_, rfl⟩

/-- The sample request's artifacts go to different places. -/
theorem sample_separate (first second : Artifact)
    (same : sampleFiles.place (sampleRequest.layout.path first) =
      sampleFiles.place (sampleRequest.layout.path second)) : first = second := by
  -- Four paths are compared with one another.
  have listed : ∀ first ∈ Artifact.all, ∀ second ∈ Artifact.all,
      sampleFiles.place (sampleRequest.layout.path first) =
        sampleFiles.place (sampleRequest.layout.path second) → first = second := by
    decide
  exact listed first first.mem_all second second.mem_all same

/-- Artifacts that go to places of no file do not go to those of a profile's files. -/
theorem place_ne_location {fs : FileSystem} {layout : Layout}
    (outside : ∀ artifact ∈ Artifact.all, fs.place (layout.path artifact) ∉ fs.files)
    {directory start : Path} {chain : List ProfileLink}
    (followed : fs.profileChain directory start = .ok chain) {link : ProfileLink} (among : link ∈ chain)
    (artifact : Artifact) : fs.place (layout.path artifact) ≠ link.location := by
  -- A link of the chain stands at a file.
  intro same
  obtain ⟨path, given⟩ := readLink_of_profileChain followed among
  obtain ⟨contents, stands⟩ := file_of_readLink given
  exact outside artifact artifact.mem_all (same ▸ mem_files stands)

/-- None of them is the sample profile's file. -/
theorem sample_apart {chain : List ProfileLink} (followed : sampleRequest.chain sampleFiles = .ok chain)
    {link : ProfileLink} (among : link ∈ chain) (artifact : Artifact) :
    sampleFiles.place (sampleRequest.layout.path artifact) ≠ link.location := by
  -- The only file is the profile.
  have outside : ∀ artifact ∈ Artifact.all,
      sampleFiles.place (sampleRequest.layout.path artifact) ∉ sampleFiles.files := by
    decide
  exact place_ne_location outside followed among artifact

end BoardConfig
