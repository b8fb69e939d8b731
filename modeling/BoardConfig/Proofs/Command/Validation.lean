import BoardConfig.Command
import BoardConfig.Proofs.Generation.Availability
import BoardConfig.Proofs.Generation.Run

/-! Validating a profile tells whether generating from it can fail over anything but the files. -/

namespace BoardConfig

namespace Blueprint

variable {fs after : FileSystem} {request : Request}

/-- A request whose profile cannot be prepared fails with the same error and changes nothing. -/
theorem run_of_prepare_error {blueprint : Blueprint} {e : GenerationError}
    (failed : blueprint.prepare fs request.directory request.reference = .error e) :
    blueprint.run fs request = (.error e, fs) := by
  -- A run renders before it writes or compares, and rendering begins with the profile.
  apply run_of_error
  simp only [renderRequest, failed]

/-- A request whose profile can be prepared is rendered. -/
theorem renderRequest_of_prepare {board : Board}
    (prepared : standard.prepare fs request.directory request.reference = .ok board) :
    ∃ texts, standard.renderRequest fs request = .ok (board, texts) := by
  -- A prepared board has all the artifacts can ask for.
  obtain ⟨texts, rendered⟩ := renderAll_of_prepare prepared
    (bannerSource board.profile.source request.layout.root)
  exact ⟨texts, by simp only [renderRequest, prepared, rendered]⟩

/-- A run of a profile that can be prepared fails over files only. -/
theorem write_of_run_error {board : Board} {e : GenerationError}
    (prepared : standard.prepare fs request.directory request.reference = .ok board)
    (failed : standard.run fs request = (.error e, after)) :
    ∃ path written cause, e = .write path written cause := by
  -- The texts are there, so what is left are failures in writing or in comparing.
  obtain ⟨texts, rendered⟩ := renderRequest_of_prepare prepared
  cases mode : request.mode with
  -- A failed run either has not rendered, which is excluded, or has stopped at a file.
  | write =>
    rcases run_write_error mode failed with ⟨unrendered, _⟩ | stopped
    · rw [rendered] at unrendered
      cases unrendered
    · obtain ⟨_, _, _, _, _, _, _, _, _, _, _, told, _⟩ := stopped
      exact ⟨_, _, _, told⟩
  -- Comparing fails at a file that cannot be read, with nothing written.
  | check =>
    rw [run_check rendered mode] at failed
    cases compared : compareTexts request.layout fs texts with
    | ok outcomes => simp [compared, Except.map] at failed
    | error told =>
      simp only [compared, Except.map, Prod.mk.injEq, Except.error.injEq] at failed
      obtain ⟨path, cause, same⟩ := compareTexts_error compared
      exact ⟨path, [], cause, failed.1 ▸ same⟩

/-- A run in write mode leaves no file out of date. -/
theorem isClean_of_run_write {blueprint : Blueprint} {report : Report} (mode : request.mode = .write)
    (finished : blueprint.run fs request = (.ok report, after)) : report.isClean = true := by
  -- Writing has an outcome of its own for each file, and being out of date is none of them.
  obtain ⟨board, texts, _, _, turns⟩ := run_write_ok mode finished
  simp only [Report.isClean, List.all_eq_true, decide_eq_true_eq]
  intro outcome among stale
  rcases turns.outcomes_eq.2 outcome among with written | unchanged
  · rw [written] at stale
    cases stale
  · rw [unchanged] at stale
    cases stale

end Blueprint

namespace Project

variable {project : Project} {fs : FileSystem} {profile : Option String} {reference : ProfileReference}
  {layout : Layout}

/-- The run of a selected profile, once the places of the artifacts are known. -/
def runRequest (project : Project) (reference : ProfileReference) (layout : Layout) (check : Bool) :
    Request where
  directory := project.profilesDirectory
  reference
  layout
  mode := if check then .check else .write

/-- A profile that is selected can be asked for if the artifacts have places. -/
theorem request_of_reference (selected : project.reference profile = .ok reference)
    (placed : project.layout = .ok layout) (check : Bool) :
    project.request profile check = .ok (project.runRequest reference layout check) := by
  -- Selection and layout are all that a request is made of.
  simp only [request, selected, placed, runRequest]

/-- A run that fails makes the command fail with its error. -/
theorem generate_of_run_error {after : FileSystem} {e : GenerationError} {check : Bool}
    (selected : project.reference profile = .ok reference) (placed : project.layout = .ok layout)
    (failed : Blueprint.standard.run fs (project.runRequest reference layout check) =
      (.error e, after)) (format : Format) :
    project.generate fs profile check format =
      { output := fun _ => "", failure := some (.generation e), fs := after } := by
  -- The command runs the request and hands its error on.
  simp only [generate, request_of_reference selected placed, failed]

/-- A run that gives a report makes the command fail exactly if a file is out of date. -/
theorem generate_of_run_ok {after : FileSystem} {report : Report} {check : Bool}
    (selected : project.reference profile = .ok reference) (placed : project.layout = .ok layout)
    (finished : Blueprint.standard.run fs (project.runRequest reference layout check) =
      (.ok report, after)) (format : Format) :
    (project.generate fs profile check format).failure =
      if report.isClean then none else some (.stale report.staleCount report.profile) := by
  -- The command looks at the report for files that are out of date.
  simp only [generate, request_of_reference selected placed, finished]

/-- What is refused as a profile is refused alike by both commands, and nothing is changed. -/
theorem generate_of_validate_failure (placed : project.layout = .ok layout) {e : CommandError}
    (refused : (project.validate fs profile).failure = some e) (check : Bool) (format : Format) :
    project.generate fs profile check format = { output := fun _ => "", failure := some e, fs } := by
  unfold validate at refused
  -- Either no profile is selected, or the one that is cannot be prepared.
  cases selected : project.reference profile with
  | error cause =>
    rw [selected] at refused
    cases refused
    simp only [generate, request, selected]
  | ok reference =>
    cases prepared : Blueprint.standard.prepare fs project.profilesDirectory reference with
    | error cause =>
      simp only [selected, prepared] at refused
      cases refused
      have failed : Blueprint.standard.run fs (project.runRequest reference layout check) =
          (.error cause, fs) := Blueprint.run_of_prepare_error prepared
      exact generate_of_run_error selected placed failed format
    -- A board is no reason to refuse.
    | ok board =>
      simp only [selected, prepared] at refused
      cases refused

/-- What is valid is a profile that is selected and can be prepared. -/
theorem validate_failure_eq_none_iff :
    (project.validate fs profile).failure = none ↔
      ∃ reference board, project.reference profile = .ok reference ∧
        Blueprint.standard.prepare fs project.profilesDirectory reference = .ok board := by
  -- Validating selects and prepares, and fails in no other way.
  constructor
  · intro valid
    unfold validate at valid
    split at valid
    · cases valid
    · rename_i reference selected
      split at valid
      · cases valid
      · rename_i board prepared
        exact ⟨reference, board, selected, prepared⟩
  · rintro ⟨reference, board, selected, prepared⟩
    simp only [validate, selected, prepared]

/--
Validating a profile is the precondition of generating from it.

What validation refuses is refused by generation with the same error.
What it accepts is rendered, and generation can fail over files only, or over those it finds out of date.
-/
theorem generate_of_validate (project : Project) (fs : FileSystem) {layout : Layout}
    (placed : project.layout = .ok layout) (profile : Option String) (check : Bool)
    (format : Format) :
    (∀ e, (project.validate fs profile).failure = some e →
      (project.generate fs profile check format).failure = some e ∧
        (project.generate fs profile check format).fs = fs) ∧
    ((project.validate fs profile).failure = none →
      ∀ e, (project.generate fs profile check format).failure = some e →
        (∃ path written cause, e = .generation (.write path written cause)) ∨
          (check = true ∧ ∃ count name, e = .stale count name)) ∧
    ∀ directory reference board,
      Blueprint.standard.prepare fs directory reference = .ok board →
        ∀ source, ∃ texts, renderAll (board.context source) = .ok texts := by
  -- Refusals are handed on by both commands; what is accepted is rendered before any file is
  -- touched.
  refine ⟨?_, ?_, fun _ _ _ prepared source => Blueprint.renderAll_of_prepare prepared source⟩
  · intro e refused
    rw [generate_of_validate_failure placed refused]
    exact ⟨rfl, rfl⟩
  · intro valid e failed
    obtain ⟨reference, board, selected, prepared⟩ := validate_failure_eq_none_iff.1 valid
    cases ran : Blueprint.standard.run fs (project.runRequest reference layout check) with
    | mk result after =>
      cases result with
      | error cause =>
        obtain ⟨path, written, reason, rfl⟩ := Blueprint.write_of_run_error prepared ran
        rw [generate_of_run_error selected placed ran] at failed
        cases failed
        exact .inl ⟨path, written, reason, rfl⟩
      | ok report =>
        rw [generate_of_run_ok selected placed ran] at failed
        cases check with
        | true =>
          split at failed
          · cases failed
          · cases failed
            exact .inr ⟨rfl, _, _, rfl⟩
        | false =>
          -- A run that writes leaves nothing out of date.
          have clean := Blueprint.isClean_of_run_write rfl ran
          rw [if_pos clean] at failed
          cases failed

/-- A project with its profiles at its root. -/
def sampleProject : Project where
  root := ⟨""⟩
  manifest := some { directory := ⟨""⟩ }

/-- The sample profile is valid, and without its file it can neither be validated nor generated from. -/
theorem generate_of_validate_sample :
    (sampleProject.validate sampleFiles (some "board.toml")).failure = none ∧
    (∀ e, (sampleProject.generate sampleFiles (some "board.toml") false .text).failure = some e →
      ∃ path written cause, e = .generation (.write path written cause)) ∧
    (sampleProject.generate .empty (some "board.toml") true .text).failure =
      some (.generation (.profile (.notFound ⟨"board.toml"⟩))) := by
  have placed : sampleProject.layout = .ok { root := ⟨""⟩ } := rfl
  have named : ProfileReference.parse "board.toml" = .file ⟨"board.toml"⟩ := by decide
  have selected : sampleProject.reference (some "board.toml") = .ok (.file ⟨"board.toml"⟩) :=
    congrArg Except.ok named
  have directory : sampleProject.profilesDirectory = ⟨""⟩ := by decide
  -- The sample profile is rendered, and only what is prepared is.
  have valid : (sampleProject.validate sampleFiles (some "board.toml")).failure = none := by
    obtain ⟨⟨board, texts⟩, rendered, _⟩ := sample_rendered
    have prepared : Blueprint.standard.prepare sampleFiles ⟨""⟩ (.file ⟨"board.toml"⟩) = .ok board :=
      (Blueprint.renderRequest_ok rendered).1
    rw [validate_failure_eq_none_iff, directory]
    exact ⟨_, board, selected, prepared⟩
  have refused : (sampleProject.validate .empty (some "board.toml")).failure =
      some (.generation (.profile (.notFound ⟨"board.toml"⟩))) := by
    -- Nothing stands in an empty tree, so the first file is not found.
    have missing : FileSystem.empty.readLink ⟨"board.toml"⟩ = .error (.notFound ⟨"board.toml"⟩) := by
      unfold FileSystem.readLink FileSystem.locateFile FileSystem.locate FileSystem.origin
      rfl
    have resolved : ProfileReference.resolve ⟨""⟩ ⟨""⟩ (.file ⟨"board.toml"⟩) = ⟨"board.toml"⟩ := by
      decide
    simp only [validate, selected, directory, Blueprint.prepare, Profile.load, resolved, FileSystem.profileChain,
      FileSystem.followChain, missing]
  refine ⟨valid, fun e failed => ?_, ?_⟩
  · rcases (generate_of_validate sampleProject sampleFiles placed (some "board.toml") false
      .text).2.1 valid e failed with write | ⟨check, _⟩
    · exact write
    · cases check
  · exact ((generate_of_validate sampleProject .empty placed (some "board.toml") true .text).1 _
      refused).1

end Project

end BoardConfig
