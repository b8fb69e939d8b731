import BoardConfig.Proofs.Generation.Run
import BoardConfig.Proofs.Profile.Chain

/-! Checking foretells what writing does, and writing leaves nothing to do. -/

namespace BoardConfig

open FileSystem

/-- The status that checking gives a file to which writing gives a status. -/
def Status.foretold : Status → Status
  | .written => .stale
  | .unchanged => .upToDate
  | status => status

/-- A report with other statuses. -/
def Report.mapStatus (report : Report) (change : Status → Status) : Report :=
  { report with
    outcomes := report.outcomes.map fun outcome => { outcome with status := change outcome.status } }

/-- The artifacts of a layout go to different places. -/
def Layout.Separate (layout : Layout) (fs : FileSystem) : Prop :=
  ∀ first second, fs.place (layout.path first) = fs.place (layout.path second) → first = second

/-- Texts of different artifacts go to different places of a layout that keeps them apart. -/
theorem Layout.Separate.pairwise {layout : Layout} {fs : FileSystem} (separate : layout.Separate fs)
    {texts : List (Artifact × String)} (artifacts : texts.map (·.1) = Artifact.all) :
    texts.Pairwise fun first second =>
      fs.place (layout.path first.1) ≠ fs.place (layout.path second.1) := by
  -- No artifact is listed twice, so two texts have two artifacts and these two places.
  have nodup : (texts.map (·.1)).Nodup := by
    rw [artifacts]
    decide
  refine (List.pairwise_map.1 nodup).imp fun different same => ?_
  exact different (separate _ _ same)

/--
Comparing texts beforehand foretells what their turns report.

The comparison sees the file system from before all turns, where files written since are missing.
-/
theorem compareTexts_of_turns {layout : Layout} {texts : List (Artifact × String)}
    {written : List Location} {start fs after : FileSystem} {outcomes : List Outcome}
    (turns : Turns layout texts fs outcomes after) (grows : Grows written start fs)
    (level : ∀ entry ∈ texts, Component.up ∉ (layout.path entry.1).components)
    (outside : ∀ entry ∈ texts, start.place (layout.path entry.1) ∉ written)
    (distinct : texts.Pairwise fun first second =>
      start.place (layout.path first.1) ≠ start.place (layout.path second.1)) :
    compareTexts layout start texts =
      .ok (outcomes.map fun outcome => { outcome with status := outcome.status.foretold }) := by
  -- The induction follows the turns, over growth from the state that is compared.
  induction turns generalizing written with
  | done => rfl
  | @unchanged artifact text rest fs after outcomes holds later ih =>
    obtain ⟨_, restDistinct⟩ := List.pairwise_cons.1 distinct
    have before := grows.isUpToDate_before (level _ List.mem_cons_self)
      (outside _ List.mem_cons_self) holds
    have others := ih grows (fun entry behind => level entry (List.mem_cons_of_mem _ behind))
      (fun entry behind => outside entry (List.mem_cons_of_mem _ behind)) restDistinct
    simp [compareTexts, before, others, Status.foretold]
  | @written artifact text rest fs middle after outcomes differs new holds later ih =>
    obtain ⟨firstApart, restDistinct⟩ := List.pairwise_cons.1 distinct
    have before := grows.isUpToDate_before (level _ List.mem_cons_self)
      (outside _ List.mem_cons_self) differs
    rw [place_congr grows.cwd] at new
    -- The file that is written now is none that a later text goes to.
    have others := ih (grows.trans new)
      (fun entry behind => level entry (List.mem_cons_of_mem _ behind))
      (fun entry behind => by
        have apart := firstApart entry behind
        have earlier := outside entry (List.mem_cons_of_mem _ behind)
        simpa [earlier] using Ne.symm apart) restDistinct
    simp [compareTexts, before, others, Status.foretold]

/-- Files that hold their texts are found to do so. -/
theorem compareTexts_of_holds {layout : Layout} {texts : List (Artifact × String)} {fs : FileSystem}
    (holds : ∀ entry ∈ texts, fs.isUpToDate (layout.path entry.1) entry.2 = .ok true) :
    compareTexts layout fs texts =
      .ok (texts.map fun entry => ⟨entry.1, layout.path entry.1, .upToDate⟩) := by
  -- Every comparison succeeds and tells that nothing differs.
  induction texts with
  | nil => rfl
  | cons first rest ih =>
    have others := ih fun entry behind => holds entry (List.mem_cons_of_mem _ behind)
    simp [compareTexts, holds first List.mem_cons_self, others]

/-- Files that hold their texts are left alone. -/
theorem writeTexts_of_holds {layout : Layout} {texts : List (Artifact × String)} {done : List Path}
    {fs : FileSystem}
    (holds : ∀ entry ∈ texts, fs.isUpToDate (layout.path entry.1) entry.2 = .ok true) :
    writeTexts layout texts done fs =
      (.ok (texts.map fun entry => ⟨entry.1, layout.path entry.1, .unchanged⟩), fs) := by
  -- No turn changes the state, so each of them finds its file as it is.
  induction texts with
  | nil => rfl
  | cons first rest ih =>
    have alone := writeIfChanged_of_isUpToDate (holds first List.mem_cons_self)
    have others := ih fun entry behind => holds entry (List.mem_cons_of_mem _ behind)
    simp [writeTexts, alone, others]

/-- Turns written at places that keep apart leave every file with its text. -/
theorem Turns.holds {layout : Layout} {texts : List (Artifact × String)} {fs after : FileSystem}
    {outcomes : List Outcome} (turns : Turns layout texts fs outcomes after)
    (distinct : texts.Pairwise fun first second =>
      fs.place (layout.path first.1) ≠ fs.place (layout.path second.1)) :
    ∀ entry ∈ texts, after.isUpToDate (layout.path entry.1) entry.2 = .ok true := by
  -- The text is the last one at its place, so it is what is read there.
  intro entry among
  rw [isUpToDate_eq_true_iff]
  exact turns.read_ok among (lastText_of_distinct distinct among)

/-- The files of a profile go on being its files after turns that go nowhere near them. -/
theorem Turns.chain_eq {layout : Layout} {texts : List (Artifact × String)} {fs after : FileSystem}
    {outcomes : List Outcome} (turns : Turns layout texts fs outcomes after) {request : Request}
    {chain : List ProfileLink} (followed : request.chain fs = .ok chain)
    (apart : ∀ link ∈ chain, ∀ artifact, fs.place (layout.path artifact) ≠ link.location) :
    request.chain after = request.chain fs := by
  -- What was written went to the places of artifacts, of which none is a file of the chain.
  rw [followed]
  exact turns.grows.profileChain followed fun link among =>
    turns.not_mem_writtenPlaces (apart link among)

namespace Blueprint

/--
Checking foretells what writing does, and after writing there is nothing left to do.

The artifacts go to different places, none of them a file of the profile, by paths without `..`.
-/
theorem run_again (blueprint : Blueprint) {fs after : FileSystem} {request : Request}
    {report : Report} (mode : request.mode = .write)
    (level : ∀ artifact, Component.up ∉ (request.layout.path artifact).components)
    (separate : request.layout.Separate fs)
    (apart : ∀ chain, request.chain fs = .ok chain → ∀ link ∈ chain, ∀ artifact,
      fs.place (request.layout.path artifact) ≠ link.location)
    (finished : blueprint.run fs request = (.ok report, after)) :
    report.outcomes.map (·.artifact) = Artifact.all ∧
    (∀ outcome ∈ report.outcomes, outcome.status = .written ∨ outcome.status = .unchanged) ∧
    -- Checking instead of writing would have told which files differ.
    blueprint.run fs { request with mode := .check } =
      (.ok (report.mapStatus Status.foretold), fs) ∧
    -- Checking after writing finds every file up to date.
    blueprint.run after { request with mode := .check } =
      (.ok (report.mapStatus fun _ => .upToDate), after) ∧
    (report.mapStatus fun _ => .upToDate).isClean = true ∧
    -- Writing once more changes nothing.
    blueprint.run after request = (.ok (report.mapStatus fun _ => .unchanged), after) ∧
    (report.mapStatus fun _ => .unchanged).written = [] := by
  -- A run renders, takes a turn for each artifact, and reports their outcomes.
  obtain ⟨board, texts, rendered, reported, turns⟩ := run_write_ok mode finished
  obtain ⟨chain, followed⟩ := chain_of_renderRequest rendered
  have artifacts := (renderAll_ok (renderRequest_ok rendered).2).1
  have distinct := separate.pairwise artifacts
  have holds := turns.holds distinct
  have chainSame := turns.chain_eq followed (apart chain followed)
  -- Each of the later runs renders the texts of the first one.
  have checkBefore : blueprint.renderRequest fs { request with mode := .check } =
      .ok (board, texts) := (renderRequest_congr rfl .check).trans rendered
  have checkAfter : blueprint.renderRequest after { request with mode := .check } =
      .ok (board, texts) := (renderRequest_congr chainSame .check).trans rendered
  have writeAfter : blueprint.renderRequest after request = .ok (board, texts) :=
    (renderRequest_congr chainSame request.mode).trans rendered
  refine ⟨turns.artifacts_eq.trans artifacts, turns.outcomes_eq.2, ?_, ?_, ?_, ?_, ?_⟩
  · -- Before the run, each file differed or not, as its turn has found it.
    have compared := compareTexts_of_turns turns (Grows.refl fs) (fun entry _ => level entry.1)
      (by simp) distinct
    rw [run_check checkBefore rfl, compared, reported]
    rfl
  · -- After the run, each file holds its text.
    rw [run_check checkAfter rfl, compareTexts_of_holds holds, turns.outcomes_with, reported]
    rfl
  · simp [Report.isClean, Report.mapStatus]
  · -- Files that hold their texts are left alone.
    rw [run_write writeAfter mode, writeTexts_of_holds holds, turns.outcomes_with, reported]
    rfl
  · simp [Report.written, Report.mapStatus]

/-- Writing the sample profile's artifacts twice changes nothing the second time. -/
theorem run_again_sample : ∃ report after,
    standard.run sampleFiles sampleRequest = (.ok report, after) ∧
      standard.run after sampleRequest = (.ok (report.mapStatus fun _ => .unchanged), after) := by
  -- The sample's artifacts go to four places, of which none is the profile's.
  obtain ⟨report, after, finished⟩ := sample_run
  have level (artifact : Artifact) :
      Component.up ∉ (sampleRequest.layout.path artifact).components := by
    cases artifact <;> decide
  have again := run_again standard rfl level sample_separate
    (fun _ followed _ among artifact => sample_apart followed among artifact) finished
  exact ⟨report, after, finished, again.2.2.2.2.2.1⟩

end Blueprint

end BoardConfig
