import BoardConfig.Generation

/-! What rendering a request gives, and what it reads of the file system for that. -/

namespace BoardConfig

/-- Where no artifact fails, each of them has the text of its template. -/
theorem renderEach_nil {context : RenderContext} {artifacts : List Artifact}
    {texts : List (Artifact × String)} (rendered : renderEach context artifacts = ([], texts)) :
    texts.map (·.1) = artifacts ∧
      ∀ entry ∈ texts, entry.1.template.render context = .ok entry.2 := by
  -- The induction follows the artifacts, each of which adds a text or a failure.
  induction artifacts generalizing texts with
  | nil =>
    cases rendered
    simp
  | cons artifact rest ih =>
    simp only [renderEach] at rendered
    -- A failure of this artifact would be among the failures.
    split at rendered
    · rename_i text succeeds
      simp only [Prod.mk.injEq] at rendered
      obtain ⟨clean, rfl⟩ := rendered
      have others := ih (Prod.ext clean rfl)
      refine ⟨by rw [List.map_cons, others.1], fun entry among => ?_⟩
      rcases List.mem_cons.1 among with rfl | behind
      · exact succeeds
      · exact others.2 entry behind
    · simp at rendered

/-- Rendering that succeeds gives each artifact, in order, the text of its template. -/
theorem renderAll_ok {context : RenderContext} {texts : List (Artifact × String)}
    (rendered : renderAll context = .ok texts) :
    texts.map (·.1) = Artifact.all ∧
      ∀ entry ∈ texts, entry.1.template.render context = .ok entry.2 := by
  -- Only an empty list of failures counts as success.
  unfold renderAll at rendered
  split at rendered
  · rename_i clean
    cases rendered
    exact renderEach_nil clean
  · cases rendered

/-- The files of the profile that a request is about. -/
def Request.chain (request : Request) (fs : FileSystem) : Except ProfileError (List ProfileLink) :=
  fs.profileChain request.directory (request.reference.resolve request.directory ⟨""⟩)

namespace Blueprint

variable {blueprint : Blueprint} {fs after : FileSystem} {request : Request}

/-- A board is a loaded profile with the values derived from its parameters. -/
theorem prepare_ok {directory : Path} {reference : ProfileReference} {board : Board}
    (prepared : blueprint.prepare fs directory reference = .ok board) :
    Profile.load fs blueprint.schema directory reference = .ok board.profile ∧
      evaluate blueprint.rules board.profile.parameters = .ok board.derived := by
  -- Both steps must succeed, and the board keeps what they gave.
  unfold prepare at prepared
  split at prepared
  · cases prepared
  · rename_i profile loaded
    split at prepared <;> cases prepared
    rename_i derived evaluated
    exact ⟨loaded, evaluated⟩

/-- The texts of a request are those of its profile's board. -/
theorem renderRequest_ok {board : Board} {texts : List (Artifact × String)}
    (rendered : blueprint.renderRequest fs request = .ok (board, texts)) :
    blueprint.prepare fs request.directory request.reference = .ok board ∧
      renderAll (board.context (bannerSource board.profile.source request.layout.root)) =
        .ok texts := by
  -- Preparing comes first, and the texts are rendered from the board alone.
  unfold renderRequest at rendered
  split at rendered
  · cases rendered
  · rename_i prepared
    split at rendered
    · cases rendered
    · rename_i all
      cases rendered
      exact ⟨prepared, all⟩

/-- Loading, deriving and rendering write no file, so none of them tells of one. -/
theorem renderRequest_error {e : GenerationError}
    (failed : blueprint.renderRequest fs request = .error e) (path : Path) (written : List Path)
    (cause : OsError) : e ≠ .write path written cause := by
  -- The ways to fail are in preparing and in rendering, and neither writes.
  unfold renderRequest prepare renderAll at failed
  -- Each way to fail has a kind of error of its own.
  split at failed
  · rename_i unprepared
    cases failed
    split at unprepared
    · cases unprepared
      simp
    · split at unprepared <;> cases unprepared
      simp
  · split at failed <;> cases failed
    rename_i unrendered
    split at unrendered <;> cases unrendered
    simp

/-- A request is rendered alike over the same profile's files, in either mode. -/
theorem renderRequest_congr (chain : request.chain after = request.chain fs) (mode : Mode) :
    blueprint.renderRequest after { request with mode } = blueprint.renderRequest fs request := by
  -- The file system is read for the chain and for nothing else, and the mode not at all.
  unfold Request.chain at chain
  simp only [renderRequest, prepare, Profile.load, chain]

/-- A request that is rendered is about a profile whose files can be read. -/
theorem chain_of_renderRequest {board : Board} {texts : List (Artifact × String)}
    (rendered : blueprint.renderRequest fs request = .ok (board, texts)) :
    ∃ chain, request.chain fs = .ok chain := by
  -- Without a chain no profile is loaded.
  cases followed : request.chain fs with
  | ok chain => exact ⟨chain, rfl⟩
  | error e =>
    unfold Request.chain at followed
    simp [renderRequest, prepare, Profile.load, followed] at rendered

end Blueprint

end BoardConfig
