import BoardConfig.Proofs.Command.Validation
import BoardConfig.Proofs.FileSystem.Standpoint
import BoardConfig.Proofs.Generation.Banner
import BoardConfig.Proofs.Generation.Influence
import BoardConfig.Proofs.Generation.Relocation
import BoardConfig.Proofs.Generation.Repetition

/-! Which selections of a profile's file give the same artifacts: those that its banner spells alike. -/

namespace BoardConfig

open FileSystem

namespace FileSystem

variable {fs : FileSystem} {cwd otherCwd : Location} {path otherPath : Path} {location : Location}

/-- What stands where does not depend on the working directory. -/
theorem alike_within (fs : FileSystem) (cwd otherCwd : Location) :
    Alike (fs.within cwd) [] (fs.within otherCwd) [] where
  same inner := by simp only [within, entryAt?_cwd]

/-- An absolute path is parallel to itself. -/
theorem leadAlike_of_isAbsolute (fs : FileSystem) (cwd otherCwd : Location) (absolute : path.isAbsolute)
    (short : path.text.utf8ByteSize ≤ pathLimit) :
    LeadAlike (fs.within cwd) [] (fs.within otherCwd) [] path path :=
  ⟨[], _, .of_isAbsolute _ absolute short, .of_isAbsolute _ absolute short, .inl ⟨rfl, rfl⟩⟩

/-- Two paths that lead to one file are parallel. -/
theorem leadAlike_of_locateFile {contents otherContents : ByteArray}
    (leads : (fs.within cwd).locateFile path = .ok (location, contents))
    (otherLeads : (fs.within otherCwd).locateFile otherPath = .ok (location, otherContents)) :
    LeadAlike (fs.within cwd) [] (fs.within otherCwd) [] path otherPath := by
  -- Each path comes by a directory and ends with the name of the file in it.
  obtain ⟨name, inside, comes⟩ := ComesBy.of_locateFile leads
  obtain ⟨otherName, otherInside, otherComes⟩ := ComesBy.of_locateFile otherLeads
  -- The file has one name, which both paths end with.
  have same : otherName = name := (List.cons.inj (otherInside.symm.trans inside)).1
  subst same
  refine ⟨location.tail, [otherName.text], ?_, ?_, .inl ⟨rfl, rfl⟩⟩
  · rw [List.append_nil]
    exact comes
  · rw [List.append_nil]
    exact otherComes

/-- Paths that lead to one file have parallel chains. -/
theorem parallelChains_of_locateFile {directory : Path} (absolute : directory.isAbsolute)
    {contents otherContents : ByteArray}
    (leads : (fs.within cwd).locateFile path = .ok (location, contents))
    (otherLeads : (fs.within otherCwd).locateFile otherPath = .ok (location, otherContents))
    (short : ∀ links base, (fs.within cwd).Walk directory path links base →
      base.text.utf8ByteSize ≤ pathLimit)
    (otherShort : ∀ links base, (fs.within otherCwd).Walk directory otherPath links base →
      base.text.utf8ByteSize ≤ pathLimit) :
    ParallelChains (fs.within cwd) [] (fs.within otherCwd) [] directory directory path otherPath where
  begins := leadAlike_of_locateFile leads otherLeads
  short := short
  otherShort := otherShort
  bases := by
    intro links otherLinks link otherLink base otherBase walk otherWalk holds otherHolds counterpart
      names otherNames fits otherFits
    obtain ⟨inner, place, otherPlace⟩ := counterpart.place
    rcases names.cases_of_file_eq counterpart.file otherNames with
      ⟨name, _, rfl, rfl⟩ | ⟨text, _, isPath, rfl, rfl⟩
    · -- A bare name stands for one path, whichever file names it.
      exact leadAlike_of_isAbsolute fs cwd otherCwd (Path.isAbsolute_join_of_isAbsolute absolute _) fits
    · obtain ⟨document, leads, _⟩ := holds.text
      obtain ⟨otherDocument, otherLeads, _⟩ := otherHolds.text
      by_cases fromRoot : (⟨text⟩ : Path).isAbsolute
      · -- An absolute path does not start from any directory.
        rw [Path.join_of_isAbsolute _ fromRoot] at fits ⊢
        rw [Path.join_of_isAbsolute _ fromRoot]
        exact leadAlike_of_isAbsolute fs cwd otherCwd fromRoot fits
      · -- A relative path goes on from the directory of the one file that both links were read from.
        have relative : (⟨text⟩ : Path).isAbsolute = false := by simpa using fromRoot
        have comes := ComesBy.beside leads isPath.ne_empty relative fits
        have otherComes := ComesBy.beside otherLeads isPath.ne_empty relative otherFits
        rw [place, List.append_nil] at comes
        rw [otherPlace, List.append_nil] at otherComes
        refine ⟨inner.tail, (⟨text⟩ : Path).pieces, ?_, ?_, .inl ⟨rfl, rfl⟩⟩
        · rw [List.append_nil]
          exact comes
        · rw [List.append_nil]
          exact otherComes

end FileSystem

/-- Without steps up, pieces lead down by the names among them. -/
theorem follow_of_level {pieces : List String} (plain : ∀ piece ∈ pieces, '/' ∉ piece.toList)
    (acceptable : ∀ piece ∈ pieces, '\x00' ∉ piece.toList) (level : ".." ∉ pieces) (start : Location) :
    ∃ inner : Location, follow start (pieces.map Step.ofPiece) = inner ++ start ∧
      inner.reverse.map (·.text) = (pieces.filterMap component?).map Component.display := by
  -- Where the pieces lead is told outwards, and the names on the way down inwards.
  induction pieces generalizing start with
  | nil => exact ⟨[], rfl, rfl⟩
  | cons piece rest ih =>
    simp only [List.mem_cons, not_or] at level
    have later := ih (fun other among => plain other (List.mem_cons_of_mem _ among))
      (fun other among => acceptable other (List.mem_cons_of_mem _ among)) level.2
    by_cases idle : isIdle piece
    · -- An idle piece neither moves nor counts.
      have moves := @follow_idle start [piece] (by simpa using idle)
      obtain ⟨inner, leads, names⟩ := later start
      refine ⟨inner, ?_, ?_⟩
      · rw [← leads, List.map_cons]
        show follow (follow start [Step.ofPiece piece]) _ = _
        rw [← List.map_singleton, moves]
      · rw [names, List.filterMap_cons_none (Path.component?_eq_none_iff.2 idle)]
    · -- Any other piece is a name, as none of them is a step up.
      have isName : isEntryName piece := by
        simp only [isEntryName, decide_eq_true_eq]
        exact ⟨idle, fun dots => level.1 dots.symm, plain piece List.mem_cons_self,
          acceptable piece List.mem_cons_self⟩
      have enters : Step.ofPiece piece = .enter ⟨piece, isName⟩ := by rw [Step.ofPiece, dif_pos isName]
      have counts : component? piece = some (.name piece) := by
        rw [component?, if_neg idle, if_neg fun dots => level.1 dots.symm]
      obtain ⟨inner, leads, names⟩ := later (⟨piece, isName⟩ :: start)
      refine ⟨inner ++ [⟨piece, isName⟩], ?_, ?_⟩
      · rw [List.map_cons, enters, List.append_assoc, List.singleton_append, ← leads]
        rfl
      · rw [List.filterMap_cons_some counts, List.reverse_append, List.map_append, names]
        rfl

/-- A path below an absolute one leads on from where that one leads. -/
theorem FileSystem.place_join (fs : FileSystem) {root path : Path} (absolute : root.isAbsolute)
    (relative : path.isAbsolute = false) :
    fs.place (root.join path) =
      follow (follow [] (root.pieces.map Step.ofPiece)) (path.pieces.map Step.ofPiece) := by
  -- The root leads from the top, and the path goes on from there.
  rw [place_join_of_relative fs (Path.filled_of_isAbsolute absolute) relative, place, if_pos absolute]

/-- Two paths below a root that lead to one file without steps up are named alike in banners. -/
theorem bannerSource_eq_of_level {fs otherFs : FileSystem} {root path otherPath : Path}
    {location : Location} (absolute : root.isAbsolute) (relative : path.isAbsolute = false)
    (otherRelative : otherPath.isAbsolute = false) (level : ".." ∉ path.pieces)
    (otherLevel : ".." ∉ otherPath.pieces) (leads : fs.locate (root.join path) = .ok location)
    (otherLeads : otherFs.locate (root.join otherPath) = .ok location) :
    bannerSource (root.join path) root = bannerSource (root.join otherPath) root := by
  -- Behind the root, both paths lead down by the same names, which are what the banner shows.
  have shown {fs : FileSystem} {path : Path} (relative : path.isAbsolute = false)
      (level : ".." ∉ path.pieces) (leads : fs.locate (root.join path) = .ok location) :
      ∃ inner : Location, location = inner ++ follow [] (root.pieces.map Step.ofPiece) ∧
        bannerSource (root.join path) root = "/".intercalate (inner.reverse.map (·.text)) := by
    obtain ⟨kept, _, _, _, _, joined⟩ := @Path.pieces_join root path relative
    -- A path that leads somewhere has no zero character.
    have acceptable : ∀ piece ∈ path.pieces, '\x00' ∉ piece.toList := by
      intro piece among zero
      apply (accepted_of_locate leads).2.1
      exact (mem_text_iff (by decide)).2 ⟨piece, by simp [joined, among], zero⟩
    obtain ⟨inner, arrives, names⟩ := follow_of_level (fun _ => Path.slash_not_mem_pieces) acceptable
      level (follow [] (root.pieces.map Step.ofPiece))
    refine ⟨inner, ?_, ?_⟩
    · rw [locate_ok leads, place_join fs absolute relative, arrives]
    · rw [bannerSource_join absolute relative, names]
  obtain ⟨inner, place, source⟩ := shown relative level leads
  obtain ⟨otherInner, otherPlace, otherSource⟩ := shown otherRelative otherLevel otherLeads
  rw [source, otherSource, List.append_cancel_right (place.symm.trans otherPlace)]

/-- The lines of banners for one profile are equal exactly if they name the same source. -/
theorem Template.bannerLine_inj {comment profile source other : String} :
    bannerLine comment profile source = bannerLine comment profile other ↔ source = other := by
  -- What stands before and behind the source is the same in both lines.
  rw [bannerLine, bannerLine, String.append_left_inj, String.append_right_inj]

/-- Texts rendered from one board are equal exactly if they name the same source. -/
theorem Template.render_eq_iff_source {template : Template} {board : Board} {source otherSource : String}
    {text other : String} (rendered : template.render (board.context source) = .ok text)
    (otherRendered : template.render (board.context otherSource) = .ok other) :
    text = other ↔ source = otherSource := by
  obtain ⟨body, segments, rfl⟩ := render_ok rendered
  obtain ⟨otherBody, otherSegments, rfl⟩ := render_ok otherRendered
  -- The body reads the parameters and the derived values, and the banner alone names the source.
  have same : renderSegments template.artifact (board.context source) template.segments =
      renderSegments template.artifact (board.context otherSource) template.segments :=
    renderSegments_congr fun _ source _ _ _ => by cases source <;> rfl
  rw [segments, otherSegments, Except.ok.injEq] at same
  rw [same, String.append_left_inj, banner_eq_bannerLine, banner_eq_bannerLine, String.append_left_inj]
  exact bannerLine_inj

/-- Comparisons that all give one answer give it for every artifact. -/
theorem compareTexts_of_same {layout : Layout} {fs : FileSystem} {texts : List (Artifact × String)}
    {same : Bool}
    (told : ∀ entry ∈ texts, fs.isUpToDate (layout.path entry.1) entry.2 = .ok same) :
    compareTexts layout fs texts = .ok (texts.map fun entry =>
      ⟨entry.1, layout.path entry.1, if same then .upToDate else .stale⟩) := by
  -- No comparison fails, so each of them is made.
  induction texts with
  | nil => rfl
  | cons first rest ih =>
    have others := ih fun entry behind => told entry (List.mem_cons_of_mem _ behind)
    simp only [compareTexts, told first List.mem_cons_self, others, List.map_cons]

/-- Files that all compare alike are clean if they are up to date. -/
theorem isClean_of_same {board : Board} {layout : Layout} {texts : List (Artifact × String)}
    {same : Bool} (filled : texts ≠ []) :
    (board.report (texts.map fun entry =>
      ⟨entry.1, layout.path entry.1, if same then .upToDate else .stale⟩)).isClean ↔ same = true := by
  -- One file is enough to see how all of them compare.
  obtain ⟨first, rest, rfl⟩ := List.exists_cons_of_ne_nil filled
  cases same <;> simp [Report.isClean, Board.report]

namespace Project

variable {fs : FileSystem} {project : Project} {start : Path}

/-- A project has its root at one of the directories that were searched, or else where the search began. -/
theorem root_of_discoverAmong {fallback : Path} {directories : List Path}
    (found : discoverAmong fs fallback directories = .ok project) :
    project.root = fallback ∨ project.root ∈ directories := by
  -- Induction on the directories, in the order of the search.
  induction directories with
  -- No directory is left, so the project is where the search began.
  | nil =>
    cases found
    exact .inl rfl
  | cons directory above ih =>
    rw [discoverAmong] at found
    split at found
    -- Without a manifest the search goes on above; with one it ends, here or in an error.
    · exact (ih found).imp_right (List.mem_cons_of_mem _)
    · split at found
      · cases found
      · split at found
        · cases found
        · cases found
          exact .inr List.mem_cons_self

/-- A project that is found from an absolute path has an absolute root. -/
theorem isAbsolute_root (absolute : start.isAbsolute) (found : discover fs start = .ok project) :
    project.root.isAbsolute := by
  -- In both cases the root comes from an absolute path.
  rcases root_of_discoverAmong found with same | among
  · rw [same]
    exact absolute
  · exact Path.isAbsolute_of_mem_ancestors absolute among

/-- A project's artifacts go to places from its root. -/
theorem root_of_layout {layout : Layout} (placed : project.layout = .ok layout) :
    layout.root = project.root := by
  -- The layout is made from the root and changed by overrides.
  unfold Project.layout at placed
  split at placed
  · cases placed
  · rename_i overrides given
    cases placed
    clear given
    -- No override moves the root.
    have kept (layout : Layout) : (overrides.foldl
        (fun layout (entry : Artifact × Path) => layout.withOverride entry.1 entry.2) layout).root =
          layout.root := by
      induction overrides generalizing layout with
      | nil => rfl
      | cons first rest ih => exact ih (layout.withOverride first.1 first.2)
    exact kept { root := project.root }

/-- A selection of a profile in the project of a working directory, and the file that it designates. -/
structure Selects (project : Project) (fs : FileSystem) (cwd : Location) (selection : Option String)
    (path : Path) (location : Location) : Prop where
  discovered : discover (fs.within cwd) cwd.path = .ok project
  /-- The selection stands for a path. -/
  resolved : ∃ reference, project.reference selection = .ok reference ∧
    reference.resolve project.profilesDirectory ⟨""⟩ = path
  /-- From the working directory, the path leads to the file. -/
  designates : ∃ contents, (fs.within cwd).locateFile path = .ok (location, contents)
  /-- No path on the way along the profile's bases is too long for the operating system. -/
  short : ∀ links base, (fs.within cwd).Walk project.profilesDirectory path links base →
    base.text.utf8ByteSize ≤ pathLimit

namespace Selects

variable {cwd otherCwd : Location} {selection otherSelection : Option String} {path otherPath : Path}
  {location : Location} {layout : Layout}

/-- The root of a project that is found from a working directory is absolute. -/
theorem isAbsolute_root (selects : project.Selects fs cwd selection path location) :
    project.root.isAbsolute :=
  -- The search began at the working directory, which is absolute.
  Project.isAbsolute_root (Location.isAbsolute_path _) selects.discovered

/-- So are the paths of its artifacts. -/
theorem isAbsolute_path (selects : project.Selects fs cwd selection path location)
    (placed : project.layout = .ok layout) (artifact : Artifact) :
    (layout.path artifact).isAbsolute := by
  rw [Layout.path, root_of_layout placed]
  exact Path.isAbsolute_join_of_isAbsolute selects.isAbsolute_root _

/-- Two selections of one file have parallel chains. -/
theorem parallelChains (selects : project.Selects fs cwd selection path location)
    (other : project.Selects fs otherCwd otherSelection otherPath location) :
    ParallelChains (fs.within cwd) [] (fs.within otherCwd) [] project.profilesDirectory
      project.profilesDirectory path otherPath := by
  -- Both paths lead to the one file, and the profiles directory is absolute.
  obtain ⟨contents, leads⟩ := selects.designates
  obtain ⟨otherContents, otherLeads⟩ := other.designates
  exact parallelChains_of_locateFile (Path.isAbsolute_join_of_isAbsolute selects.isAbsolute_root _) leads
    otherLeads selects.short other.short

/-- Two selections of one file are rendered from one board, to texts that tell their sources apart. -/
theorem renderRequest (selects : project.Selects fs cwd selection path location)
    (other : project.Selects fs otherCwd otherSelection otherPath location)
    (placed : project.layout = .ok layout) {check otherCheck : Bool} {request otherRequest : Request}
    (asked : project.request selection check = .ok request)
    (otherAsked : project.request otherSelection otherCheck = .ok otherRequest) :
    Together (fun found others => found.1.Counterpart path otherPath others.1 ∧
        (found.2 = others.2 ↔
          bannerSource path project.root = bannerSource otherPath project.root) ∧
        ∀ entry ∈ found.2, ∀ otherEntry ∈ others.2, entry.1 = otherEntry.1 →
          (entry.2 = otherEntry.2 ↔
            bannerSource path project.root = bannerSource otherPath project.root))
      (Blueprint.standard.renderRequest (fs.within cwd) request)
      (Blueprint.standard.renderRequest (fs.within otherCwd) otherRequest) := by
  -- Preparing goes alike for both; what is rendered from it is compared artifact by artifact.
  have chains := selects.parallelChains other
  obtain ⟨reference, selected, rfl⟩ := selects.resolved
  obtain ⟨otherReference, otherSelected, rfl⟩ := other.resolved
  rw [request_of_reference selected placed, Except.ok.injEq] at asked
  rw [request_of_reference otherSelected placed, Except.ok.injEq] at otherAsked
  subst asked otherAsked
  rcases (Blueprint.standard.prepare_alike (alike_within fs cwd otherCwd) chains).cases with
    ⟨e, otherError, fails, otherFails⟩ | ⟨board, otherBoard, prepared, otherPrepared, counterpart⟩
  · simp only [Blueprint.renderRequest, runRequest, fails, otherFails]
    exact .error _ _
  · obtain ⟨texts, rendered⟩ := Blueprint.renderRequest_of_prepare
      (show Blueprint.standard.prepare (fs.within cwd) (project.runRequest reference layout check).directory
        (project.runRequest reference layout check).reference = .ok board from prepared)
    obtain ⟨others, otherRendered⟩ := Blueprint.renderRequest_of_prepare
      (show Blueprint.standard.prepare (fs.within otherCwd)
        (project.runRequest otherReference layout otherCheck).directory
        (project.runRequest otherReference layout otherCheck).reference = .ok otherBoard from otherPrepared)
    have root : (project.runRequest reference layout check).layout.root = project.root :=
      root_of_layout placed
    have otherRoot : (project.runRequest otherReference layout otherCheck).layout.root = project.root :=
      root_of_layout placed
    have all := (Blueprint.renderRequest_ok rendered).2
    have otherAll := (Blueprint.renderRequest_ok otherRendered).2
    rw [root, counterpart.profile.source] at all
    rw [otherRoot, counterpart.context_eq, counterpart.profile.same] at otherAll
    -- Both texts of an artifact come from one template and one board, under the banner's two sources.
    have each : ∀ entry ∈ texts, ∀ otherEntry ∈ others, entry.1 = otherEntry.1 →
        (entry.2 = otherEntry.2 ↔
          bannerSource (reference.resolve project.profilesDirectory ⟨""⟩) project.root =
            bannerSource (otherReference.resolve project.profilesDirectory ⟨""⟩) project.root) := by
      intro entry among otherEntry otherAmong same
      have text := (renderAll_ok all).2 entry among
      have otherText := (renderAll_ok otherAll).2 otherEntry otherAmong
      rw [← same] at otherText
      exact Template.render_eq_iff_source text otherText
    rw [rendered, otherRendered]
    refine .ok ⟨counterpart, ⟨fun equal => ?_, fun equal => ?_⟩, each⟩
    · -- One artifact is enough to tell the sources apart.
      have listed : Artifact.bootStub ∈ texts.map (·.1) := by
        rw [(renderAll_ok all).1]
        exact Artifact.bootStub.mem_all
      obtain ⟨entry, among, _⟩ := List.mem_map.1 listed
      have otherAmong : entry ∈ others := by
        have same : texts = others := equal
        rwa [same] at among
      exact (each entry among entry otherAmong rfl).1 rfl
    · -- With one source both are rendered from one context.
      rw [equal] at all
      exact Except.ok.inj (all.symm.trans otherAll)

/-- A check after a run that has written the artifacts of one selection compares them for another one. -/
theorem check_after_run (selects : project.Selects fs cwd selection path location)
    (other : project.Selects fs otherCwd otherSelection otherPath location)
    (placed : project.layout = .ok layout) {request otherRequest : Request}
    (asked : project.request selection false = .ok request)
    (otherAsked : project.request otherSelection true = .ok otherRequest)
    (separate : layout.Separate (fs.within cwd))
    (apart : ∀ chain, (fs.within cwd).profileChain project.profilesDirectory path = .ok chain →
      ∀ link ∈ chain, ∀ artifact, (fs.within cwd).place (layout.path artifact) ≠ link.location)
    {report : Report} {after : FileSystem}
    (finished : Blueprint.standard.run (fs.within cwd) request = (.ok report, after)) :
    ∃ later, Blueprint.standard.run (after.within otherCwd) otherRequest =
        (.ok later, after.within otherCwd) ∧
      (later.isClean ↔ bannerSource path project.root = bannerSource otherPath project.root) := by
  have renders := selects.renderRequest other placed asked otherAsked
  have chains := (alike_within fs cwd otherCwd).profileChain (selects.parallelChains other)
  obtain ⟨reference, selected, rfl⟩ := selects.resolved
  obtain ⟨otherReference, otherSelected, rfl⟩ := other.resolved
  rw [request_of_reference selected placed, Except.ok.injEq] at asked
  rw [request_of_reference otherSelected placed, Except.ok.injEq] at otherAsked
  subst asked otherAsked
  obtain ⟨board, texts, rendered, _, turns⟩ := Blueprint.run_write_ok rfl finished
  rcases renders.cases with
    ⟨e, _, fails, _⟩ | ⟨_, ⟨otherBoard, others⟩, again, otherRendered, _, _, sources⟩
  · rw [rendered] at fails
    cases fails
  rw [rendered, Except.ok.injEq] at again
  subst again
  -- The files of the other chain are those of the first one, and none of them is written.
  have chainSame : (project.runRequest otherReference layout true).chain (after.within otherCwd) =
      (project.runRequest otherReference layout true).chain (fs.within otherCwd) := by
    rcases chains.cases with ⟨e, _, fails, _⟩ | ⟨chain, otherChain, followed, otherFollowed, related⟩
    · -- What was rendered had a chain.
      obtain ⟨chain, followed⟩ := Blueprint.chain_of_renderRequest rendered
      have none := followed.symm.trans fails
      cases none
    · refine Eq.trans ?_ otherFollowed.symm
      refine (turns.grows.within otherCwd).profileChain otherFollowed fun otherLink otherAmong written => ?_
      have listed : otherLink.location ∈ otherChain.map (·.location) := List.mem_map_of_mem otherAmong
      rw [← locations_eq related] at listed
      obtain ⟨link, among, same⟩ := List.mem_map.1 listed
      exact turns.not_mem_writtenPlaces (fun artifact => same ▸ apart chain followed link among artifact)
        written
  have checked : Blueprint.standard.renderRequest (after.within otherCwd)
      (project.runRequest otherReference layout true) = .ok (otherBoard, others) :=
    (Blueprint.renderRequest_congr chainSame .check).trans otherRendered
  -- Both lists have every artifact, and different ones stand at different places.
  have order := (renderAll_ok (Blueprint.renderRequest_ok rendered).2).1
  have otherOrder := (renderAll_ok (Blueprint.renderRequest_ok otherRendered).2).1
  have holds := turns.holds (separate.pairwise order)
  -- Every file holds the first selection's text, which is the other's just if the sources are the same.
  have told : ∀ otherEntry ∈ others, (after.within otherCwd).isUpToDate (layout.path otherEntry.1)
      otherEntry.2 = .ok (decide (bannerSource (reference.resolve project.profilesDirectory ⟨""⟩)
        project.root = bannerSource (otherReference.resolve project.profilesDirectory ⟨""⟩)
          project.root)) := by
    intro otherEntry otherAmong
    have listed : otherEntry.1 ∈ texts.map (·.1) := by
      rw [order]
      exact otherEntry.1.mem_all
    obtain ⟨entry, among, same⟩ := List.mem_map.1 listed
    have equal := sources entry among otherEntry otherAmong same
    have given := isUpToDate_eq_true_iff.1 (holds entry among)
    rw [isUpToDate_within (selects.isAbsolute_path placed otherEntry.1), ← same]
    by_cases alike : entry.2 = otherEntry.2
    · rw [decide_eq_true (equal.1 alike), ← alike]
      exact holds entry among
    · rw [decide_eq_false (mt equal.2 alike), isUpToDate_eq_false_iff]
      exact .inr ⟨_, given, mt toUTF8_inj.1 alike⟩
  -- There are artifacts to compare.
  have filled : others ≠ [] := by
    intro empty
    subst empty
    cases otherOrder
  have compared := congrArg (Except.map otherBoard.report) (compareTexts_of_same told)
  refine ⟨_, (Blueprint.run_check checked rfl).trans (congrArg (·, after.within otherCwd) compared), ?_⟩
  exact (isClean_of_same filled).trans decide_eq_true_iff

end Selects

end Project

/-- A command that succeeds in writing has had a run that succeeds. -/
theorem Command.run_of_generate_ok {project : Project} {fs : FileSystem} {selection : Option String}
    {request : Request} {format : Format} (discovered : Project.discover fs fs.cwd.path = .ok project)
    (asked : project.request selection false = .ok request)
    (done : ((Command.generate selection false format).run fs).failure = none) :
    ∃ report, Blueprint.standard.run fs request =
      (.ok report, ((Command.generate selection false format).run fs).fs) := by
  -- The command fails with the error of its run, so a run that fails is excluded.
  simp only [Command.run, discovered, Project.generate, asked] at done ⊢
  cases ran : Blueprint.standard.run fs request with
  | mk result after =>
    cases result with
    | error e => simp [ran] at done
    | ok report => exact ⟨report, rfl⟩

/-- A command that compares fails just if its run finds a file out of date. -/
theorem Command.failure_of_run_ok {project : Project} {fs after : FileSystem}
    {selection : Option String} {request : Request} {report : Report} {check : Bool}
    (discovered : Project.discover fs fs.cwd.path = .ok project)
    (asked : project.request selection check = .ok request)
    (ran : Blueprint.standard.run fs request = (.ok report, after)) (format : Format) :
    ((Command.generate selection check format).run fs).failure = none ↔ report.isClean := by
  -- The report decides, as there is no other way to fail behind a finished run.
  simp only [Command.run, discovered, Project.generate, asked, ran]
  cases report.isClean <;> simp

/--
Two selections of one profile file give the same artifacts exactly if their banners name one source.

From any two working directories of a project, both are rendered or neither is, and what they are rendered
to differs in nothing but the spelling of the source. Checking with one of them after writing with the
other one succeeds exactly if the spellings agree, as those of paths below the root without `..` do.
-/
theorem Project.Selects.generate_alike {project : Project} {fs : FileSystem}
    {cwd otherCwd location : Location} {selection otherSelection : Option String}
    {path otherPath : Path} {layout : Layout}
    (selects : project.Selects fs cwd selection path location)
    (other : project.Selects fs otherCwd otherSelection otherPath location)
    (placed : project.layout = .ok layout) :
    (∀ check request otherRequest, project.request selection check = .ok request →
      project.request otherSelection check = .ok otherRequest →
      Together (fun found others => found.1.Counterpart path otherPath others.1 ∧
          (found.2 = others.2 ↔
            bannerSource path project.root = bannerSource otherPath project.root))
        (Blueprint.standard.renderRequest (fs.within cwd) request)
        (Blueprint.standard.renderRequest (fs.within otherCwd) otherRequest)) ∧
    (∀ format otherFormat answer,
      (Command.generate selection false format).run (fs.within cwd) = answer → answer.failure = none →
      -- The artifacts go to different places, none of them a file of the profile.
      layout.Separate (fs.within cwd) →
      (∀ chain, (fs.within cwd).profileChain project.profilesDirectory path = .ok chain →
        ∀ link ∈ chain, ∀ artifact, (fs.within cwd).place (layout.path artifact) ≠ link.location) →
      -- The project is still that of the other working directory.
      Project.discover (answer.fs.within otherCwd) otherCwd.path = .ok project →
      (((Command.generate otherSelection true otherFormat).run (answer.fs.within otherCwd)).failure = none ↔
        bannerSource path project.root = bannerSource otherPath project.root)) ∧
    ∀ below otherBelow : Path, path = project.root.join below → otherPath = project.root.join otherBelow →
      below.isAbsolute = false → otherBelow.isAbsolute = false → ".." ∉ below.pieces →
      ".." ∉ otherBelow.pieces →
      bannerSource path project.root = bannerSource otherPath project.root := by
  -- Rendering together gives the first part, and the comparison of files the second.
  obtain ⟨reference, selected, _⟩ := selects.resolved
  obtain ⟨otherReference, otherSelected, _⟩ := other.resolved
  refine ⟨fun check request otherRequest asked otherAsked => ?_, ?_, ?_⟩
  · exact (selects.renderRequest other placed asked otherAsked).imp
      fun found others both => ⟨both.1, both.2.1⟩
  · intro format otherFormat answer written done separate apart still
    subst written
    have asked := request_of_reference selected placed false
    have otherAsked := request_of_reference otherSelected placed true
    obtain ⟨report, ran⟩ := Command.run_of_generate_ok selects.discovered asked done
    obtain ⟨later, checked, clean⟩ :=
      selects.check_after_run other placed asked otherAsked separate apart ran
    exact (Command.failure_of_run_ok still otherAsked checked otherFormat).trans clean
  · -- Both selections designate the file, so they lead to one location.
    intro below otherBelow same otherSame relative otherRelative level otherLevel
    obtain ⟨contents, leads⟩ := selects.designates
    obtain ⟨otherContents, otherLeads⟩ := other.designates
    rw [same] at leads ⊢
    rw [otherSame] at otherLeads ⊢
    exact bannerSource_eq_of_level selects.isAbsolute_root relative otherRelative level otherLevel
      (locateFile_ok leads).1 (locateFile_ok otherLeads).1

/-- A manifest that makes the sample profile the active one. -/
def sampleManifest : String :=
  "[profile]\nactive = \"board\"\ndirectory = \"\"\n"

/-- A project with the sample profile at its root, and a directory to work in. -/
def projectFiles : FileSystem where
  entries := [([sampleName], .file sampleDocument.toUTF8),
    ([⟨"osqa.toml", by decide⟩], .file sampleManifest.toUTF8),
    ([workName], .directory)]
  distinct := by decide
  rooted := List.forall_mem_cons.2 ⟨.inl rfl,
    List.forall_mem_cons.2 ⟨.inl rfl, List.forall_mem_singleton.2 (.inl rfl)⟩⟩
  cwd := []

/-- That project. -/
def activeProject : Project where
  root := ⟨"/"⟩
  manifest := some { active := some "board", directory := ⟨""⟩ }

/-- The active profile is rendered and written, and the project stays what it is. -/
theorem activeProject_steps : (Blueprint.standard.renderLinks? ⟨"/"⟩
    ⟨sampleProfile.nameAt ⟨"/board.toml"⟩, ⟨"/board.toml"⟩, [sampleName], sampleProfile⟩ []).any
      fun found =>
        (writeTexts { root := ⟨"/"⟩ } found.2 [] (projectFiles.within [])).1.toOption.isSome ∧
        Project.discover ((writeTexts { root := ⟨"/"⟩ } found.2 [] (projectFiles.within [])).2.within
          [workName]) (Location.path [workName]) = .ok activeProject := by
  -- The texts of the sample profile are rendered and written, and the tree after it is searched
  -- again.
  decide +kernel

/-- From any working directory, the root leads to the sample profile. -/
theorem locateFile_projectFiles (cwd : Location) :
    (projectFiles.within cwd).locateFile ⟨"/board.toml"⟩ = .ok ([sampleName], sampleDocument.toUTF8) := by
  unfold locateFile locate origin
  rfl

/-- From the root, the active profile is the sample profile. -/
theorem activeProject_selects :
    activeProject.Selects projectFiles [] none ⟨"/board.toml"⟩ [sampleName] := by
  have located := locateFile_projectFiles []
  refine ⟨by decide +kernel, ⟨.bare "board", by decide, by decide⟩, ⟨_, located⟩, ?_⟩
  -- The profile has no base, so its own path is the only one.
  intro links base walk
  have given : (projectFiles.within []).read ⟨"/board.toml"⟩ = .ok sampleDocument.toUTF8 := by
    rw [FileSystem.read, located]
  rw [walk.eq_start given]
  decide

/-- From the other directory, a path with a step up leads to the same file. -/
theorem activeProject_selects_path :
    activeProject.Selects projectFiles [workName] (some "../board.toml") ⟨"../board.toml"⟩
      [sampleName] := by
  have located : (projectFiles.within [workName]).locateFile ⟨"../board.toml"⟩ =
      .ok ([sampleName], sampleDocument.toUTF8) := by
    unfold locateFile locate origin
    rfl
  -- The step up leads from the working directory to the root.
  refine ⟨by decide +kernel, ⟨.file ⟨"../board.toml"⟩, by decide, by decide⟩,
    ⟨_, located⟩, ?_⟩
  intro links base walk
  have given : (projectFiles.within [workName]).read ⟨"../board.toml"⟩ =
      .ok sampleDocument.toUTF8 := by
    rw [FileSystem.read, located]
  rw [walk.eq_start given]
  decide

/-- The run that writes the active profile's artifacts. -/
def activeRequest : Request :=
  ⟨⟨"/"⟩, .bare "board", { root := ⟨"/"⟩ }, .write⟩

/-- The active profile is rendered, and once its artifacts are written the project is what it was. -/
theorem activeProject_rendered : ∃ found,
    Blueprint.standard.renderRequest (projectFiles.within []) activeRequest = .ok found ∧
      (writeTexts { root := ⟨"/"⟩ } found.2 [] (projectFiles.within [])).1.toOption.isSome ∧
      Project.discover ((writeTexts { root := ⟨"/"⟩ } found.2 [] (projectFiles.within [])).2.within
        [workName]) (Location.path [workName]) = .ok activeProject := by
  -- The chain is the sample profile's file alone, as it names no base.
  obtain ⟨found, made, both⟩ := (Option.any_eq_true _ _).1 activeProject_steps
  obtain ⟨writes, still⟩ := of_decide_eq_true both
  have located := locateFile_projectFiles []
  have followed : activeRequest.chain (projectFiles.within []) =
      .ok [⟨sampleProfile.nameAt ⟨"/board.toml"⟩, ⟨"/board.toml"⟩, [sampleName], sampleProfile⟩] := by
    have resolved : (ProfileReference.bare "board").resolve ⟨"/"⟩ ⟨""⟩ = ⟨"/board.toml"⟩ := by
      decide
    rw [activeRequest, Request.chain, resolved]
    exact profileChain_of_alone (readLink_of_text located parse_sampleDocument) rfl
  exact ⟨found, Blueprint.renderRequest_of_links followed made, writes, still⟩

/-- Writing the active profile's artifacts succeeds, and leaves the project what it is. -/
theorem activeProject_written :
    ((Command.generate none false .text).run (projectFiles.within [])).failure = none ∧
      Project.discover (((Command.generate none false .text).run (projectFiles.within [])).fs.within
        [workName]) (Location.path [workName]) = .ok activeProject := by
  obtain ⟨found, rendered, writes, still⟩ := activeProject_rendered
  have asked : activeProject.request none false = .ok activeRequest := by
    decide
  -- The run is that of the rendered texts, which were seen to be written.
  obtain ⟨outcomes, told⟩ := Option.isSome_iff_exists.1 writes
  have ran := Blueprint.run_write rendered rfl
  rw [activeRequest, ok_of_toOption told] at ran
  have clean := Blueprint.isClean_of_run_write rfl ran
  have discovered : Project.discover (projectFiles.within []) (projectFiles.within []).cwd.path =
      .ok activeProject := activeProject_selects.discovered
  have written : ((Command.generate none false .text).run (projectFiles.within [])).failure = none :=
    (Command.failure_of_run_ok discovered asked ran .text).2 clean
  -- The command leaves the file system that its run leaves.
  obtain ⟨report, again⟩ := Command.run_of_generate_ok discovered asked written
  have left := (Prod.mk.inj (again.symm.trans ran)).2
  refine ⟨written, ?_⟩
  rw [left]
  exact still

/-- The active profile's artifacts are out of date for the path that leads to the same file. -/
theorem Project.Selects.generate_alike_sample :
    activeProject.Selects projectFiles [] none ⟨"/board.toml"⟩ [sampleName] ∧
    activeProject.Selects projectFiles [workName] (some "../board.toml") ⟨"../board.toml"⟩
      [sampleName] ∧
    activeProject.layout = .ok { root := ⟨"/"⟩ } ∧
    ((Command.generate none false .text).run (projectFiles.within [])).failure = none ∧
    ((Command.generate (some "../board.toml") true .text).run
      (((Command.generate none false .text).run (projectFiles.within [])).fs.within
        [workName])).failure ≠ none := by
  -- The root's path and the one with a step up select one file.
  have placed : activeProject.layout = .ok { root := ⟨"/"⟩ } := by decide
  have alike := activeProject_selects.generate_alike activeProject_selects_path placed
  obtain ⟨written, still⟩ := activeProject_written
  have listed : ∀ first ∈ Artifact.all, ∀ second ∈ Artifact.all,
      (projectFiles.within []).place (Layout.path { root := ⟨"/"⟩ } first) =
        (projectFiles.within []).place (Layout.path { root := ⟨"/"⟩ } second) → first = second := by
    decide
  have separate : Layout.Separate { root := ⟨"/"⟩ } (projectFiles.within []) :=
    fun first second => listed first first.mem_all second second.mem_all
  -- None of the artifacts goes where a file stands.
  have outside : ∀ artifact ∈ Artifact.all,
      (projectFiles.within []).place (Layout.path { root := ⟨"/"⟩ } artifact) ∉
        (projectFiles.within []).files := by
    decide
  refine ⟨activeProject_selects, activeProject_selects_path, placed, written, ?_⟩
  -- The banner says `board.toml` for one of them and `../board.toml` for the other.
  have differs : bannerSource ⟨"/board.toml"⟩ activeProject.root ≠
      bannerSource ⟨"../board.toml"⟩ activeProject.root := by
    decide
  have checked := alike.2.1 .text .text _ rfl written separate
    (fun _ followed _ among artifact => place_ne_location outside followed among artifact) still
  exact mt checked.1 differs

end BoardConfig
