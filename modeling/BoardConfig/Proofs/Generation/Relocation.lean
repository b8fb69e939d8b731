import BoardConfig.Proofs.FileSystem.AlikeUpdate
import BoardConfig.Proofs.Generation.Run
import BoardConfig.Proofs.Profile.Counterparts

/-! A project gives the same files wherever it is checked out. -/

namespace BoardConfig

open FileSystem

/-- A relative path that does not climb above a place when it starts so many directories below it. -/
structure Path.StaysBelow (depth : Nat) (path : Path) : Prop where
  relative : path.isAbsolute = false
  below : staysBelow depth (path.pieces.map Step.ofPiece)

instance (depth : Nat) (path : Path) : Decidable (path.StaysBelow depth) :=
  decidable_of_iff (path.isAbsolute = false ∧ staysBelow depth (path.pieces.map Step.ofPiece))
    ⟨fun both => ⟨both.1, both.2⟩, fun stays => ⟨stays.relative, stays.below⟩⟩

/-- The name of a profile's file is a single piece, which does not lead up. -/
theorem pieces_profileFile {name : String} (bare : '/' ∉ name.toList) :
    (⟨name ++ profileSuffix⟩ : Path).pieces = [name ++ profileSuffix] ∧
      (⟨name ++ profileSuffix⟩ : Path).isAbsolute = false ∧
      Step.ofPiece (name ++ profileSuffix) ≠ .up := by
  -- A name without a slash is one piece, and so it is with the suffix.
  have plain : '/' ∉ (name ++ profileSuffix).toList := by
    simp [String.toList_append, bare, profileSuffix]
  obtain ⟨pieces, relative⟩ := Path.pieces_of_plain plain
  refine ⟨pieces, relative, fun up => ?_⟩
  -- The suffix alone is longer than the step up.
  have lengths := congrArg String.length (Step.ofPiece_eq_up up)
  have suffix : profileSuffix.length = 5 := by decide
  have dots : "..".length = 2 := by decide
  rw [String.length_append, suffix, dots] at lengths
  omega

/-- What stays below a place does so with the name of a profile's file behind it. -/
theorem Path.StaysBelow.join_profile {depth : Nat} {path : Path} (stays : path.StaysBelow depth)
    {name : String} (bare : '/' ∉ name.toList) :
    (path.join ⟨name ++ profileSuffix⟩).StaysBelow depth := by
  -- The name adds one piece, behind those of the path.
  obtain ⟨pieces, relative, level⟩ := pieces_profileFile bare
  obtain ⟨kept, blanks, parts, _, _, joined⟩ := @Path.pieces_join path _ relative
  have below := stays.below
  -- The pieces that are kept are the first of the path, and the name behind them leads down.
  rw [parts, List.map_append] at below
  constructor
  · by_cases empty : path.text = ""
    · rw [Path.join_of_empty empty, relative]
    · rw [Path.isAbsolute_join relative empty, stays.relative]
  · rw [joined, pieces, List.map_append]
    exact staysBelow_append (staysBelow_of_append below) (by simp [level.symm])

namespace FileSystem

/-- A project's root is an absolute path that leads to a directory. -/
structure IsRoot (fs : FileSystem) (root : Path) (top : Location) : Prop where
  absolute : root.isAbsolute
  leads : fs.directory? root = some top

variable {first second : FileSystem} {root otherRoot path : Path} {top otherTop : Location}

/-- An absolute path is not empty. -/
theorem IsRoot.filled (isRoot : first.IsRoot root top) : root.text ≠ "" :=
  Path.filled_of_isAbsolute isRoot.absolute

/-- A root stays one while the file system grows. -/
theorem IsRoot.grows (isRoot : first.IsRoot root top) {written : List Location}
    {after : FileSystem} (grows : Grows written first after) : after.IsRoot root top where
  absolute := isRoot.absolute
  leads := by
    -- Where a path led before it still leads, and a directory stays one.
    obtain ⟨located, directory⟩ := directory?_eq_some_iff.1 isRoot.leads
    exact directory?_eq_some_iff.2 ⟨grows.locate_ok located, grows.directory directory⟩

/-- What is joined to a root is absolute. -/
theorem IsRoot.isAbsolute_join (isRoot : first.IsRoot root top) {depth : Nat}
    (stays : path.StaysBelow depth) : (root.join path).isAbsolute := by
  -- A relative path behind an absolute one makes up an absolute path.
  rw [Path.isAbsolute_join stays.relative isRoot.filled]
  exact isRoot.absolute

/-- A path that stays below the root is parallel below two of them. -/
theorem IsRoot.parallel (isRoot : first.IsRoot root top) (isOther : second.IsRoot otherRoot otherTop)
    (stays : path.StaysBelow 0) (short : (root.join path).text.utf8ByteSize ≤ pathLimit)
    (otherShort : (otherRoot.join path).text.utf8ByteSize ≤ pathLimit) :
    Parallel first top second otherTop [] path.pieces (root.join path) (otherRoot.join path) where
  comes := .join isRoot.leads stays.relative short
  otherComes := .join isOther.leads stays.relative otherShort
  confined := .inr stays.below

end FileSystem

/-- A source below the root is named by its part of the path, whatever the root is. -/
theorem bannerSource_join {root path : Path} (absolute : root.isAbsolute)
    (relative : path.isAbsolute = false) :
    bannerSource (root.join path) root =
      "/".intercalate ((path.pieces.filterMap component?).map Component.display) := by
  -- The root is stripped again from what was joined to it.
  obtain ⟨rest, stripped, components⟩ := Path.strip?_join absolute relative
  rw [bannerSource, stripped, Option.getD_some, components]

/-- What a run is asked for in terms of a project, wherever that is. -/
structure ProjectRequest where
  directory : Path
  /-- The profile, by its name or by a path from the root. -/
  reference : ProfileReference
  overrides : List (Artifact × Path)
  /-- Whether to write or to compare. -/
  mode : Mode

namespace ProjectRequest

/-- The request for the project at a root. -/
def rootedAt (asked : ProjectRequest) (root : Path) : Request where
  directory := root.join asked.directory
  reference :=
    match asked.reference with
    | .bare name => .bare name
    | .file path => .file (root.join path)
  layout := { root, overrides := asked.overrides }
  mode := asked.mode

/-- The path of the profile's file from the root. -/
def profilePath (asked : ProjectRequest) : Path :=
  asked.reference.resolve asked.directory ⟨""⟩

/-- The path of an artifact from the root. -/
def destination (asked : ProjectRequest) (artifact : Artifact) : Path :=
  (asked.overrides.lookup artifact).getD ⟨artifact.defaultPath⟩

/-- No path of a request is absolute or climbs above the root. -/
structure IsConfined (asked : ProjectRequest) : Prop where
  directory : asked.directory.StaysBelow 0
  /-- A bare name is one without slashes. -/
  bare : ∀ name, asked.reference = .bare name → '/' ∉ name.toList
  file : ∀ path, asked.reference = .file path → path.StaysBelow 0
  overrides : ∀ entry ∈ asked.overrides, entry.2.StaysBelow 0

/-- No file on the way along the profile's bases names a base that is absolute or climbs above the root. -/
def BasesStay (asked : ProjectRequest) (fs : FileSystem) (root : Path) (top : Location) : Prop :=
  ∀ links link name inner text,
    fs.Walk (root.join asked.directory) (root.join asked.profilePath) links link.path →
    fs.Holds link → link.location = name :: (inner ++ top) → link.file.base = some text →
    NamesPath text → (⟨text⟩ : Path).StaysBelow inner.length

/-- No path that a run writes to is too long for the operating system. -/
structure Fits (asked : ProjectRequest) (fs : FileSystem) (root : Path) : Prop where
  destinations : ∀ artifact, (root.join (asked.destination artifact)).text.utf8ByteSize ≤ pathLimit
  /-- Nor is the path of a temporary file beside a destination. -/
  temporaries : ∀ artifact, fs.isTooDeep (directoryOf (root.join (asked.destination artifact))) = false

/-- No path that a run forms is too long for the operating system. -/
structure IsShort (asked : ProjectRequest) (fs : FileSystem) (root : Path) : Prop
    extends asked.Fits fs root where
  /-- The paths of the profile's file and of its bases. -/
  profiles : ∀ links path,
    fs.Walk (root.join asked.directory) (root.join asked.profilePath) links path →
    path.text.utf8ByteSize ≤ pathLimit

variable {asked : ProjectRequest} {first second : FileSystem} {root otherRoot : Path}
  {top otherTop : Location}

/-- The profile's file stays below the root. -/
theorem IsConfined.profilePath (confined : asked.IsConfined) : asked.profilePath.StaysBelow 0 := by
  -- A bare name stands for a file of the profiles directory, and a path for itself.
  unfold ProjectRequest.profilePath
  cases named : asked.reference with
  | bare name => exact confined.directory.join_profile (confined.bare name named)
  | file path =>
    rw [ProfileReference.resolve, Path.join_of_empty rfl]
    exact confined.file path named

/-- The artifacts' places stay below the root. -/
theorem IsConfined.destination (confined : asked.IsConfined) (artifact : Artifact) :
    (asked.destination artifact).StaysBelow 0 := by
  -- An artifact goes to its usual place, unless an override gives it another one.
  have usual : (⟨artifact.defaultPath⟩ : Path).StaysBelow 0 := by
    cases artifact <;> decide
  unfold ProjectRequest.destination
  cases found : asked.overrides.lookup artifact with
  | none => exact usual
  | some path =>
    -- An override that is looked up is one of those that are confined.
    obtain ⟨front, behind, parts, _⟩ := List.lookup_eq_some_iff.1 found
    exact confined.overrides (artifact, path) (by simp [parts])

/-- At a root, the profile's file is looked up at its path from there. -/
theorem resolve_rootedAt (confined : asked.IsConfined) :
    (asked.rootedAt root).reference.resolve (asked.rootedAt root).directory ⟨""⟩ =
      root.join asked.profilePath := by
  -- The path from the root is the same, whether the root is put in front before or after.
  unfold rootedAt profilePath
  cases named : asked.reference with
  | bare name =>
    -- The name is joined to a directory that was joined to the root before.
    obtain ⟨_, relative, _⟩ := pieces_profileFile (confined.bare name named)
    exact Path.join_join root confined.directory.relative relative
  | file path =>
    simp only [ProfileReference.resolve]
    rw [Path.join_of_empty rfl, Path.join_of_empty rfl]

/-- The profile's files below two roots make up parallel chains. -/
theorem IsConfined.parallelChains (confined : asked.IsConfined) (isRoot : first.IsRoot root top)
    (isOther : second.IsRoot otherRoot otherTop) (bases : asked.BasesStay first root top)
    (short : asked.IsShort first root) (otherShort : asked.IsShort second otherRoot) :
    ParallelChains first top second otherTop (root.join asked.directory)
      (otherRoot.join asked.directory) (root.join asked.profilePath)
      (otherRoot.join asked.profilePath) where
  begins := ⟨[], _, isRoot.parallel isOther confined.profilePath (short.profiles [] _ .start)
    (otherShort.profiles [] _ .start)⟩
  short := short.profiles
  otherShort := otherShort.profiles
  bases := by
    -- Each file names its base in the same words below both roots.
    intro links otherLinks link otherLink base otherBase walk otherWalk holds otherHolds counterpart
      names otherNames fits otherFits
    rcases names.cases_of_file_eq counterpart.file otherNames with
      ⟨name, plain, rfl, rfl⟩ | ⟨text, named, isPath, rfl, rfl⟩
    · -- A bare name stands for a file in the profiles directory of either project.
      have bareName : '/' ∉ name.toList := fun slash => plain (.inl slash)
      obtain ⟨_, relative, _⟩ := pieces_profileFile bareName
      rw [Path.join_join root confined.directory.relative relative] at fits ⊢
      rw [Path.join_join otherRoot confined.directory.relative relative] at otherFits ⊢
      exact ⟨[], _, isRoot.parallel isOther (confined.directory.join_profile bareName) fits otherFits⟩
    · -- A path goes on from the directory of the file that names it, at one depth in both projects.
      obtain ⟨document, leads, _⟩ := holds.text
      obtain ⟨otherDocument, otherLeads, _⟩ := otherHolds.text
      obtain ⟨depth, place, otherPlace⟩ := counterpart.place
      cases depth with
      | nil =>
        -- The root is a directory and no file.
        have stands := (locateFile_ok leads).2
        rw [place, List.nil_append, (directory?_eq_some_iff.1 isRoot.leads).2] at stands
        cases stands
      | cons name inner =>
        -- The depth of the file is how far its base may lead up.
        have stays := bases links link name inner text walk holds place named isPath
        have comes := ComesBy.beside leads isPath.ne_empty stays.relative fits
        have otherComes := ComesBy.beside otherLeads isPath.ne_empty stays.relative otherFits
        rw [place] at comes
        rw [otherPlace] at otherComes
        exact ⟨inner, _, comes, otherComes, .inr stays.below⟩

end ProjectRequest

/-- A board and one that differs from it in nothing but the source of the profile. -/
structure Board.Counterpart (start otherStart : Path) (board other : Board) : Prop where
  profile : board.profile.Counterpart start otherStart other.profile
  derived : other.derived = board.derived

/-- Counterparts that name the same source are rendered in the same context. -/
theorem Board.Counterpart.context_eq {start otherStart : Path} {board other : Board}
    (counterpart : board.Counterpart start otherStart other) (source : String) :
    other.context source = board.context source := by
  -- A context shows the profile but for its source, which is given anew.
  rw [Board.context, Board.context, counterpart.derived, counterpart.profile.same]

/-- What outcomes tell of each artifact, whatever the path of its file is. -/
def statusesOf (outcomes : List Outcome) : List (Artifact × Status) :=
  outcomes.map fun outcome => (outcome.artifact, outcome.status)

/-- Reports that tell the same, except for the paths of the files. -/
structure Report.Agrees (report other : Report) : Prop where
  profile : report.profile = other.profile
  derived : report.derived = other.derived
  statuses : report.outcomes.map (fun outcome => (outcome.artifact, outcome.status)) =
    other.outcomes.map fun outcome => (outcome.artifact, outcome.status)

/-- Writing a text is growth, whatever comes of it. -/
theorem FileSystem.grows_writeIfChanged (fs : FileSystem) (path : Path) (text : String) :
    ∃ written, Grows written fs (fs.writeIfChanged path text).2 := by
  -- The three outcomes are a failure, a file left alone, and a file written.
  cases done : fs.writeIfChanged path text with
  | mk result after =>
    cases result with
    | error e => exact ⟨_, (writeIfChanged_error done).2⟩
    | ok changed =>
      cases changed with
      | false =>
        rw [(writeIfChanged_false done).2]
        exact ⟨_, Grows.refl fs⟩
      | true => exact ⟨_, (writeIfChanged_true done).2.1⟩

namespace ProjectRequest

/-- Two file systems that hold one project below two roots, where its files can be written. -/
structure HeldAlike (asked : ProjectRequest) (first : FileSystem) (root : Path) (top : Location)
    (second : FileSystem) (otherRoot : Path) (otherTop : Location) : Prop where
  alike : Alike first top second otherTop
  isRoot : first.IsRoot root top
  isOther : second.IsRoot otherRoot otherTop
  fits : asked.Fits first root
  otherFits : asked.Fits second otherRoot

variable {asked : ProjectRequest} {first second : FileSystem} {root otherRoot : Path}
  {top otherTop : Location}

/-- Files can still be written while the file system grows. -/
theorem Fits.grows (fits : asked.Fits first root) {written : List Location} {after : FileSystem}
    (grows : Grows written first after) : asked.Fits after root where
  destinations := fits.destinations
  temporaries artifact := by
    rw [← fits.temporaries artifact, isTooDeep, isTooDeep, grows.cwd]

namespace HeldAlike

/-- The places of an artifact below the two roots are parallel. -/
theorem parallel (held : asked.HeldAlike first root top second otherRoot otherTop)
    (confined : asked.IsConfined) (artifact : Artifact) :
    Parallel first top second otherTop [] (asked.destination artifact).pieces
      ((asked.rootedAt root).layout.path artifact) ((asked.rootedAt otherRoot).layout.path artifact) :=
  held.isRoot.parallel held.isOther (confined.destination artifact) (held.fits.destinations artifact)
    (held.otherFits.destinations artifact)

/-- The turn of an artifact ends alike, and the project is held alike afterwards. -/
theorem writeIfChanged (held : asked.HeldAlike first root top second otherRoot otherTop)
    (confined : asked.IsConfined) (artifact : Artifact) (text : String) :
    ∃ outcome after otherAfter,
      first.writeIfChanged ((asked.rootedAt root).layout.path artifact) text = (outcome, after) ∧
      second.writeIfChanged ((asked.rootedAt otherRoot).layout.path artifact) text =
        (outcome, otherAfter) ∧
      asked.HeldAlike after root top otherAfter otherRoot otherTop := by
  -- The destinations are parallel, so writing one ends alike; what has grown is held as before.
  have stays := confined.destination artifact
  have ends := held.alike.writeIfChanged (held.parallel confined artifact)
    (held.isRoot.isAbsolute_join stays) (held.isOther.isAbsolute_join stays)
    (held.fits.temporaries artifact) (held.otherFits.temporaries artifact) text
  obtain ⟨written, grows⟩ :=
    first.grows_writeIfChanged ((asked.rootedAt root).layout.path artifact) text
  obtain ⟨otherWritten, otherGrows⟩ :=
    second.grows_writeIfChanged ((asked.rootedAt otherRoot).layout.path artifact) text
  obtain ⟨outcome, after, otherAfter, done, otherDone, alike⟩ := ends.cases
  rw [done] at grows
  rw [otherDone] at otherGrows
  exact ⟨outcome, after, otherAfter, done, otherDone, alike, held.isRoot.grows grows,
    held.isOther.grows otherGrows, held.fits.grows grows, held.otherFits.grows otherGrows⟩

/-- The same texts are written alike below two roots, or the same one fails. -/
theorem writeTexts (held : asked.HeldAlike first root top second otherRoot otherTop)
    (confined : asked.IsConfined) (texts : List (Artifact × String)) (written otherWritten : List Path) :
    ∃ told others after otherAfter,
      writeTexts (asked.rootedAt root).layout texts written first = (told, after) ∧
      writeTexts (asked.rootedAt otherRoot).layout texts otherWritten second = (others, otherAfter) ∧
      Together (fun outcomes others => statusesOf outcomes = statusesOf others) told others ∧
      asked.HeldAlike after root top otherAfter otherRoot otherTop := by
  -- Each turn leaves a project that is held alike, over which the others go on.
  induction texts generalizing first second written otherWritten with
  | nil => exact ⟨_, _, first, second, rfl, rfl, .ok rfl, held⟩
  | cons entry rest ih =>
    obtain ⟨artifact, text⟩ := entry
    obtain ⟨outcome, after, otherAfter, done, otherDone, later⟩ :=
      held.writeIfChanged confined artifact text
    simp only [BoardConfig.writeTexts, done, otherDone]
    cases outcome with
    | error e => exact ⟨_, _, after, otherAfter, rfl, rfl, .error _ _, later⟩
    | ok changed =>
      -- The paths written before only count for what a failure reports.
      obtain ⟨told, others, last, otherLast, ran, otherRan, together, heldLast⟩ := ih later
        (if changed then written ++ [(asked.rootedAt root).layout.path artifact] else written)
        (if changed then otherWritten ++ [(asked.rootedAt otherRoot).layout.path artifact]
          else otherWritten)
      simp only [ran, otherRan]
      cases together with
      | error e otherError => exact ⟨_, _, last, otherLast, rfl, rfl, .error _ _, heldLast⟩
      | ok same =>
        refine ⟨_, _, last, otherLast, rfl, rfl, .ok ?_, heldLast⟩
        exact congrArg (List.cons _) same

/-- The same texts compare alike below two roots, or the same one fails. -/
theorem compareTexts (held : asked.HeldAlike first root top second otherRoot otherTop)
    (confined : asked.IsConfined) (texts : List (Artifact × String)) :
    Together (fun outcomes others => statusesOf outcomes = statusesOf others)
      (compareTexts (asked.rootedAt root).layout first texts)
      (compareTexts (asked.rootedAt otherRoot).layout second texts) := by
  -- Induction on the texts, each of which is compared alike below both roots.
  induction texts with
  | nil => exact .ok rfl
  | cons entry rest ih =>
    obtain ⟨artifact, text⟩ := entry
    -- A comparison changes nothing, so all of them are made in the same two file systems.
    have compared := held.alike.isUpToDate (held.parallel confined artifact) text
    simp only [BoardConfig.compareTexts, compared]
    cases second.isUpToDate ((asked.rootedAt otherRoot).layout.path artifact) text with
    | error e => exact .error _ _
    | ok same =>
      rcases ih.cases with
        ⟨e, otherError, fails, otherFails⟩ | ⟨outcomes, others, told, otherTold, statuses⟩
      · simp only [fails, otherFails]
        exact .error _ _
      · simp only [told, otherTold]
        exact .ok (congrArg (List.cons _) statuses)

end HeldAlike

end ProjectRequest

namespace Blueprint

variable {blueprint : Blueprint} {asked : ProjectRequest} {first second : FileSystem}
  {root otherRoot : Path} {top otherTop : Location}

/-- Parallel profiles are prepared alike, or neither is. -/
theorem prepare_alike (blueprint : Blueprint) (alike : Alike first top second otherTop)
    {directory otherDirectory : Path}
    {reference otherReference : ProfileReference}
    (chains : ParallelChains first top second otherTop directory otherDirectory
      (reference.resolve directory ⟨""⟩) (otherReference.resolve otherDirectory ⟨""⟩)) :
    Together (Board.Counterpart (reference.resolve directory ⟨""⟩)
        (otherReference.resolve otherDirectory ⟨""⟩))
      (blueprint.prepare first directory reference)
      (blueprint.prepare second otherDirectory otherReference) := by
  -- Preparing loads the profile and evaluates the rules over its parameters.
  unfold prepare
  -- A profile that differs in its source alone has the same parameters to derive from.
  rcases (Profile.load_alike alike blueprint.schema chains).cases with
    ⟨e, otherError, fails, otherFails⟩ | ⟨profile, other, loaded, otherLoaded, counterpart⟩
  · simp only [fails, otherFails]
    exact .error _ _
  · have parameters : other.parameters = profile.parameters := by rw [counterpart.same]
    simp only [loaded, otherLoaded, parameters]
    cases evaluate blueprint.rules profile.parameters with
    | error cause => exact .error _ _
    | ok derived => exact .ok ⟨counterpart, rfl⟩

/-- A project is rendered to the same texts below both roots, or below neither. -/
theorem renderRequest_relocate (blueprint : Blueprint)
    (held : asked.HeldAlike first root top second otherRoot otherTop)
    (confined : asked.IsConfined)
    (chains : ParallelChains first top second otherTop (root.join asked.directory)
      (otherRoot.join asked.directory) (root.join asked.profilePath)
      (otherRoot.join asked.profilePath)) :
    Together (fun found other => found.1.Counterpart (root.join asked.profilePath)
        (otherRoot.join asked.profilePath) other.1 ∧ other.2 = found.2)
      (blueprint.renderRequest first (asked.rootedAt root))
      (blueprint.renderRequest second (asked.rootedAt otherRoot)) := by
  have resolved : (asked.rootedAt root).reference.resolve (asked.rootedAt root).directory ⟨""⟩ =
      root.join asked.profilePath :=
    ProjectRequest.resolve_rootedAt confined
  have otherResolved : (asked.rootedAt otherRoot).reference.resolve
      (asked.rootedAt otherRoot).directory ⟨""⟩ = otherRoot.join asked.profilePath :=
    ProjectRequest.resolve_rootedAt confined
  have chainsAt : ParallelChains first top second otherTop (asked.rootedAt root).directory
      (asked.rootedAt otherRoot).directory
      ((asked.rootedAt root).reference.resolve (asked.rootedAt root).directory ⟨""⟩)
      ((asked.rootedAt otherRoot).reference.resolve (asked.rootedAt otherRoot).directory ⟨""⟩) := by
    rw [resolved, otherResolved]
    exact chains
  -- The profile's file lies at one path from either root.
  have prepared : Together _ (blueprint.prepare first _ _) (blueprint.prepare second _ _) :=
    prepare_alike blueprint held.alike chainsAt
  rw [resolved, otherResolved] at prepared
  unfold renderRequest
  rcases prepared.cases with
    ⟨e, otherError, fails, otherFails⟩ | ⟨board, other, made, otherMade, counterpart⟩
  · simp only [fails, otherFails]
    exact .error _ _
  · -- Below each root the banner names the profile's file by its path from there.
    have relative := confined.profilePath.relative
    have source := bannerSource_join held.isRoot.absolute relative
    have otherSource := bannerSource_join held.isOther.absolute relative
    have sourceAt : other.profile.source = otherRoot.join asked.profilePath := by
      rw [counterpart.profile.same]
    have root_eq : (asked.rootedAt root).layout.root = root := rfl
    have otherRoot_eq : (asked.rootedAt otherRoot).layout.root = otherRoot := rfl
    simp only [made, otherMade, counterpart.profile.source, sourceAt, root_eq, otherRoot_eq, source,
      otherSource, counterpart.context_eq]
    cases renderAll (board.context _) with
    | error e => exact .error _ _
    | ok texts => exact .ok ⟨counterpart, rfl⟩

/--
What a run gives depends on the project and not on where it is checked out.

Below any two roots it succeeds both times with the same report, or fails both times, and either way
the same files stand below them afterwards, with the same bytes.
-/
theorem run_relocate (blueprint : Blueprint) (isRoot : first.IsRoot root top)
    (isOther : second.IsRoot otherRoot otherTop) (alike : Alike first top second otherTop)
    (confined : asked.IsConfined) (bases : asked.BasesStay first root top)
    (short : asked.IsShort first root) (otherShort : asked.IsShort second otherRoot) :
    Together Report.Agrees (blueprint.run first (asked.rootedAt root)).1
      (blueprint.run second (asked.rootedAt otherRoot)).1 ∧
    (blueprint.run first (asked.rootedAt root)).2.IsRoot root top ∧
    (blueprint.run second (asked.rootedAt otherRoot)).2.IsRoot otherRoot otherTop ∧
    Alike (blueprint.run first (asked.rootedAt root)).2 top
      (blueprint.run second (asked.rootedAt otherRoot)).2 otherTop := by
  -- Both runs render the same texts, and then write them or compare them.
  have held : asked.HeldAlike first root top second otherRoot otherTop :=
    ⟨alike, isRoot, isOther, short.toFits, otherShort.toFits⟩
  have chains := confined.parallelChains isRoot isOther bases short otherShort
  rcases (renderRequest_relocate blueprint held confined chains).cases with
    ⟨e, otherError, fails, otherFails⟩ |
      ⟨⟨board, texts⟩, ⟨other, otherTexts⟩, rendered, otherRendered, counterpart, same⟩
  · -- Nothing is written where nothing is rendered.
    rw [run_of_error fails, run_of_error otherFails]
    exact ⟨.error _ _, isRoot, isOther, alike⟩
  · simp only at counterpart same
    subst same
    -- The reports repeat the profile and the derived values, which the boards agree on.
    have agrees {outcomes others : List Outcome} (statuses : statusesOf outcomes = statusesOf others) :
        (board.report outcomes).Agrees (other.report others) :=
      ⟨by rw [Board.report, Board.report, counterpart.profile.same],
        counterpart.derived.symm, statuses⟩
    cases mode : asked.mode with
    | write =>
      obtain ⟨told, others, after, otherAfter, ran, otherRan, together, last⟩ :=
        held.writeTexts confined otherTexts [] []
      rw [run_write rendered mode, run_write otherRendered mode, ran, otherRan]
      refine ⟨?_, last.isRoot, last.isOther, last.alike⟩
      cases together with
      | error e otherError => exact .error _ _
      | ok statuses => exact .ok (agrees statuses)
    | check =>
      rw [run_check rendered mode, run_check otherRendered mode]
      refine ⟨?_, isRoot, isOther, alike⟩
      rcases (held.compareTexts confined otherTexts).cases with
        ⟨e, otherError, fails, otherFails⟩ | ⟨outcomes, others, told, otherTold, statuses⟩
      · rw [fails, otherFails]
        exact .error _ _
      · rw [told, otherTold]
        exact .ok (agrees statuses)

end Blueprint

/-- The name of a directory below the root. -/
def workName : Name := ⟨"work", by decide⟩

/-- The sample profile's file in a directory of its own. -/
def movedFiles : FileSystem where
  entries := [([sampleName, workName], .file sampleDocument.toUTF8),
    ([workName], .directory)]
  distinct := by decide
  rooted := List.forall_mem_cons.2 ⟨.inr (.tail _ (.head _)), List.forall_mem_singleton.2 (.inl rfl)⟩
  cwd := []

/-- A check of the artifacts of the profile at a path from the root. -/
def projectRequest (path : Path) : ProjectRequest where
  directory := ⟨""⟩
  reference := .file path
  overrides := []
  mode := .check

/-- The sample profile's directory can be moved. -/
theorem sampleFiles_alike_movedFiles : Alike sampleFiles [] movedFiles [workName] where
  same inner := by
    cases inner with
    -- Both places are directories.
    | nil => rfl
    | cons name above =>
      show findAt (name :: above ++ []) sampleFiles.entries =
        findAt (name :: above ++ [_]) movedFiles.entries
      simp [sampleFiles, sampleName, movedFiles, findAt]

/-- A profile whose file has the sample's text names no base. -/
theorem base_of_sampleDocument {fs : FileSystem} {link : ProfileLink} (holds : fs.Holds link)
    (given : fs.read link.path = .ok sampleDocument.toUTF8) : link.file.base = none := by
  -- The link's file was parsed from a document, which was read from its path.
  obtain ⟨document, leads, parsed⟩ := holds.text
  -- The link was read from the very text that the sample was parsed from.
  have same : document = sampleDocument := by
    rw [FileSystem.read, leads, Except.ok.injEq] at given
    exact toUTF8_inj.1 given
  rw [same, parse_sampleDocument, Option.some.injEq] at parsed
  rw [← parsed]
  rfl

/-- So a walk does not leave the path of such a file. -/
theorem FileSystem.Walk.eq_start {fs : FileSystem} {directory start path : Path}
    {links : List ProfileLink} (walk : fs.Walk directory start links path)
    (given : fs.read start = .ok sampleDocument.toUTF8) : path = start := by
  -- Induction on the walk: its first step would need a base, of which the file has none.
  induction walk with
  | start => rfl
  | step _ holds _ names ih =>
    rw [← ih] at given
    have alone := base_of_sampleDocument holds given
    cases names with
    | bare named => simp [alone] at named
    | path named => simp [alone] at named

/-- The sample file system is a checkout at its root. -/
theorem isRoot_sampleFiles : sampleFiles.IsRoot ⟨"/"⟩ [] := by
  refine ⟨by decide, ?_⟩
  unfold directory? locate origin
  decide

/-- The other one is a checkout at the directory that holds the file. -/
theorem isRoot_movedFiles : movedFiles.IsRoot ⟨"/work"⟩ [workName] := by
  refine ⟨by decide, ?_⟩
  unfold directory? locate origin
  decide

/-- The sample project stays below its root when the profile's path does. -/
theorem isConfined_sample {path : Path} (stays : path.StaysBelow 0) :
    (projectRequest path).IsConfined := by
  -- The sample names no directory of its own and overrides nothing.
  have directory : (⟨""⟩ : Path).StaysBelow 0 := by decide
  refine ⟨directory, by simp [projectRequest], ?_, by simp [projectRequest]⟩
  intro other named
  cases named
  exact stays

/-- No base of the sample profile leaves the root, as there is none. -/
theorem basesStay_sample {path root : Path}
    (given : sampleFiles.read (root.join (projectRequest path).profilePath) = .ok sampleDocument.toUTF8) :
    (projectRequest path).BasesStay sampleFiles root [] := by
  -- There is no step behind the first file, which names no base.
  intro links link name inner text walk holds place named
  -- The walk has not left the file that it began with.
  rw [← walk.eq_start given] at given
  simp [base_of_sampleDocument holds given] at named

/-- Nor is any path on the way along its bases too long, if its own is not. -/
theorem isShort_sample {fs : FileSystem} {path root : Path}
    (given : fs.read (root.join (projectRequest path).profilePath) = .ok sampleDocument.toUTF8)
    (short : (root.join (projectRequest path).profilePath).text.utf8ByteSize ≤ pathLimit)
    (fits : (projectRequest path).Fits fs root) : (projectRequest path).IsShort fs root where
  toFits := fits
  profiles links other walk := by
    -- The walk is over where it begins.
    rw [walk.eq_start given]
    exact short

/-- From the root, the sample profile is read by either path. -/
theorem read_sampleFiles {path : Path} (either : path = ⟨"board.toml"⟩ ∨ path = ⟨"../board.toml"⟩) :
    sampleFiles.read (Path.join ⟨"/"⟩ (projectRequest path).profilePath) = .ok sampleDocument.toUTF8 := by
  -- Both paths lead to the sample's file from the root, as nothing is above it.
  unfold FileSystem.read locateFile locate origin
  rcases either with rfl | rfl <;> rfl

/-- From the directory of its own, it is read by its name. -/
theorem read_movedFiles :
    movedFiles.read (Path.join ⟨"/work"⟩ (projectRequest ⟨"board.toml"⟩).profilePath) =
      .ok sampleDocument.toUTF8 := by
  unfold FileSystem.read locateFile locate origin
  rfl

/-- The sample project is checked alike in both places. -/
theorem run_relocate_sample :
    sampleFiles.IsRoot ⟨"/"⟩ [] ∧ movedFiles.IsRoot ⟨"/work"⟩ [workName] ∧
    Alike sampleFiles [] movedFiles [workName] ∧
    (projectRequest ⟨"board.toml"⟩).IsConfined ∧
    (projectRequest ⟨"board.toml"⟩).BasesStay sampleFiles ⟨"/"⟩ [] ∧
    (projectRequest ⟨"board.toml"⟩).IsShort sampleFiles ⟨"/"⟩ ∧
    (projectRequest ⟨"board.toml"⟩).IsShort movedFiles ⟨"/work"⟩ ∧
    Together Report.Agrees
      (Blueprint.standard.run sampleFiles ((projectRequest ⟨"board.toml"⟩).rootedAt ⟨"/"⟩)).1
      (Blueprint.standard.run movedFiles ((projectRequest ⟨"board.toml"⟩).rootedAt ⟨"/work"⟩)).1 := by
  -- The sample has one file below either root, and all of its paths are short.
  have confined : (projectRequest ⟨"board.toml"⟩).IsConfined :=
    isConfined_sample (by decide)
  have bases := basesStay_sample (read_sampleFiles (.inl rfl))
  have short : (projectRequest ⟨"board.toml"⟩).IsShort sampleFiles ⟨"/"⟩ := by
    refine isShort_sample (read_sampleFiles (.inl rfl)) (by decide) ⟨?_, ?_⟩
    · intro artifact
      cases artifact <;> decide
    · intro artifact
      cases artifact <;> decide
  have otherShort : (projectRequest ⟨"board.toml"⟩).IsShort movedFiles ⟨"/work"⟩ := by
    refine isShort_sample read_movedFiles (by decide) ⟨?_, ?_⟩
    · intro artifact
      cases artifact <;> decide
    · intro artifact
      cases artifact <;> decide
  have relocated := Blueprint.run_relocate .standard isRoot_sampleFiles isRoot_movedFiles
    sampleFiles_alike_movedFiles confined bases short otherShort
  exact ⟨isRoot_sampleFiles, isRoot_movedFiles, sampleFiles_alike_movedFiles, confined, bases, short,
    otherShort, relocated.1⟩

/-- A way to write the root with so many slashes. -/
def slashes (count : Nat) : Path :=
  ⟨String.ofList (List.replicate count '/')⟩

/-- Each slash is a byte. -/
theorem utf8ByteSize_slashes (count : Nat) : (slashes count).text.utf8ByteSize = count := by
  -- Induction on the number of slashes.
  induction count with
  | zero => rfl
  | succ count ih =>
    have whole : (slashes (count + 1)).text = "/" ++ (slashes count).text := by
      simp only [slashes, List.replicate_succ]
      exact @String.ofList_append ['/'] _
    rw [whole, String.utf8ByteSize_append, ih, Nat.add_comm]
    rfl

/-- Any number of slashes leads to the root of a file system, up to the limit of paths. -/
theorem isRoot_slashes (fs : FileSystem) {count : Nat} (filled : 0 < count)
    (short : count ≤ pathLimit) : fs.IsRoot (slashes count) [] := by
  have absolute : (slashes count).isAbsolute := by
    obtain ⟨fewer, rfl⟩ : ∃ fewer, count = fewer + 1 := ⟨count - 1, by omega⟩
    simp [Path.isAbsolute, slashes, List.replicate_succ]
  refine ⟨absolute, ?_⟩
  -- All pieces of the path are empty, so it does not lead away from the root.
  have comes := ComesBy.of_isAbsolute fs absolute (by rw [utf8ByteSize_slashes]; exact short)
  apply comes.directory?_of_idle
  intro piece behind
  -- A piece with a character would have one that is no slash.
  have among := List.mem_of_mem_tail behind
  have blank : piece.toList = [] := by
    apply List.eq_nil_iff_forall_not_mem.2
    intro c inside
    have other : c ≠ '/' := by
      intro slash
      exact Path.slash_not_mem_pieces among (slash ▸ inside)
    have character := (mem_text_iff other).2 ⟨piece, among, inside⟩
    rw [slashes, String.toList_ofList] at character
    exact other (List.eq_of_mem_replicate character)
  have empty : piece = "" := by simpa using blank
  simp [isIdle, empty]

namespace Blueprint

/-- A run over a profile whose file is missing fails. -/
theorem run_of_missing (blueprint : Blueprint) {fs : FileSystem} {request : Request}
    (absent : fs.isFile (request.reference.resolve request.directory ⟨""⟩) = false) :
    ∃ e, (blueprint.run fs request).1 = .error e := by
  -- The walk stops at its first file, which is missing.
  have unloaded := Profile.load_of_stops_error blueprint.schema .start (.missing absent)
  cases rendered : blueprint.renderRequest fs request with
  | error e =>
    rw [run_of_error rendered]
    exact ⟨e, rfl⟩
  | ok found =>
    -- Rendering needs the profile.
    have loaded := (prepare_ok (renderRequest_ok rendered).1).1
    rw [unloaded] at loaded
    cases loaded

end Blueprint

/-- Below the root, the sample profile is rendered and its artifacts are compared, by either path. -/
theorem rooted_steps : ∀ path ∈ [(⟨"/board.toml"⟩ : Path), ⟨"/../board.toml"⟩],
    (Blueprint.standard.renderLinks? ⟨"/"⟩
      ⟨sampleProfile.nameAt path, path, [sampleName], sampleProfile⟩ []).any fun found =>
        (compareTexts { root := ⟨"/"⟩ } sampleFiles found.2).toOption.isSome := by
  -- The profile's texts are rendered and compared with what stands at their places.
  decide +kernel

/-- Below the root, the sample project is checked, by either path of its profile. -/
theorem projectRequest_checked {path : Path} (either : path = ⟨"board.toml"⟩ ∨ path = ⟨"../board.toml"⟩) :
    ∃ report, (Blueprint.standard.run sampleFiles ((projectRequest path).rootedAt ⟨"/"⟩)).1 =
      .ok report := by
  -- Either path is joined to the root, and leads to the one file from there.
  have resolved : ((projectRequest path).rootedAt ⟨"/"⟩).reference.resolve
      ((projectRequest path).rootedAt ⟨"/"⟩).directory ⟨""⟩ ∈
        [(⟨"/board.toml"⟩ : Path), ⟨"/../board.toml"⟩] := by
    rcases either with rfl | rfl <;> decide
  obtain ⟨found, made, compared⟩ := (Option.any_eq_true _ _).1 (rooted_steps _ resolved)
  generalize joined : ((projectRequest path).rootedAt ⟨"/"⟩).reference.resolve
      ((projectRequest path).rootedAt ⟨"/"⟩).directory ⟨""⟩ = source at resolved made
  have located : sampleFiles.locateFile source =
      .ok ([sampleName], sampleDocument.toUTF8) := by
    simp only [List.mem_cons, List.not_mem_nil, or_false] at resolved
    unfold locateFile locate origin
    rcases resolved with rfl | rfl <;> rfl
  have followed : ((projectRequest path).rootedAt ⟨"/"⟩).chain sampleFiles =
      .ok [⟨sampleProfile.nameAt source, source, [sampleName], sampleProfile⟩] := by
    rw [Request.chain, joined]
    exact profileChain_of_alone (readLink_of_text located parse_sampleDocument) rfl
  have rendered := Blueprint.renderRequest_of_links followed made
  obtain ⟨outcomes, told⟩ := Option.isSome_iff_exists.1 compared
  rw [Blueprint.run_check rendered rfl]
  exact ⟨_, congrArg (Except.map _) (ok_of_toOption told)⟩

/--
A project may be checked below one root and not below another that holds the same.

Below the longest spelling of the root no path behind it can be looked at, and a profile that is named by
a path out of the project is missing where the project has another directory around it.
-/
theorem run_depends_on_root :
    (sampleFiles.IsRoot ⟨"/"⟩ [] ∧ sampleFiles.IsRoot (slashes pathLimit) [] ∧
      Alike sampleFiles [] sampleFiles [] ∧ (projectRequest ⟨"board.toml"⟩).IsConfined ∧
      (projectRequest ⟨"board.toml"⟩).BasesStay sampleFiles ⟨"/"⟩ [] ∧
      (∃ report, (Blueprint.standard.run sampleFiles
        ((projectRequest ⟨"board.toml"⟩).rootedAt ⟨"/"⟩)).1 = .ok report) ∧
      ∃ e, (Blueprint.standard.run sampleFiles
        ((projectRequest ⟨"board.toml"⟩).rootedAt (slashes pathLimit))).1 = .error e) ∧
    sampleFiles.IsRoot ⟨"/"⟩ [] ∧ movedFiles.IsRoot ⟨"/work"⟩ [workName] ∧
      Alike sampleFiles [] movedFiles [workName] ∧
      (projectRequest ⟨"../board.toml"⟩).directory.StaysBelow 0 ∧
      (∀ entry ∈ (projectRequest ⟨"../board.toml"⟩).overrides, entry.2.StaysBelow 0) ∧
      (projectRequest ⟨"../board.toml"⟩).BasesStay sampleFiles ⟨"/"⟩ [] ∧
      (∃ report, (Blueprint.standard.run sampleFiles
        ((projectRequest ⟨"../board.toml"⟩).rootedAt ⟨"/"⟩)).1 = .ok report) ∧
      ∃ e, (Blueprint.standard.run movedFiles
        ((projectRequest ⟨"../board.toml"⟩).rootedAt ⟨"/work"⟩)).1 = .error e := by
  -- Below the usual root both runs succeed; the other two lack the profile's file.
  refine ⟨⟨isRoot_sampleFiles, isRoot_slashes sampleFiles (by decide) le_rfl, ⟨fun _ => rfl⟩,
    isConfined_sample (by decide), basesStay_sample (read_sampleFiles (.inl rfl)),
    projectRequest_checked (.inl rfl), ?_⟩, isRoot_sampleFiles, isRoot_movedFiles,
    sampleFiles_alike_movedFiles, by decide, by simp [projectRequest],
    basesStay_sample (read_sampleFiles (.inr rfl)), projectRequest_checked (.inr rfl), ?_⟩
  · -- The profile's file is behind more slashes than a path may have characters.
    apply Blueprint.run_of_missing
    apply isFile_of_long
    have isRoot := isRoot_slashes sampleFiles (by decide : 0 < pathLimit) le_rfl
    show pathLimit < ((⟨""⟩ : Path).join ((slashes pathLimit).join ⟨"board.toml"⟩)).text.utf8ByteSize
    rw [Path.join_of_empty rfl, Path.join_of_relative (by decide) isRoot.filled,
      String.utf8ByteSize_append]
    have root := (slashes pathLimit).le_utf8ByteSize_slashed
    rw [utf8ByteSize_slashes] at root
    have name : 0 < (⟨"board.toml"⟩ : Path).text.utf8ByteSize := by decide
    omega
  · -- One step up from the project's directory is the root, which holds no such file.
    apply Blueprint.run_of_missing
    show movedFiles.isFile _ = false
    unfold isFile locateFile locate origin
    decide

end BoardConfig
