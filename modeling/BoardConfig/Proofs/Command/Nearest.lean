import BoardConfig.Proofs.Command.Standpoint
import BoardConfig.Proofs.Path.Ancestors
import Mathlib.Data.Nat.Find

/-! The nearest manifest at or above a directory, which alone decides about the project. -/

namespace BoardConfig

open FileSystem BoardConfig.Path

namespace Project

/-- Whether a directory has a manifest that is a regular file. -/
def HasManifest (fs : FileSystem) (directory : Path) : Prop :=
  ∃ location contents, fs.locate (directory.join ⟨manifestName⟩) = .ok location ∧
    fs.entryAt? location = some (.file contents)

/-- What the manifest of a directory makes of the search for a project. -/
inductive Decides (fs : FileSystem) (directory : Path) : Except ProjectError Project → Prop
  /-- It cannot be read as text. -/
  | notText (unreadable : ∀ document, fs.readText (directory.join ⟨manifestName⟩) ≠ .ok document) :
      Decides fs directory (.error (.notText (directory.join ⟨manifestName⟩)))
  /-- It has not the shape of a manifest. -/
  | malformed {document : String}
      (holds : fs.readText (directory.join ⟨manifestName⟩) = .ok document)
      (shapeless : Manifest.parse? document = none) :
      Decides fs directory (.error (.malformed (directory.join ⟨manifestName⟩) document))
  /-- It describes the settings of a project in the directory. -/
  | settings {document : String} {manifest : Manifest}
      (holds : fs.readText (directory.join ⟨manifestName⟩) = .ok document)
      (parsed : Manifest.parse? document = some manifest) :
      Decides fs directory (.ok { root := directory, manifest := some manifest })

/-- Whether a climb comes to a directory with a manifest after so many steps, and to none before. -/
structure IsNearest (fs : FileSystem) (start : Path) (steps : Nat) (directory : Path) : Prop where
  reached : start.climb steps = some directory
  has : HasManifest fs directory
  first : ∀ fewer < steps, ∀ nearer, start.climb fewer = some nearer → ¬ HasManifest fs nearer

variable {fs : FileSystem} {start directory fallback : Path} {steps : Nat}
  {outcome other : Except ProjectError Project}

/-- A manifest decides in one way. -/
theorem Decides.unique (decides : Decides fs directory outcome)
    (again : Decides fs directory other) : outcome = other := by
  -- The manifest has at most one text, which has the shape or has it not.
  cases decides with
  | notText unreadable =>
    cases again with
    | notText => rfl
    | malformed holds => exact absurd holds (unreadable _)
    | settings holds => exact absurd holds (unreadable _)
  | malformed holds shapeless =>
    cases again with
    | notText unreadable => exact absurd holds (unreadable _)
    | malformed holdsAgain =>
      cases holds.symm.trans holdsAgain
      rfl
    | settings holdsAgain parsed =>
      cases holds.symm.trans holdsAgain
      cases shapeless.symm.trans parsed
  | settings holds parsed =>
    cases again with
    | notText unreadable => exact absurd holds (unreadable _)
    | malformed holdsAgain shapeless =>
      cases holds.symm.trans holdsAgain
      cases shapeless.symm.trans parsed
    | settings holdsAgain parsedAgain =>
      cases holds.symm.trans holdsAgain
      cases parsed.symm.trans parsedAgain
      rfl

/-- A directory has a manifest exactly if the search stops at it. -/
theorem hasManifest_iff :
    HasManifest fs directory ↔ manifestIn? fs directory = some (directory.join ⟨manifestName⟩) := by
  -- The search asks for a regular file by the manifest's path, as the definition does.
  have regular : HasManifest fs directory ↔ fs.isFile (directory.join ⟨manifestName⟩) :=
    isFile_iff.symm
  rw [regular]
  constructor
  · intro found
    simp only [manifestIn?, found, if_true]
  · intro stops
    unfold manifestIn? at stops
    by_contra lacking
    simp [lacking] at stops

/-- The search passes over a directory exactly if it has no manifest. -/
theorem not_hasManifest_iff : ¬ HasManifest fs directory ↔ manifestIn? fs directory = none := by
  -- The search answers with that path or with nothing.
  rw [hasManifest_iff]
  unfold manifestIn?
  cases fs.isFile (directory.join ⟨manifestName⟩) <;> simp

/-- A directory in the place of a manifest is none. -/
theorem not_hasManifest_of_directory? {location : Location}
    (leads : fs.directory? (directory.join ⟨manifestName⟩) = some location) :
    ¬ HasManifest fs directory := by
  -- At one place there is one entry, which cannot be a file and a directory.
  rintro ⟨place, contents, located, stands⟩
  obtain ⟨locatedAgain, directory⟩ := directory?_eq_some_iff.1 leads
  cases located.symm.trans locatedAgain
  cases stands.symm.trans directory

/-- Directories without a manifest are passed over. -/
theorem discoverAmong_append {before : List Path}
    (passed : ∀ nearer ∈ before, ¬ HasManifest fs nearer) (directories : List Path) :
    discoverAmong fs fallback (before ++ directories) =
      discoverAmong fs fallback directories := by
  -- Induction on the directories that are passed over.
  induction before with
  | nil => rfl
  | cons first rest ih =>
    have none := not_hasManifest_iff.1 (passed first List.mem_cons_self)
    simp only [List.cons_append, discoverAmong, none]
    exact ih fun nearer among => passed nearer (List.mem_cons_of_mem _ among)

/-- The first directory with a manifest decides, whatever stands above it. -/
theorem decides_discoverAmong (has : HasManifest fs directory) (above : List Path) :
    Decides fs directory (discoverAmong fs fallback (directory :: above)) := by
  -- The manifest is read, then taken apart, and its failure is that of the search.
  simp only [discoverAmong, hasManifest_iff.1 has]
  cases read : fs.readText (directory.join ⟨manifestName⟩) with
  | error e =>
    apply Decides.notText
    simp [read]
  | ok document =>
    simp only
    cases parsed : Manifest.parse? document with
    | none => exact .malformed read parsed
    | some manifest => exact .settings read parsed

/-- The nearest directory with a manifest decides. -/
theorem IsNearest.decides (nearest : IsNearest fs start steps directory) :
    Decides fs directory (discover fs start) := by
  -- The ancestors are the climb written as a list, cut where the manifest is.
  have reached : start.ancestors[steps]? = some directory :=
    (getElem?_ancestors start steps).trans nearest.reached
  obtain ⟨short, here⟩ := List.getElem?_eq_some_iff.1 reached
  have split : start.ancestors =
      start.ancestors.take steps ++ directory :: start.ancestors.drop (steps + 1) := by
    rw [← here, List.getElem_cons_drop, List.take_append_drop]
  have passed : ∀ nearer ∈ start.ancestors.take steps, ¬ HasManifest fs nearer := by
    intro nearer among
    obtain ⟨fewer, small, found⟩ := List.mem_take_iff_getElem.1 among
    -- What stands among the first directories is reached by fewer steps.
    refine nearest.first fewer (by omega) nearer ?_
    rw [← getElem?_ancestors]
    exact List.getElem?_eq_some_iff.2 ⟨by omega, found⟩
  unfold discover
  rw [split, discoverAmong_append passed]
  exact decides_discoverAmong nearest.has _

/-- Two starts with one nearest manifest are in the same project, or fail alike. -/
theorem IsNearest.discover_eq {otherStart : Path} {otherSteps : Nat}
    (nearest : IsNearest fs start steps directory)
    (again : IsNearest fs otherStart otherSteps directory) :
    discover fs start = discover fs otherStart :=
  -- The manifest decides by its path and its text, of which there is one each.
  nearest.decides.unique again.decides

/-- Without any manifest, the project is where the search began. -/
theorem discover_of_none
    (lacking : ∀ steps directory, start.climb steps = some directory →
      ¬ HasManifest fs directory) :
    discover fs start = .ok { root := start, manifest := none } := by
  -- Every ancestor is passed over, and then the search has its fallback left.
  have passed : ∀ nearer ∈ start.ancestors, ¬ HasManifest fs nearer := by
    intro nearer among
    obtain ⟨steps, reached⟩ := mem_ancestors_iff.1 among
    exact lacking steps nearer reached
  unfold discover
  rw [← List.append_nil start.ancestors, discoverAmong_append passed]
  rfl

/-- A climb comes to a nearest manifest, or to none at all. -/
theorem exists_isNearest_or (fs : FileSystem) (start : Path) :
    (∃ steps directory, IsNearest fs start steps directory) ∨
      ∀ steps directory, start.climb steps = some directory → ¬ HasManifest fs directory := by
  classical
  by_cases found : ∃ steps directory, start.climb steps = some directory ∧ HasManifest fs directory
  · -- Of the numbers of steps that lead to a manifest there is a least one.
    obtain ⟨directory, reached, has⟩ := Nat.find_spec found
    refine .inl ⟨Nat.find found, directory, reached, has, ?_⟩
    intro fewer less nearer arrives again
    exact Nat.find_min found less ⟨nearer, arrives, again⟩
  · -- Otherwise no step of the climb comes to a manifest.
    refine .inr fun steps directory reached has => ?_
    exact found ⟨steps, directory, reached, has⟩

variable {front behind : List String}

/-- Below a directory with a manifest, that is the nearest one unless there is one between. -/
theorem isNearest_ofNames (plain : ∀ name ∈ front ++ behind, IsPlain name)
    (has : HasManifest fs (ofNames front))
    (between : ∀ inner, inner <+: behind → inner ≠ [] → ¬ HasManifest fs (ofNames (front ++ inner))) :
    IsNearest fs (ofNames (front ++ behind)) behind.length (ofNames front) where
  reached := climb_ofNames plain
  has := has
  first := by
    intro fewer less nearer reached
    -- So many steps leave out so many of the last names.
    have whole : front ++ behind =
        front ++ behind.take (behind.length - fewer) ++ behind.drop (behind.length - fewer) := by
      rw [List.append_assoc, List.take_append_drop]
    have count : (behind.drop (behind.length - fewer)).length = fewer := by
      rw [List.length_drop]
      omega
    have arrives := climb_ofNames (whole ▸ plain)
    rw [count, ← whole, reached, Option.some.injEq] at arrives
    -- So the place is inside, and it is not the upper directory itself.
    rw [arrives]
    apply between _ (List.take_prefix _ _)
    intro empty
    have length := congrArg List.length empty
    rw [List.length_take, List.length_nil] at length
    omega

/-- From a directory below one with a manifest, and none between, the same project is found. -/
theorem discover_ofNames (plain : ∀ name ∈ front ++ behind, IsPlain name)
    (has : HasManifest fs (ofNames front))
    (between : ∀ inner, inner <+: behind → inner ≠ [] → ¬ HasManifest fs (ofNames (front ++ inner))) :
    discover fs (ofNames (front ++ behind)) = discover fs (ofNames front) := by
  -- Both searches come to the one manifest.
  have here : IsNearest fs (ofNames front) 0 (ofNames front) :=
    ⟨rfl, has, fun _ less => absurd less (Nat.not_lt_zero _)⟩
  exact (isNearest_ofNames plain has between).discover_eq here

end Project

/-- The names of a location are plain. -/
theorem Name.isPlain (name : Name) : IsPlain name.text :=
  ⟨name.not_isIdle, name.ne_up, name.slash_not_mem⟩

/-- The path of a location spells its names plainly. -/
theorem Location.path_eq_ofNames (location : Location) :
    location.path = ofNames (location.reverse.map (·.text)) := rfl

/-- From a location below one with a manifest, and none between, the same project is found. -/
theorem Project.discover_location {fs : FileSystem} {above location : Location}
    (below : above <:+ location) (has : HasManifest fs above.path)
    (between : ∀ inner : Location, above <:+ inner → inner <:+ location → inner ≠ above →
      ¬ HasManifest fs inner.path) :
    discover fs location.path = discover fs above.path := by
  -- The location above is a prefix of the path from the root, so the names behind it are all below.
  obtain ⟨names, rfl⟩ := below
  simp only [Location.path_eq_ofNames, List.reverse_append, List.map_append] at has between ⊢
  refine discover_ofNames ?_ has ?_
  · intro text among
    rw [← List.map_append] at among
    obtain ⟨name, -, rfl⟩ := List.mem_map.1 among
    exact name.isPlain
  · intro inner front filled
    -- Some of the first names below are those of a location between.
    obtain ⟨count, rfl⟩ : ∃ count, inner = (names.drop count).reverse.map (·.text) := by
      refine ⟨names.length - inner.length, ?_⟩
      rw [← List.take_reverse, List.map_take]
      exact List.prefix_iff_eq_take.1 front
    have parts : names.take count ++ (names.drop count ++ above) = names ++ above := by
      rw [← List.append_assoc, List.take_append_drop]
    -- There is at least one name behind it, so it is not the upper one.
    have apart : names.drop count ++ above ≠ above := by
      intro same
      have gone : names.drop count = [] := by simpa using same
      simp [gone] at filled
    have lacks := between (names.drop count ++ above) (List.suffix_append _ _) ⟨_, parts⟩ apart
    simpa [Location.path_eq_ofNames] using lacks

/--
The nearest manifest at or above a directory decides about the project, and nothing farther up does.

The climb from any path comes to an end. The first directory on it whose manifest is a regular file
decides with that file alone, even if it cannot be read or has not the shape of a manifest; without
any, the project is where the climb began, with the usual settings. So all plainly spelled
directories below one manifest have one project, and a command that is given no relative path of
a profile answers alike from each of them.
-/
theorem nearest_manifest_decides (fs : FileSystem) :
    (∀ start : Path, ∃ steps, start.climb steps = none) ∧
    (∀ start steps directory, Project.IsNearest fs start steps directory →
      Project.Decides fs directory (Project.discover fs start)) ∧
    (∀ start : Path, (∀ steps directory, start.climb steps = some directory →
        ¬ Project.HasManifest fs directory) →
      Project.discover fs start = .ok { root := start, manifest := none } ∧
        ({ root := start, manifest := none } : Project).settings =
          { active := none, directory := ⟨"profiles"⟩, outputs := .empty }) ∧
    (∀ start : Path, (∃ steps directory, Project.IsNearest fs start steps directory) ∨
      ∀ steps directory, start.climb steps = some directory → ¬ Project.HasManifest fs directory) ∧
    (∀ directory location, fs.directory? (directory.join ⟨manifestName⟩) = some location →
      ¬ Project.HasManifest fs directory) ∧
    (∀ front behind : List String, (∀ name ∈ front ++ behind, Path.IsPlain name) →
      Project.HasManifest fs (Path.ofNames front) →
      (∀ inner, inner <+: behind → inner ≠ [] →
        ¬ Project.HasManifest fs (Path.ofNames (front ++ inner))) →
      Project.discover fs (Path.ofNames (front ++ behind)) =
        Project.discover fs (Path.ofNames front)) ∧
    ∀ above location : Location, above <:+ location → Project.HasManifest fs above.path →
      (∀ inner : Location, above <:+ inner → inner <:+ location → inner ≠ above →
        ¬ Project.HasManifest fs inner.path) →
      ∀ command : Command, IsSettled command.profile? →
        command.run (fs.within location) = (command.run (fs.within above)).within location := by
  -- Each part is a lemma about the search or about the climb.
  refine ⟨exists_climb_eq_none, fun start steps directory nearest => nearest.decides, ?_,
    Project.exists_isNearest_or fs, fun directory location leads =>
      Project.not_hasManifest_of_directory? leads, ?_, ?_⟩
  · intro start lacking
    exact ⟨Project.discover_of_none lacking, rfl⟩
  · intro front behind plain has between
    exact Project.discover_ofNames plain has between
  · intro above location below has between command settled
    exact command.run_within settled (Project.discover_location below has between)

/-- The root of the sample project has a manifest, and the directory to work in has none. -/
theorem hasManifest_projectFiles :
    Project.HasManifest projectFiles ⟨"/"⟩ ∧ ¬ Project.HasManifest projectFiles ⟨"/work"⟩ := by
  -- The entries of the sample project are few and fixed.
  constructor
  · exact isFile_iff.1 (by decide +kernel)
  · exact mt isFile_iff.2 (by decide +kernel)

/-- The directory to work in has the project of the root, its commands answer alike, and nothing has none. -/
theorem nearest_manifest_decides_sample :
    Project.discover projectFiles ⟨"/work"⟩ = .ok activeProject ∧
    (Command.generate none false .text).run (projectFiles.within [workName]) =
      ((Command.generate none false .text).run (projectFiles.within [])).within [workName] ∧
    Project.discover .empty ⟨"work"⟩ = .ok { root := ⟨"work"⟩, manifest := none } := by
  obtain ⟨has, lacks⟩ := hasManifest_projectFiles
  obtain ⟨-, -, -, -, -, plainly, commands⟩ := nearest_manifest_decides projectFiles
  refine ⟨?_, ?_, ?_⟩
  · -- The names lead from the root to the directory to work in.
    have same : Project.discover projectFiles (ofNames ([] ++ ["work"])) =
        Project.discover projectFiles (ofNames []) := by
      apply plainly [] ["work"] (by simp [IsPlain, isIdle]) has
      intro inner front filled
      -- The directory itself is the only one between.
      rcases List.prefix_cons_iff.1 front with rfl | ⟨rest, rfl, behind⟩
      · exact absurd rfl filled
      · rw [List.prefix_nil.1 behind]
        exact lacks
    have root : Project.discover projectFiles ⟨"/"⟩ = .ok activeProject :=
      activeProject_selects.discovered
    exact same.trans root
  · -- The active profile is asked for, by no path at all.
    have settled : IsSettled (Command.generate none false .text).profile? := by
      intro id path selected
      cases selected
    refine commands [] [workName] List.nil_suffix has ?_ _ settled
    intro inner _ below apart
    rcases List.suffix_cons_iff.1 below with rfl | behind
    · exact lacks
    · exact absurd (List.suffix_nil.1 behind) apart
  · -- In an empty file system there is no manifest to find.
    apply ((nearest_manifest_decides .empty).2.2.1 _ _).1
    rintro steps directory - ⟨location, contents, -, stands⟩
    -- Without entries there is nothing but the root.
    cases location <;> simp [entryAt?, findAt, FileSystem.empty] at stands

end BoardConfig
