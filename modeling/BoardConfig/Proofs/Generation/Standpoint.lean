import BoardConfig.Generation
import BoardConfig.Proofs.FileSystem.Standpoint
import BoardConfig.Proofs.Profile.Discovery

/-! Profiles and runs whose paths are absolute, which are the same from every working directory. -/

namespace BoardConfig

open FileSystem

namespace FileSystem

variable {fs : FileSystem} {cwd : Location} {directory path : Path}

/-- A profile's file is read alike by its absolute path. -/
theorem readLink_within (absolute : path.isAbsolute) :
    (fs.within cwd).readLink path = fs.readLink path := by
  simp only [readLink, locateFile_within absolute]

/-- From a file with an absolute path, its base has one as well. -/
theorem isAbsolute_of_basePath? {link : ProfileLink} {base : Path}
    (directoryAbsolute : directory.isAbsolute) (absolute : path.isAbsolute)
    (given : fs.readLink path = .ok link) (named : basePath? directory link = some base) :
    base.isAbsolute := by
  -- A base is looked up from the profiles directory or beside the file.
  obtain ⟨contents, document, located, -, -, -⟩ := readLink_ok given
  have there := path_of_readLink given
  obtain ⟨above, parent, aboveAbsolute⟩ := exists_parent?_of_locateFile absolute located
  unfold basePath? at named
  obtain ⟨text, -, rfl⟩ := Option.map_eq_some_iff.1 named
  rw [there, parent, Option.getD_some]
  cases ProfileReference.parse text with
  | bare name => exact Path.isAbsolute_join_of_isAbsolute directoryAbsolute _
  | file relative => exact Path.isAbsolute_join_of_isAbsolute aboveAbsolute _

/-- A chain that starts at an absolute path is followed alike, behind links with absolute paths. -/
theorem followChain_within (directoryAbsolute : directory.isAbsolute) (absolute : path.isAbsolute)
    (budget : Nat) {visited : List ProfileLink} (absolutes : ∀ link ∈ visited, link.path.isAbsolute) :
    (fs.within cwd).followChain directory budget visited path =
      fs.followChain directory budget visited path := by
  -- Each file names its base by an absolute path again, and absolute paths are told apart alike.
  induction budget generalizing visited path with
  | zero => rfl
  | succ budget ih =>
    have seen : visited.map ((fs.within cwd).identity ·.path) = visited.map (fs.identity ·.path) :=
      List.map_congr_left fun link among => identity_within (absolutes link among)
    simp only [followChain, readLink_within absolute, identity_within absolute, seen]
    cases given : fs.readLink path with
    | error e => rfl
    | ok link =>
      simp only
      split
      · rfl
      · cases named : basePath? directory link with
        | none => rfl
        | some base =>
          refine ih (isAbsolute_of_basePath? directoryAbsolute absolute given named) ?_
          intro other among
          rcases List.mem_append.1 among with earlier | last
          · exact absolutes other earlier
          · rw [List.mem_singleton.1 last, path_of_readLink given]
            exact absolute

/-- So is a profile's whole chain. -/
theorem profileChain_within (directoryAbsolute : directory.isAbsolute) (absolute : path.isAbsolute) :
    (fs.within cwd).profileChain directory path = fs.profileChain directory path :=
  -- Both follow the bases with one budget, from nothing visited.
  followChain_within directoryAbsolute absolute _ (by simp)

end FileSystem

section Board

variable {fs : FileSystem} {cwd : Location} {directory : Path} {reference : ProfileReference}

/-- The file of a bare name, or of an absolute path, has an absolute path. -/
theorem ProfileReference.isAbsolute_resolve (absolute : directory.isAbsolute)
    (fixed : ∀ path, reference = .file path → path.isAbsolute) (base : Path) :
    (reference.resolve directory base).isAbsolute := by
  -- A bare name is joined to the directory, and a path stands for itself.
  cases reference with
  | bare name => exact Path.isAbsolute_join_of_isAbsolute absolute _
  | file path =>
    have own := fixed path rfl
    rw [resolve, Path.join_of_isAbsolute base own]
    exact own

/-- The profiles of an absolute directory are found alike. -/
theorem Profile.discover_within (absolute : directory.isAbsolute) :
    Profile.discover (fs.within cwd) directory = Profile.discover fs directory := by
  simp only [Profile.discover, directory?_within absolute, namesIn_within]

namespace Blueprint

variable {blueprint : Blueprint}

/-- A profile with an absolute path is prepared alike from every working directory. -/
theorem prepare_within (directoryAbsolute : directory.isAbsolute)
    (absolute : (reference.resolve directory ⟨""⟩).isAbsolute) :
    blueprint.prepare (fs.within cwd) directory reference =
      blueprint.prepare fs directory reference := by
  -- The chain is the same, and everything else is computed from it.
  simp only [prepare, Profile.load, profileChain_within directoryAbsolute absolute]

/-- All profiles of an absolute directory are prepared alike. -/
theorem validateAll_within (absolute : directory.isAbsolute) :
    blueprint.validateAll (fs.within cwd) directory = blueprint.validateAll fs directory := by
  -- The profiles found are the same, and each of them has an absolute path.
  unfold validateAll
  rw [Profile.discover_within absolute]
  apply List.map_congr_left
  rintro ⟨name, path⟩ among
  -- A profile that is found has its path from the directory.
  obtain ⟨-, rfl⟩ := Profile.mem_discover_iff.1 among
  have own := Path.isAbsolute_join_of_isAbsolute absolute ⟨name ++ profileSuffix⟩
  have resolved : ((ProfileReference.file (directory.join ⟨name ++ profileSuffix⟩)).resolve directory
      ⟨""⟩).isAbsolute := by
    rwa [ProfileReference.resolve, Path.join_of_isAbsolute _ own]
  simp only [prepare_within absolute resolved]

end Blueprint

end Board

section Run

variable {fs : FileSystem} {cwd : Location} {layout : Layout}

/-- Texts are written alike to absolute places from every working directory. -/
theorem writeTexts_within (absolute : ∀ artifact, (layout.path artifact).isAbsolute)
    (texts : List (Artifact × String)) (written : List Path) (fs : FileSystem) (cwd : Location) :
    writeTexts layout texts written (fs.within cwd) =
      ((writeTexts layout texts written fs).1, (writeTexts layout texts written fs).2.within cwd) := by
  -- Each text leaves a file system that differs in nothing but the standpoint.
  induction texts generalizing written fs with
  | nil => rfl
  | cons entry rest ih =>
    obtain ⟨artifact, text⟩ := entry
    simp only [writeTexts, writeIfChanged_within (absolute artifact)]
    obtain ⟨result, after⟩ := fs.writeIfChanged (layout.path artifact) text
    cases result with
    | error cause => rfl
    | ok changed =>
      simp only [ih]
      obtain ⟨outcomes, last⟩ := writeTexts layout rest
        (if changed then written ++ [layout.path artifact] else written) after
      cases outcomes <;> rfl

/-- Texts are compared alike with the files in absolute places. -/
theorem compareTexts_within (absolute : ∀ artifact, (layout.path artifact).isAbsolute)
    (texts : List (Artifact × String)) :
    compareTexts layout (fs.within cwd) texts = compareTexts layout fs texts := by
  -- Induction on the texts, each of which is compared with the file at an absolute path.
  induction texts with
  | nil => rfl
  | cons entry rest ih =>
    obtain ⟨artifact, text⟩ := entry
    simp only [compareTexts, isUpToDate_within (absolute artifact), ih]

variable {blueprint : Blueprint} {request : Request}

/-- A request whose paths are absolute is carried out alike from every working directory. -/
theorem Blueprint.run_within (directory : request.directory.isAbsolute)
    (profile : (request.reference.resolve request.directory ⟨""⟩).isAbsolute)
    (places : ∀ artifact, (request.layout.path artifact).isAbsolute) :
    blueprint.run (fs.within cwd) request =
      ((blueprint.run fs request).1, (blueprint.run fs request).2.within cwd) := by
  -- Preparing, rendering and writing look at files by absolute paths only.
  simp only [run, renderRequest, prepare_within directory profile]
  cases blueprint.prepare fs request.directory request.reference with
  | error e => rfl
  | ok board =>
    simp only
    cases renderAll (board.context (bannerSource board.profile.source request.layout.root)) with
    | error e => rfl
    | ok texts =>
      simp only
      cases request.mode with
      | write =>
        simp only [writeTexts_within places]
        obtain ⟨outcomes, after⟩ := writeTexts request.layout texts [] fs
        cases outcomes <;> rfl
      | check =>
        simp only [compareTexts_within places]
        cases compareTexts request.layout fs texts <;> rfl

end Run

end BoardConfig
