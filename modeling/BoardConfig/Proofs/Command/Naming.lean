import BoardConfig.Proofs.Command.EveryProfile
import BoardConfig.Proofs.Command.Standpoint

/-! The names that profiles are listed under, and which of them stand for the files that are listed. -/

namespace BoardConfig

open FileSystem

/-- Whether a text is some stem with the suffix of a profile's file behind it. -/
def IsSuffixed (text : String) : Prop :=
  ∃ stem, text = stem ++ profileSuffix

/-- A text ends as the name of a profile's file exactly if it is suffixed. -/
theorem namesProfileFile_iff {text : String} : namesProfileFile text ↔ IsSuffixed text := by
  -- A text has a stem before the suffix exactly if the stem can be taken from it.
  constructor
  · intro ends
    have named : profileName? text = some _ := if_pos ends
    exact ⟨_, profileName?_eq_some_iff.1 named⟩
  · rintro ⟨stem, rfl⟩
    have named := profileName?_eq_some_iff.2 (rfl : stem ++ profileSuffix = stem ++ profileSuffix)
    unfold profileName? at named
    split at named
    · assumption
    · cases named

/-- Below any base, the last piece of a plain text's path is the text. -/
theorem Path.getLast?_join (base : Path) {text : String} (plain : '/' ∉ text.toList) :
    (base.join ⟨text⟩).pieces.getLast? = some text := by
  -- A plain text is one piece, and joining puts it behind all others.
  obtain ⟨pieces, relative⟩ := pieces_of_plain plain
  obtain ⟨kept, -, -, -, -, joined⟩ := @pieces_join base _ relative
  rw [joined, pieces, List.getLast?_concat]

namespace ProfileReference

variable {directory : Path} {name : String}

/-- Without a slash, a name with the suffix behind it is the path of a file. -/
theorem parse_of_suffix (suffixed : IsSuffixed name) :
    parse name = .file ⟨name⟩ :=
  if_pos (.inr (namesProfileFile_iff.2 suffixed))

/-- Without a slash, any other name is bare. -/
theorem parse_of_not_suffix (plain : '/' ∉ name.toList)
    (whole : ¬ IsSuffixed name) : parse name = .bare name := by
  -- A name is a path for a slash or for the suffix, and here there is neither.
  apply if_neg
  rintro (slash | suffixed)
  · exact plain slash
  · exact whole (namesProfileFile_iff.1 suffixed)

/-- The path of a profile's file is read as a path. -/
theorem parse_join (directory : Path) (name : String) :
    parse (directory.join ⟨name ++ profileSuffix⟩).text =
      .file (directory.join ⟨name ++ profileSuffix⟩) := by
  -- The suffix is at the end of the joined text, whatever the directory is.
  obtain ⟨front, ends⟩ := directory.join_text ⟨name ++ profileSuffix⟩
  have suffixed : IsSuffixed (directory.join ⟨name ++ profileSuffix⟩).text :=
    ⟨front ++ name, by rw [ends, String.append_assoc]⟩
  exact parse_of_suffix suffixed

/-- A name stands for the file that is named after it exactly if it has not the suffix already. -/
theorem resolve_parse_iff (plain : '/' ∉ name.toList) (base : Path) :
    (parse name).resolve directory base = directory.join ⟨name ++ profileSuffix⟩ ↔
      ¬ IsSuffixed name := by
  -- With the suffix a name is a path, and a path gets no second suffix.
  constructor
  · intro same suffixed
    rw [parse_of_suffix suffixed, resolve] at same
    -- The two paths end with different pieces: the name, and the name with one more suffix.
    have plainFile : '/' ∉ (name ++ profileSuffix).toList := by
      simpa [profileSuffix] using plain
    have last := base.getLast?_join plain
    rw [same, directory.getLast?_join plainFile, Option.some.injEq] at last
    have longer := congrArg String.length last
    rw [String.length_append] at longer
    have five : profileSuffix.length = 5 := rfl
    omega
  · intro whole
    rw [parse_of_not_suffix plain whole, resolve]

end ProfileReference

namespace FileSystem

variable {fs : FileSystem} {directory : Path} {location : Location}

/-- A name's path leads to a file exactly if one stands there, and neither is too long. -/
theorem isFile_join_iff (leads : fs.directory? directory = some location) (name : Name) :
    fs.isFile (directory.join ⟨name.text⟩) ↔
      (∃ contents, fs.entryAt? (name :: location) = some (.file contents)) ∧
        name.text.utf8ByteSize ≤ nameLimit ∧
        (directory.join ⟨name.text⟩).text.utf8ByteSize ≤ pathLimit := by
  obtain ⟨pieces, relative⟩ := Path.pieces_of_plain name.slash_not_mem
  rw [isFile_iff]
  by_cases short : (directory.join ⟨name.text⟩).text.utf8ByteSize ≤ pathLimit
  · -- The path comes by the directory, and its last step enters the entry.
    have comes := ComesBy.join leads relative short
    have zero : ¬ HasZero [name.text] := by
      rintro ⟨piece, among, inside⟩
      rw [List.mem_singleton.1 among] at inside
      exact name.zero_not_mem inside
    have enters : Step.ofPiece name.text = .enter name := dif_pos name.isName
    rw [comes.locate, pieces, if_neg zero, List.map_singleton, enters]
    simp only [walk, comes.directory, lookUp]
    by_cases small : name.text.utf8ByteSize ≤ nameLimit
    · simp only [if_neg (Nat.not_lt.2 small)]
      cases stands : fs.entryAt? (name :: location) with
      | none => simp
      | some entry => simp [stands, small, short]
    · -- The file system refuses the name.
      simp [Nat.lt_of_not_le small, small]
  · -- A path that is too long leads nowhere.
    constructor
    · rintro ⟨place, contents, located, -⟩
      exact absurd (accepted_of_locate located).2.2 short
    · intro both
      exact absurd both.2.2 short

end FileSystem

namespace Profile

variable {fs : FileSystem} {directory path : Path} {name : String}

/-- A profile that is listed is an entry of the directory, and its name has no slash. -/
theorem exists_of_mem_discover (listed : (name, path) ∈ (Profile.discover fs directory).entries) :
    ∃ location entry, fs.directory? directory = some location ∧
      (fs.entryAt? (entry :: location)).isSome ∧ entry.text = name ++ profileSuffix ∧
      path = directory.join ⟨entry.text⟩ ∧ '/' ∉ name.toList := by
  -- What is listed stands in the directory, under its own text.
  obtain ⟨⟨location, entry, what, leads, stands, text⟩, rfl⟩ := mem_discover_iff.1 listed
  refine ⟨location, entry, leads, by simp [stands], text, by rw [text], ?_⟩
  -- A slash in the name would be one in that of the entry.
  have plain := entry.slash_not_mem
  rw [text, String.toList_append, List.mem_append] at plain
  exact fun slash => plain (.inl slash)

/-- A listed path leads to a file exactly if its entry is one, and both are short enough. -/
theorem isFile_iff_of_mem_discover
    (listed : (name, path) ∈ (Profile.discover fs directory).entries) :
    fs.isFile path ↔ ∃ location entry contents, fs.directory? directory = some location ∧
      entry.text = name ++ profileSuffix ∧ fs.entryAt? (entry :: location) = some (.file contents) ∧
      entry.text.utf8ByteSize ≤ nameLimit ∧ path.text.utf8ByteSize ≤ pathLimit := by
  -- The listed path is that of one entry of the directory, which is asked for its kind.
  obtain ⟨location, entry, leads, -, text, found, -⟩ := exists_of_mem_discover listed
  rw [found, isFile_join_iff leads entry]
  constructor
  · rintro ⟨⟨contents, stands⟩, small, short⟩
    exact ⟨location, entry, contents, leads, text, stands, small, short⟩
  · rintro ⟨place, other, contents, leadsAgain, otherText, stands, small, short⟩
    -- The directory is at one place, and it has one entry of the name.
    cases leads.symm.trans leadsAgain
    have same : other = entry := by
      cases other
      cases entry
      simp_all
    subst same
    exact ⟨⟨contents, stands⟩, small, short⟩

end Profile

namespace Blueprint

variable {blueprint : Blueprint} {fs : FileSystem} {directory : Path}
  {reference : ProfileReference} {result : Except GenerationError Board}

/-- A board that is prepared has the path that its reference stands for as its source. -/
theorem source_of_prepare {board : Board}
    (prepared : blueprint.prepare fs directory reference = .ok board) :
    board.profile.source = reference.resolve directory ⟨""⟩ :=
  Profile.source_of_load (prepare_ok prepared).1

/-- What is told of a profile is prepared under its bare name, from every working directory. -/
theorem prepare_of_mem_validateAll {name : String} {result : Except GenerationError Board}
    (absolute : directory.isAbsolute) (bare : ProfileReference.parse name = .bare name)
    (told : (name, result) ∈ blueprint.validateAll fs directory) (cwd : Location) :
    blueprint.prepare (fs.within cwd) directory (.parse name) = result := by
  -- The path of a bare name starts at the profiles directory, which is absolute.
  obtain ⟨-, rfl⟩ := mem_validateAll_iff.1 told
  rw [bare]
  apply prepare_within absolute
  exact Path.isAbsolute_join_of_isAbsolute absolute _

/-- A reference that leads to no file fails for the want of one. -/
theorem prepare_of_not_isFile (missing : ¬ fs.isFile (reference.resolve directory ⟨""⟩)) :
    blueprint.prepare fs directory reference =
      .error (.profile (.notFound (reference.resolve directory ⟨""⟩))) := by
  -- The chain fails at its first link, which is the missing file.
  have unread : fs.readLink (reference.resolve directory ⟨""⟩) =
      .error (.notFound (reference.resolve directory ⟨""⟩)) := by
    unfold isFile at missing
    unfold readLink
    cases located : fs.locateFile (reference.resolve directory ⟨""⟩) with
    | error e => rfl
    | ok found => simp [located] at missing
  simp only [prepare, Profile.load, profileChain, followChain, unread]

/-- A run depends on how its profile is named only through what is prepared. -/
theorem run_of_prepare_eq (request : Request)
    (same : blueprint.prepare fs request.directory reference =
      blueprint.prepare fs request.directory request.reference) :
    blueprint.run fs { request with reference } = blueprint.run fs request := by
  -- The reference is looked at in preparing the profile and nowhere else.
  simp only [run, renderRequest, same]

end Blueprint

/-- Whether two names of profiles lead every command to one answer. -/
structure NameAlike (fs : FileSystem) (id other : String) : Prop where
  describe (format : Format) :
    (Command.describe id format).run fs = (Command.describe other format).run fs
  validate : (Command.validate (some id)).run fs = (Command.validate (some other)).run fs
  generate (check : Bool) (format : Format) :
    (Command.generate (some id) check format).run fs =
      (Command.generate (some other) check format).run fs

/-- Names under which one profile is prepared lead every command to one answer. -/
theorem NameAlike.of_prepare_eq {fs : FileSystem} {project : Project} {id other : String}
    (discovered : Project.discover fs fs.cwd.path = .ok project)
    (same : Blueprint.standard.prepare fs project.profilesDirectory (.parse id) =
      Blueprint.standard.prepare fs project.profilesDirectory (.parse other)) :
    NameAlike fs id other where
  describe format := by simp only [Command.run, discovered, Project.describe, same]
  validate := by simp only [Command.run, discovered, Project.validate, Project.reference, same]
  generate check format := by
    simp only [Command.run, discovered, Project.generate, Project.request, Project.reference]
    cases project.layout with
    | error e => rfl
    | ok layout =>
      -- The two requests differ in nothing but the name.
      have runs := Blueprint.run_of_prepare_eq ⟨project.profilesDirectory, .parse other, layout,
        if check then .check else .write⟩ same
      simp only [runs]

/-- A bare name leads every command to the answer that the path of its file leads to. -/
theorem NameAlike.of_bare {fs : FileSystem} {project : Project} {name : String}
    (discovered : Project.discover fs fs.cwd.path = .ok project)
    (bare : ProfileReference.parse name = .bare name) :
    NameAlike fs name (project.profilesDirectory.join ⟨name ++ profileSuffix⟩).text := by
  -- Both spellings are read as references that lead to the file of the bare name.
  apply NameAlike.of_prepare_eq discovered
  rw [bare, ProfileReference.parse_join]
  exact (Blueprint.prepare_bare ..).symm

namespace Command

/-- Behind `profile`, a command for profiles is read with its own arguments. -/
theorem ofArguments_profile {command : String} {arguments : List String} {asked : Command}
    (known : command ∈ profileCommands)
    (reads : ofProfile { command := some (command, arguments) } = .ok asked) :
    ofArguments ("profile" :: command :: arguments) = .ok asked := by
  -- The inner command is one of a few words, so it is found at its level.
  have words : ∀ command ∈ profileCommands, Argument.ofText command = .word := by decide
  have inner : readLevel profileLevel ofProfile (command :: arguments) = .ok asked := by
    have listed : command ∈ profileLevel.commands := known
    simp only [readLevel, Level.read, words command known, if_pos listed, reads]
    rfl
  -- The outermost level has seen nothing but the command.
  have outer : ofArguments ("profile" :: command :: arguments) =
      Findings.yield { command := some ("profile", command :: arguments) }
        (readLevel profileLevel ofProfile (command :: arguments)) := rfl
  rw [outer, inner]
  rfl

/-- A name that is no flag is read as that of the profile, by each command that takes one. -/
theorem ofArguments_name {name : String} (word : Argument.ofText name = .word) :
    ofArguments ["profile", "describe", name] = .ok (.describe name .text) ∧
    ofArguments ["profile", "validate", name] = .ok (.validate (some name)) ∧
    ofArguments ["generate", "--profile", name] = .ok (.generate (some name) false .text) := by
  -- At each of the levels, the name is the one word that is left.
  refine ⟨?_, ?_, ?_⟩
  · apply ofArguments_profile (by decide)
    show readLevel describeLevel ofDescribe [name] = _
    simp [readLevel, Level.read, word, describeLevel, Level.takeWords, Findings.yield, ofDescribe,
      Findings.has, Findings.format]
  · apply ofArguments_profile (by decide)
    show readLevel validateLevel ofValidate [name] = _
    simp [readLevel, Level.read, word, validateLevel, Level.takeWords, Findings.yield, ofValidate,
      Findings.has]
  · have option : Argument.ofText "--profile" = .long "profile" none := by decide
    have inner : readLevel generateLevel ofGenerate ["--profile", name] =
        .ok (.generate (some name) false .text) := by
      simp [readLevel, Level.read, word, option, generateLevel, Level.takeOption, Findings.yield,
        ofGenerate, Findings.has, Findings.format]
    have outer : ofArguments ["generate", "--profile", name] =
        Findings.yield { command := some ("generate", ["--profile", name]) }
          (readLevel generateLevel ofGenerate ["--profile", name]) := rfl
    rw [outer, inner]
    rfl

end Command

/--
A profile is selected by the name that it is listed under exactly if the name has no suffix of its own.

Every entry with the suffix is listed, a directory as well, and what is no regular file (or lies too
deep) is told to be missing. From every working directory of the project, a name without the suffix
stands for the listed file: what is prepared under it is what the list tells, and every command
answers as for the file's path. A name with the suffix is read as the path of another file, from
whatever base.
-/
theorem listed_names_exact (fs : FileSystem) (directory : Path) {name : String} {path : Path}
    (listed : (name, path) ∈ (Profile.discover fs directory).entries) :
    (fs.isFile path ↔ ∃ location entry contents, fs.directory? directory = some location ∧
      entry.text = name ++ profileSuffix ∧ fs.entryAt? (entry :: location) = some (.file contents) ∧
      entry.text.utf8ByteSize ≤ nameLimit ∧ path.text.utf8ByteSize ≤ pathLimit) ∧
    (∀ base, (ProfileReference.parse name).resolve directory base = path ↔ ¬ IsSuffixed name) ∧
    (∀ (blueprint : Blueprint) result, (name, result) ∈ blueprint.validateAll fs directory →
      (¬ fs.isFile path → result = .error (.profile (.notFound path))) ∧
      ∀ board, result = .ok board → board.profile.source = path) ∧
    (∀ (project : Project) (cwd : Location), Project.discover fs cwd.path = .ok project →
      project.profilesDirectory = directory →
      (¬ IsSuffixed name →
        (∀ (blueprint : Blueprint) result, (name, result) ∈ blueprint.validateAll fs directory →
          blueprint.prepare (fs.within cwd) directory (.parse name) = result) ∧
        NameAlike (fs.within cwd) name path.text) ∧
      (IsSuffixed name → ∀ (blueprint : Blueprint) board,
        blueprint.prepare (fs.within cwd) directory (.parse name) = .ok board →
          board.profile.source ≠ path)) ∧
    (Argument.ofText name = .word →
      Command.ofArguments ["profile", "describe", name] = .ok (.describe name .text) ∧
      Command.ofArguments ["profile", "validate", name] = .ok (.validate (some name)) ∧
      Command.ofArguments ["generate", "--profile", name] =
        .ok (.generate (some name) false .text)) := by
  -- What is listed under a name is the path of the file with that name and the suffix.
  obtain ⟨-, entry, -, -, text, found, plain⟩ := Profile.exists_of_mem_discover listed
  have own : path = directory.join ⟨name ++ profileSuffix⟩ := by rw [found, text]
  -- That path is where the name leads, if it is taken for a bare one.
  have resolved (base : Path) :
      (ProfileReference.parse name).resolve directory base = path ↔ ¬ IsSuffixed name := by
    rw [own]
    exact ProfileReference.resolve_parse_iff plain base
  refine ⟨Profile.isFile_iff_of_mem_discover listed, resolved, ?_, ?_, Command.ofArguments_name⟩
  · intro blueprint result told
    obtain ⟨-, rfl⟩ := Blueprint.mem_validateAll_iff.1 told
    have bare : (ProfileReference.bare name).resolve directory ⟨""⟩ = path := own.symm
    constructor
    · -- What is told is what preparing the bare name gives, which begins with its file.
      intro missing
      rw [← bare] at missing ⊢
      exact Blueprint.prepare_of_not_isFile missing
    · intro board prepared
      rw [← bare]
      exact Blueprint.source_of_prepare prepared
  · -- From a directory of the project its root is absolute, and with it the listed paths.
    rintro project cwd discovered rfl
    have top := cwd.isAbsolute_path
    have rooted : project.root.isAbsolute := Project.isAbsolute_root top discovered
    have absolute := Project.isAbsolute_profilesDirectory rooted
    have here : Project.discover (fs.within cwd) cwd.path = .ok project :=
      (Project.discover_within top).trans discovered
    constructor
    · intro whole
      have bare := ProfileReference.parse_of_not_suffix plain whole
      constructor
      · intro blueprint result told
        exact Blueprint.prepare_of_mem_validateAll absolute bare told cwd
      · rw [own]
        exact NameAlike.of_bare here bare
    · -- A source names one path only, and the two differ.
      intro suffixed blueprint board prepared same
      rw [Blueprint.source_of_prepare prepared] at same
      exact (resolved ⟨""⟩).1 same suffixed

/-- A file whose name has the suffix twice, and a directory whose name has it once. -/
def suffixedFiles : FileSystem where
  entries := [([⟨"a.toml.toml", by decide⟩], .file sampleDocument.toUTF8),
    ([⟨"d.toml", by decide⟩], .directory)]
  distinct := by decide
  rooted := List.forall_mem_cons.2 ⟨.inl rfl, List.forall_mem_singleton.2 (.inl rfl)⟩
  cwd := []

/-- The sample profile is selected by its name; a suffixed name and a directory are listed in vain. -/
theorem listed_names_exact_samples :
    NameAlike (projectFiles.within [workName]) "board" "/board.toml" ∧
    ("a.toml", ⟨"/a.toml.toml"⟩) ∈ (Profile.discover suffixedFiles ⟨"/"⟩).entries ∧
    (∀ base, (ProfileReference.parse "a.toml").resolve ⟨"/"⟩ base ≠ ⟨"/a.toml.toml"⟩) ∧
    ("d", ⟨"/d.toml"⟩) ∈ (Profile.discover suffixedFiles ⟨"/"⟩).entries ∧
    ¬ suffixedFiles.isFile ⟨"/d.toml"⟩ := by
  have board : ("board", ⟨"/board.toml"⟩) ∈ (Profile.discover projectFiles ⟨"/"⟩).entries := by
    decide +kernel
  have twice : ("a.toml", ⟨"/a.toml.toml"⟩) ∈ (Profile.discover suffixedFiles ⟨"/"⟩).entries := by
    decide +kernel
  have directory : ("d", ⟨"/d.toml"⟩) ∈ (Profile.discover suffixedFiles ⟨"/"⟩).entries := by
    decide +kernel
  refine ⟨?_, twice, ?_, directory, ?_⟩
  · have discovered : Project.discover projectFiles (Location.path [workName]) =
        .ok activeProject := by decide +kernel
    have whole : ¬ IsSuffixed "board" := mt namesProfileFile_iff.2 (by decide)
    exact ((listed_names_exact projectFiles ⟨"/"⟩ board).2.2.2.1 activeProject [workName]
      discovered (by decide)).1 whole |>.2
  · intro base same
    -- The name is the file's only if it has no suffix, which it has.
    have whole := ((listed_names_exact suffixedFiles ⟨"/"⟩ twice).2.1 base).1 same
    exact whole ⟨"a", by decide⟩
  · intro regular
    obtain ⟨place, entry, contents, leads, text, stands, -⟩ :=
      (listed_names_exact suffixedFiles ⟨"/"⟩ directory).1.1 regular
    -- What stands there is the directory.
    have top : suffixedFiles.directory? ⟨"/"⟩ = some [] := by decide +kernel
    cases top.symm.trans leads
    have same : entry = ⟨"d.toml", by decide⟩ := by
      cases entry
      simpa [profileSuffix] using text
    subst same
    have there : suffixedFiles.entryAt? [⟨"d.toml", by decide⟩] = some .directory := by
      decide
    cases there.symm.trans stands

end BoardConfig
