import BoardConfig.Proofs.Profile.Overriding

/-! The walk along the files of a profile ends, and tells exactly why where it fails. -/

namespace BoardConfig

/-- The path at which the base of a file is looked up is the one that the file names. -/
theorem namesBase_of_basePath? {directory path : Path} {link : ProfileLink}
    (found : FileSystem.basePath? directory link = some path) : NamesBase directory link path := by
  -- A text that names a path is parsed to it, and any other one to a bare name.
  rw [FileSystem.basePath?, Option.map_eq_some_iff] at found
  obtain ⟨text, named, rfl⟩ := found
  by_cases isPath : NamesPath text
  · rw [ProfileReference.parse, if_pos (namesPath_iff.1 isPath)]
    exact .path named isPath
  · rw [ProfileReference.parse, if_neg (mt namesPath_iff.2 isPath)]
    exact .bare named isPath

namespace FileSystem

/--
The links that have been visited on the way from a path, and the path that is read next.

Each link is held by a file, at a path that is told from all before it, and names the path behind it.
-/
inductive Walk (fs : FileSystem) (directory start : Path) : List ProfileLink → Path → Prop
  | start : Walk fs directory start [] start
  | step {links : List ProfileLink} {link : ProfileLink} {path : Path}
      (walk : Walk fs directory start links link.path) (holds : fs.Holds link)
      (new : fs.identity link.path ∉ links.map (fs.identity ·.path))
      (names : NamesBase directory link path) : Walk fs directory start (links ++ [link]) path

/-- What comes of a walk that has visited some links and does not get past a path. -/
inductive Stops (fs : FileSystem) (links : List ProfileLink) (path : Path) :
    Except ProfileError (List ProfileLink) → Prop
  /-- The path does not lead to a file. -/
  | missing (absent : fs.isFile path = false) : Stops fs links path (.error (.notFound path))
  /-- The bytes of the file are those of no text. -/
  | notText {location : Location} {contents : ByteArray}
      (located : fs.locateFile path = .ok (location, contents))
      (noText : ∀ document : String, contents ≠ document.toUTF8) :
      Stops fs links path (.error .notText)
  /-- The text of the file is no profile. -/
  | malformed {location : Location} {document : String}
      (located : fs.locateFile path = .ok (location, document.toUTF8))
      (noProfile : ProfileFile.parse? document = none) :
      Stops fs links path (.error (.malformed path document))
  /-- The path leads to the file of a link that has been visited, and is told to be the same. -/
  | again {seen : ProfileLink} (among : seen ∈ links) (same : fs.locate path = fs.locate seen.path)
      (told : fs.identity path = fs.identity seen.path) :
      Stops fs links path (.error (.extendsCycle (links.map (·.name) ++ [seen.file.nameAt path])))
  /-- The path is a new one, and its file names no base. -/
  | complete {link : ProfileLink} (there : link.path = path) (holds : fs.Holds link)
      (new : fs.identity link.path ∉ links.map (fs.identity ·.path)) (alone : link.file.base = none) :
      Stops fs links path (.ok (links ++ [link]))

variable {fs : FileSystem} {directory start path : Path} {links : List ProfileLink}
  {result : Except ProfileError (List ProfileLink)}

/-- A link that is read is held by the file at its path. -/
theorem holds_of_readLink {link : ProfileLink} (given : fs.readLink path = .ok link) :
    fs.Holds link ∧ link.path = path := by
  -- What was read is the text of the file at the path.
  obtain ⟨contents, document, located, decoded, parsed, same⟩ := readLink_ok given
  have there := path_of_readLink given
  rw [fromUTF8?_eq_some_iff.1 decoded, ← there] at located
  refine ⟨⟨⟨document, located, parsed⟩, ?_⟩, there⟩
  rw [there]
  exact congrArg ProfileLink.name same

namespace Walk

/-- Every link of a walk is held by a file. -/
theorem holds (walk : fs.Walk directory start links path) : ∀ link ∈ links, fs.Holds link := by
  -- Induction on the walk, whose links are each held when they are taken.
  induction walk with
  | start => simp
  | step walk holds new names ih =>
    intro link among
    rcases List.mem_append.1 among with earlier | last
    · exact ih link earlier
    · rw [List.mem_singleton.1 last]
      exact holds

/-- A walk visits paths that are told apart. -/
theorem visits (walk : fs.Walk directory start links path) : Visits fs links := by
  -- Induction on the walk, which goes on at paths that are told from the visited ones only.
  induction walk with
  | start => exact .nil fs
  | step walk holds new names ih => exact ih.append holds.readLink new

/-- The turns that a walk has taken are behind those of the loop. -/
theorem followChain (walk : fs.Walk directory start links path) (budget : Nat) :
    fs.followChain directory (links.length + budget) [] start =
      fs.followChain directory budget links path := by
  -- The last step of the walk is one turn of the loop.
  induction walk generalizing budget with
  | start => rw [List.length_nil, Nat.zero_add]
  | @step links link path walk holds new names ih =>
    have turns : (links ++ [link]).length + budget = links.length + (budget + 1) := by
      simp only [List.length_append, List.length_singleton]
      omega
    rw [turns, ih (budget + 1)]
    simp only [FileSystem.followChain, holds.readLink, new, names.basePath?, if_false]

/-- At each path a walk goes on for one more link or stops. -/
theorem step_or_stops (walk : fs.Walk directory start links path) :
    (∃ link base, fs.Walk directory start (links ++ [link]) base) ∨
      ∃ result, fs.Stops links path result := by
  -- The path leads to a file or to none.
  cases located : fs.locateFile path with
  | error e => exact .inr ⟨_, .missing (by simp [isFile, located])⟩
  | ok found =>
    obtain ⟨location, contents⟩ := found
    -- The bytes are a text, the text is a profile, and the file is new, or else the walk stops.
    by_cases text : ∃ document : String, contents = document.toUTF8
    · obtain ⟨document, rfl⟩ := text
      cases parsed : ProfileFile.parse? document with
      | none => exact .inr ⟨_, .malformed located parsed⟩
      | some file =>
        have given := readLink_of_text located parsed
        obtain ⟨holds, there⟩ := holds_of_readLink given
        by_cases visited : fs.identity path ∈ links.map (fs.identity ·.path)
        · -- A path that is told to be a visited one leads to the same place.
          obtain ⟨seen, among, told⟩ := List.mem_map.1 visited
          have leads := (locateFile_ok located).1
          have seenLeads := (walk.holds seen among).locate
          refine .inr ⟨_, .again among ?_ told.symm⟩
          rw [leads, seenLeads, location_eq_of_identity_eq leads seenLeads told.symm]
        · cases further : basePath? directory ⟨file.nameAt path, path, location, file⟩ with
          | some base => exact .inl ⟨_, base, .step walk holds visited (namesBase_of_basePath? further)⟩
          | none => exact .inr ⟨_, .complete rfl holds visited (Option.map_eq_none_iff.1 further)⟩
    · refine .inr ⟨_, .notText located ?_⟩
      intro document same
      exact text ⟨document, same⟩

/-- Every walk comes to a path that it does not get past. -/
theorem exists_stops (walk : fs.Walk directory start links path) :
    ∃ links path result, fs.Walk directory start links path ∧ fs.Stops links path result := by
  -- Each step visits one more path, and no walk visits more than there are.
  obtain ⟨left, enough⟩ : ∃ left, pathBound < links.length + left :=
    ⟨pathBound + 1, by omega⟩
  induction left generalizing links path with
  | zero =>
    have bounded := walk.visits.length_le
    omega
  | succ left ih =>
    rcases walk.step_or_stops with ⟨link, base, next⟩ | ⟨result, stops⟩
    · apply ih next
      simp only [List.length_append, List.length_singleton]
      omega
    · exact ⟨links, path, result, walk, stops⟩

/-- A walk and the chain from the path behind it make up one chain. -/
theorem extends_append (walk : fs.Walk directory start links path) {rest : List ProfileLink}
    (complete : fs.Extends directory path rest) : fs.Extends directory start (links ++ rest) := by
  -- The last link of the walk is moved to the chain behind it.
  induction walk generalizing rest with
  | start => exact complete
  | @step links link path walk holds new names ih =>
    rw [List.append_assoc, List.singleton_append]
    exact ih (.base holds names complete)

end Walk

/-- From every path there is a walk to a path that it does not get past. -/
theorem exists_walk_stops (fs : FileSystem) (directory start : Path) :
    ∃ links path result, fs.Walk directory start links path ∧ fs.Stops links path result :=
  Walk.exists_stops .start

namespace Stops

/-- The path of a file that has been visited is read as that file once more. -/
theorem readLink_again {seen : ProfileLink} (holds : fs.Holds seen)
    (same : fs.locate path = fs.locate seen.path) :
    fs.readLink path = .ok ⟨seen.file.nameAt path, path, seen.location, seen.file⟩ := by
  -- The path leads to the file that was read before.
  obtain ⟨document, located, parsed⟩ := holds.text
  apply readLink_of_text _ parsed
  rw [locateFile, same]
  exact located

/-- A path that a walk does not get past ends the loop in one turn. -/
theorem followChain (stops : fs.Stops links path result)
    (walk : fs.Walk directory start links path) (budget : Nat) :
    fs.followChain directory (budget + 1) links path = result := by
  -- Each way to stop is one way for the turn of the loop to end.
  cases stops with
  | missing absent =>
    cases located : fs.locateFile path with
    | ok found => simp [isFile, located] at absent
    | error e => simp [FileSystem.followChain, readLink, located]
  | notText located noText =>
    rename_i contents
    have undecoded : String.fromUTF8? contents = none := by
      apply Option.eq_none_iff_forall_ne_some.2
      intro document decoded
      exact noText document (fromUTF8?_eq_some_iff.1 decoded)
    simp [FileSystem.followChain, readLink, located, undecoded]
  | malformed located noProfile =>
    rename_i document
    have decoded : String.fromUTF8? document.toUTF8 = some document := fromUTF8?_eq_some_iff.2 rfl
    simp only [FileSystem.followChain, readLink, located, decoded, noProfile]
  | again among same told =>
    rename_i seen
    have visited : fs.identity path ∈ links.map (fs.identity ·.path) := List.mem_map.2 ⟨seen, among, told.symm⟩
    simp [FileSystem.followChain, readLink_again (walk.holds seen among) same, visited]
  | complete there holds new alone =>
    subst there
    simp [FileSystem.followChain, holds.readLink, new, basePath?, alone]

/-- However many turns the loop may take beyond the number of paths, it ends where the walk stops. -/
theorem followChain_start (stops : fs.Stops links path result)
    (walk : fs.Walk directory start links path) {budget : Nat} (enough : pathBound < budget) :
    fs.followChain directory budget [] start = result := by
  -- The walk takes one turn for each link, and one more to stop.
  have bounded := walk.visits.length_le
  obtain ⟨spare, rfl⟩ : ∃ spare, budget = links.length + (spare + 1) :=
    ⟨budget - links.length - 1, by omega⟩
  rw [walk.followChain, stops.followChain walk]

/-- What is followed from a profile's path is what the walk from there stops with. -/
theorem profileChain_eq (stops : fs.Stops links path result)
    (walk : fs.Walk directory start links path) : fs.profileChain directory start = result :=
  stops.followChain_start walk (Nat.lt_succ_self pathBound)

end Stops

/-- A profile has a chain just if its files make up one that is complete. -/
theorem profileChain_eq_ok_iff :
    fs.profileChain directory start = .ok links ↔ fs.Extends directory start links := by
  -- The loop does what the walk does, and the walk always stops.
  constructor
  · -- The walk that stops with the chain makes up a chain from the start on.
    intro followed
    obtain ⟨visited, path, result, walk, stops⟩ := exists_walk_stops fs directory start
    rw [stops.profileChain_eq walk] at followed
    subst followed
    cases stops with
    | complete there holds new alone =>
      subst there
      exact walk.extends_append (.last holds alone)
  · intro complete
    exact complete.profileChain complete.nodup_locations

end FileSystem

namespace Profile

open FileSystem

variable {fs : FileSystem} {directory path : Path} {links : List ProfileLink}
  {reference : ProfileReference}

/-- Loading fails with what the walk stops at. -/
theorem load_of_stops_error (schema : Schema) {e : ProfileError}
    (walk : fs.Walk directory (reference.resolve directory ⟨""⟩) links path)
    (stops : fs.Stops links path (.error e)) : load fs schema directory reference = .error e := by
  -- An error of the loop is handed on.
  simp only [load, stops.profileChain_eq walk]

/-- Where the walk stops at a file without a base, loading checks the parameters of the chain. -/
theorem load_of_stops_ok (schema : Schema) {chain : List ProfileLink}
    (walk : fs.Walk directory (reference.resolve directory ⟨""⟩) links path)
    (stops : fs.Stops links path (.ok chain)) :
    ∃ top bases, load fs schema directory reference = ofChain schema top bases := by
  -- The chain has the last file, so it is not empty.
  obtain ⟨top, bases, rfl⟩ : ∃ top bases, chain = top :: bases := by
    cases stops
    exact List.exists_cons_of_ne_nil (by simp)
  refine ⟨top, bases, ?_⟩
  simp only [load, stops.profileChain_eq walk]

/-- Checking the parameters of a chain fails with nothing else than an error about a parameter. -/
theorem ofChain_error {schema : Schema} {top : ProfileLink} {bases : List ProfileLink}
    {e : ProfileError} (failed : ofChain schema top bases = .error e) :
    ∃ cause, e = .parameter cause := by
  -- Behind the chain, only the parameters are checked.
  unfold ofChain at failed
  split at failed <;> cases failed
  rename_i cause _
  exact ⟨cause, rfl⟩

/-- Loading fails before any parameter is checked just with what a walk stops at. -/
theorem load_error_iff (schema : Schema) {e : ProfileError} (other : ∀ cause, e ≠ .parameter cause) :
    load fs schema directory reference = .error e ↔
      ∃ links path, fs.Walk directory (reference.resolve directory ⟨""⟩) links path ∧
        fs.Stops links path (.error e) := by
  constructor
  · -- Some walk stops, and it stops with the error that loading gives.
    intro failed
    obtain ⟨links, path, result, walk, stops⟩ :=
      exists_walk_stops fs directory (reference.resolve directory ⟨""⟩)
    refine ⟨links, path, walk, ?_⟩
    cases result with
    | error found =>
      rw [load_of_stops_error schema walk stops] at failed
      cases failed
      exact stops
    | ok chain =>
      obtain ⟨top, bases, checked⟩ := load_of_stops_ok schema walk stops
      obtain ⟨cause, same⟩ := ofChain_error (checked.symm.trans failed)
      exact absurd same (other cause)
  · rintro ⟨links, path, walk, stops⟩
    exact load_of_stops_error schema walk stops

/-- A profile is loaded only where its files make up a chain that is complete. -/
theorem extends_of_load_ok {schema : Schema} {profile : Profile}
    (loaded : load fs schema directory reference = .ok profile) :
    ∃ links, fs.Extends directory (reference.resolve directory ⟨""⟩) links ∧
      (links.map (·.location)).Nodup := by
  -- Without a chain there would be an error.
  cases followed : fs.profileChain directory (reference.resolve directory ⟨""⟩) with
  | error e => simp [load, followed] at loaded
  | ok chain =>
    have complete := profileChain_eq_ok_iff.1 followed
    exact ⟨chain, complete, complete.nodup_locations⟩

/-- Parameters are checked only where the files make up a chain that is complete. -/
theorem extends_of_load_parameter {schema : Schema} {cause : ParameterError}
    (failed : load fs schema directory reference = .error (.parameter cause)) :
    ∃ links, fs.Extends directory (reference.resolve directory ⟨""⟩) links ∧
      (links.map (·.location)).Nodup := by
  -- A walk that fails has other errors, so the walk has a complete chain.
  obtain ⟨links, path, result, walk, stops⟩ :=
    exists_walk_stops fs directory (reference.resolve directory ⟨""⟩)
  cases result with
  | error e =>
    -- A walk that fails does so with an error of its own.
    rw [load_of_stops_error schema walk stops] at failed
    cases failed
    cases stops
  | ok chain =>
    have complete := profileChain_eq_ok_iff.1 (stops.profileChain_eq walk)
    exact ⟨chain, complete, complete.nodup_locations⟩

/--
The walk along the files of a profile ends, and each of its failures has one cause.

A file is visited again just if its path leads to the place of a visited one and is told to be the same:
either both are in reach of paths from the root, whatever the paths and the names of the two are, or
neither is and both are spelled by the same components. Every path is in reach that is short enough
behind the working directory's path, and where all are, the walk reads no more files than there are and
the one that it stops at. A path out of reach may lead to the same file again, but only so often as
there are other spellings, and never to a profile.
-/
theorem load_failures_exact (fs : FileSystem) (schema : Schema) (directory : Path)
    (reference : ProfileReference) :
    (∃ links path result, fs.Walk directory (reference.resolve directory ⟨""⟩) links path ∧
      fs.Stops links path result ∧ links.length ≤ pathBound ∧
      ((∀ link ∈ links, fs.reaches link.path) → links.length + 1 ≤ fs.files.length + 1) ∧
      ∀ budget, pathBound < budget →
        fs.followChain directory budget [] (reference.resolve directory ⟨""⟩) = result) ∧
    (∀ path : Path, ((Location.path fs.cwd).join path).text.utf8ByteSize ≤ pathLimit →
      fs.reaches path) ∧
    (∀ names, load fs schema directory reference = .error (.extendsCycle names) ↔
      ∃ links path seen, fs.Walk directory (reference.resolve directory ⟨""⟩) links path ∧
        seen ∈ links ∧ fs.locate path = fs.locate seen.path ∧
        ((fs.reaches path ∧ fs.reaches seen.path) ∨
          (¬ fs.reaches path ∧ ¬ fs.reaches seen.path ∧ path.components = seen.path.components)) ∧
        names = links.map (·.name) ++ [seen.file.nameAt path]) ∧
    (∀ path, load fs schema directory reference = .error (.notFound path) ↔
      ∃ links, fs.Walk directory (reference.resolve directory ⟨""⟩) links path ∧
        fs.isFile path = false) ∧
    (load fs schema directory reference = .error .notText ↔
      ∃ links path location contents,
        fs.Walk directory (reference.resolve directory ⟨""⟩) links path ∧
        fs.locateFile path = .ok (location, contents) ∧
        ∀ document : String, contents ≠ document.toUTF8) ∧
    (∀ path document, load fs schema directory reference = .error (.malformed path document) ↔
      ∃ links location,
        fs.Walk directory (reference.resolve directory ⟨""⟩) links path ∧
        fs.locateFile path = .ok (location, document.toUTF8) ∧
        ProfileFile.parse? document = none) ∧
    (∀ profile, load fs schema directory reference = .ok profile →
      ∃ links, fs.Extends directory (reference.resolve directory ⟨""⟩) links ∧
        (links.map (·.location)).Nodup) ∧
    (∀ cause, load fs schema directory reference = .error (.parameter cause) →
      ∃ links, fs.Extends directory (reference.resolve directory ⟨""⟩) links ∧
        (links.map (·.location)).Nodup) := by
  -- Some walk stops, and loading gives what it stops with, so each error has one cause.
  refine ⟨?_, fun path => reaches_of_short, ?_, ?_, ?_, ?_, fun profile => extends_of_load_ok,
    fun cause => extends_of_load_parameter⟩
  · -- The walk visits paths that are told apart, of which there are finitely many.
    obtain ⟨links, path, result, walk, stops⟩ :=
      exists_walk_stops fs directory (reference.resolve directory ⟨""⟩)
    refine ⟨links, path, result, walk, stops, walk.visits.length_le, fun reached => ?_,
      fun budget => stops.followChain_start walk⟩
    have bounded := walk.visits.length_le_files reached
    omega
  · -- A cycle is told where a visited place is reached by a path that is told to be the same.
    intro names
    rw [load_error_iff schema (by simp)]
    constructor
    · rintro ⟨links, path, walk, stops⟩
      cases stops with
      | again among same told =>
        have seenLeads := (walk.holds _ among).locate
        exact ⟨links, path, _, walk, among, same, (identity_eq_iff (same.trans seenLeads) seenLeads).1 told,
          rfl⟩
    · rintro ⟨links, path, seen, walk, among, same, told, rfl⟩
      have seenLeads := (walk.holds seen among).locate
      exact ⟨links, path, walk, .again among same
        ((identity_eq_iff (same.trans seenLeads) seenLeads).2 told)⟩
  · -- A path is missing where no file is.
    intro path
    rw [load_error_iff schema (by simp)]
    constructor
    · rintro ⟨links, path, walk, stops⟩
      cases stops with
      | missing absent => exact ⟨links, walk, absent⟩
    · rintro ⟨links, walk, absent⟩
      exact ⟨links, path, walk, .missing absent⟩
  · -- A file is no text where no text has its bytes.
    rw [load_error_iff schema (by simp)]
    constructor
    · rintro ⟨links, path, walk, stops⟩
      cases stops with
      | notText located noText => exact ⟨links, path, _, _, walk, located, noText⟩
    · rintro ⟨links, path, location, contents, walk, located, noText⟩
      exact ⟨links, path, walk, .notText located noText⟩
  · -- A text is malformed where it is not parsed to a profile.
    intro path document
    rw [load_error_iff schema (by simp)]
    constructor
    · rintro ⟨links, path, walk, stops⟩
      cases stops with
      | malformed located noProfile => exact ⟨links, _, walk, located, noProfile⟩
    · rintro ⟨links, location, walk, located, noProfile⟩
      exact ⟨links, path, walk, .malformed located noProfile⟩

end Profile

end BoardConfig
