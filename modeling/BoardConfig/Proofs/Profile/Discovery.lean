import BoardConfig.Proofs.FileSystem.AlikeUpdate
import BoardConfig.Proofs.FileSystem.SameDirectories
import BoardConfig.Proofs.Profile.Counterparts
import BoardConfig.SortedMap.Lookup

/-! Which profiles a directory holds, and which files the result of loading one of them depends on. -/

namespace BoardConfig

/-- An entry is a profile exactly under the name that its suffix leaves. -/
theorem profileName?_eq_some_iff {entry name : String} :
    profileName? entry = some name ↔ entry = name ++ profileSuffix := by
  -- The suffix is looked for at the end, and what is left is the name.
  unfold profileName? namesProfileFile
  constructor
  · intro named
    split at named
    · rename_i ends
      obtain ⟨front, parts⟩ := List.isSuffixOf_iff_suffix.1 ends
      -- The characters before the suffix are as many as are taken.
      have count : entry.length - profileSuffix.length = front.length := by
        rw [← String.length_toList, ← String.length_toList, ← parts, List.length_append]
        omega
      rw [count, ← parts, List.take_left, Option.some.injEq] at named
      apply String.toList_injective
      rw [String.toList_append, ← named, String.toList_ofList, parts]
    · cases named
  · -- The suffix is found where it was put.
    intro same
    subst same
    have ends : profileSuffix.toList <:+ (name ++ profileSuffix).toList := by
      rw [String.toList_append]
      exact List.suffix_append _ _
    have count : (name ++ profileSuffix).length - profileSuffix.length = name.toList.length := by
      rw [String.length_append, ← String.length_toList]
      omega
    rw [if_pos (List.isSuffixOf_iff_suffix.2 ends), count, String.toList_append, List.take_left,
      String.ofList_toList]

namespace FileSystem

variable {fs other : FileSystem} {directory start path : Path} {location : Location}

/-- Whether a path leads to a directory that has an entry of a name. -/
def HasEntry (fs : FileSystem) (directory : Path) (text : String) : Prop :=
  ∃ location name entry, fs.directory? directory = some location ∧
    fs.entryAt? (name :: location) = some entry ∧ name.text = text

/-- Whether a path is read on the way along the files of a profile. -/
def Reads (fs : FileSystem) (directory start path : Path) : Prop :=
  ∃ links, fs.Walk directory start links path

/-- Each link of a walk was read at a path on the way. -/
theorem Walk.reads {links : List ProfileLink} (walk : fs.Walk directory start links path) :
    ∀ link ∈ links, fs.Reads directory start link.path := by
  -- The walk came by the path of a link before it took the step with that link.
  induction walk with
  | start => simp
  | step walk holds new names ih =>
    intro link among
    rcases List.mem_append.1 among with earlier | last
    · exact ih link earlier
    · rw [List.mem_singleton.1 last]
      exact ⟨_, walk⟩

/-- An entry of a directory has its place where its path leads. -/
theorem place_entry (leads : fs.directory? directory = some location) (name : Name) :
    fs.place (directory.join ⟨name.text⟩) = name :: location := by
  -- The path to the entry is that of the directory with the name behind it.
  obtain ⟨located, _⟩ := directory?_eq_some_iff.1 leads
  have filled := (accepted_of_locate located).1
  obtain ⟨pieces, relative⟩ := Path.pieces_of_plain name.slash_not_mem
  -- The name is one step behind those that lead to the directory.
  rw [place_join_of_relative fs filled relative, pieces, ← locate_ok located, List.map_singleton,
    Step.ofPiece, dif_pos name.isName]
  rfl

namespace SameDirectories

/-- A directory has an entry in both if what stands at its path is kept. -/
theorem hasEntry (same : SameDirectories fs other) {text : String}
    (kept : KeptAt fs other (directory.join ⟨text⟩)) (has : fs.HasEntry directory text) :
    other.HasEntry directory text := by
  -- Both have the directory, and its entry is at the place that is kept.
  obtain ⟨location, name, entry, leads, stands, rfl⟩ := has
  rw [KeptAt, place_entry leads, stands] at kept
  exact ⟨location, name, entry, (same.directory?_eq directory).trans leads, kept, rfl⟩

/-- A path whose file is kept gives both the same link, or the same error. -/
theorem readLink_eq (same : SameDirectories fs other) (kept : KeptAt fs other path) :
    other.readLink path = fs.readLink path := by
  -- Reading looks at the file that the path leads to, and at nothing else.
  unfold FileSystem.readLink
  cases located : fs.locateFile path with
  | ok found => rw [same.locateFile_ok kept located]
  | error e =>
    cases otherLocated : other.locateFile path with
    | ok found =>
      -- A file that the path leads to in one of them is led to in the other.
      have back := same.symm.locateFile_ok (same.keptAt_symm kept) otherLocated
      rw [located] at back
      cases back
    | error otherError => rfl

/-- A path at which a link is read is told by the same in both, if its file is kept. -/
theorem identity_eq (same : SameDirectories fs other) {link : ProfileLink} (kept : KeptAt fs other path)
    (given : fs.readLink path = .ok link) : other.identity path = fs.identity path := by
  -- The path leads to the same place in both.
  obtain ⟨_, _, located, _⟩ := readLink_ok given
  have leads := (FileSystem.locateFile_ok located).1
  have otherLeads := (FileSystem.locateFile_ok (same.locateFile_ok kept located)).1
  exact identity_congr same.cwd (otherLeads.trans leads.symm)

/-- From a path of the walk on, the loop gives the same where all that is read is kept. -/
theorem followChain_eq (same : SameDirectories fs other)
    (kept : ∀ path, fs.Reads directory start path → KeptAt fs other path) (budget : Nat)
    {links : List ProfileLink} (walk : fs.Walk directory start links path) :
    other.followChain directory budget links path = fs.followChain directory budget links path := by
  -- Each turn reads one path of the walk, and the base that it finds is the next one.
  induction budget generalizing links path with
  | zero => rfl
  | succ budget ih =>
    have visited : links.map (other.identity ·.path) = links.map (fs.identity ·.path) :=
      List.map_congr_left fun link among =>
        same.identity_eq (kept _ (walk.reads link among)) (walk.visits.read link among)
    simp only [FileSystem.followChain, same.readLink_eq (kept path ⟨links, walk⟩), visited]
    cases read : fs.readLink path with
    | error e => rfl
    | ok link =>
      simp only [same.identity_eq (kept path ⟨links, walk⟩) read]
      by_cases seen : fs.identity path ∈ links.map (fs.identity ·.path)
      · simp only [seen, if_true]
      · simp only [seen, if_false]
        cases further : basePath? directory link with
        | none => rfl
        | some base =>
          obtain ⟨holds, rfl⟩ := holds_of_readLink read
          exact ih (walk.step holds seen (namesBase_of_basePath? further))

/-- A profile's chain depends on no other files than those at the paths that are read. -/
theorem profileChain_eq (same : SameDirectories fs other)
    (kept : ∀ path, fs.Reads directory start path → KeptAt fs other path) :
    other.profileChain directory start = fs.profileChain directory start :=
  same.followChain_eq kept _ .start

end SameDirectories

end FileSystem

namespace Profile

open FileSystem

variable {fs other : FileSystem} {directory path : Path} {reference : ProfileReference}

/-- What is loaded depends on no other files than those at the paths that are read. -/
theorem load_of_kept (same : SameDirectories fs other) (schema : Schema)
    (kept : ∀ path, fs.Reads directory (reference.resolve directory ⟨""⟩) path →
      KeptAt fs other path) :
    load other schema directory reference = load fs schema directory reference := by
  simp only [load, same.profileChain_eq kept]

/-- A profile that is loaded has the path that it was loaded from as its source. -/
theorem source_of_load {schema : Schema} {profile : Profile}
    (loaded : load fs schema directory reference = .ok profile) :
    profile.source = reference.resolve directory ⟨""⟩ := by
  -- The source is the path of the chain's first file.
  unfold load at loaded
  simp only at loaded
  split at loaded
  · cases loaded
  · cases loaded
  · rename_i top bases followed
    unfold ofChain at loaded
    split at loaded <;> cases loaded
    exact path_of_profileChain followed

/-- A bare name stands for the file that a directory holds under it. -/
theorem load_bare (fs : FileSystem) (schema : Schema) (directory : Path) (name : String) :
    load fs schema directory (.bare name) =
      load fs schema directory (.file (directory.join ⟨name ++ profileSuffix⟩)) := by
  -- A path is looked up from where it starts, with nothing put before it.
  have resolved : (ProfileReference.file (directory.join ⟨name ++ profileSuffix⟩)).resolve directory
      ⟨""⟩ = (ProfileReference.bare name).resolve directory ⟨""⟩ := Path.join_of_empty rfl
  simp only [load, resolved]

/-- Under each name, a directory holds the profile of the entry that has the name before its suffix. -/
theorem mem_discover_iff {name : String} :
    (name, path) ∈ (discover fs directory).entries ↔
      fs.HasEntry directory (name ++ profileSuffix) ∧
        path = directory.join ⟨name ++ profileSuffix⟩ := by
  -- The names are collected from the entries of the directory.
  unfold discover
  cases leads : fs.directory? directory with
  | none => simp [HasEntry, leads, SortedMap.empty]
  | some location =>
    have named (name : String) (path : Path) :
        (name, path) ∈ ((fs.namesIn location).filterMap fun entry =>
          (profileName? entry.text).map fun name => (name, directory.join ⟨entry.text⟩)) ↔
          fs.HasEntry directory (name ++ profileSuffix) ∧
            path = directory.join ⟨name ++ profileSuffix⟩ := by
      simp only [List.mem_filterMap, mem_namesIn_iff, Option.map_eq_some_iff, profileName?_eq_some_iff,
        Prod.mk.injEq]
      constructor
      · intro listed
        obtain ⟨entry, ⟨what, stands⟩, _, same, rfl, rfl⟩ := listed
        exact ⟨⟨location, entry, what, leads, stands, same⟩, by rw [same]⟩
      · intro both
        obtain ⟨⟨place, entry, what, there, stands, same⟩, rfl⟩ := both
        cases leads.symm.trans there
        exact ⟨entry, ⟨what, stands⟩, name, same, rfl, by rw [same]⟩
    -- The path of a profile is made from its name, so a name has one path only.
    simp only
    rw [SortedMap.mem_entries_ofList_iff, named]
    intro name path other listed again
    rw [((named name path).1 listed).2, ((named name other).1 again).2]

end Profile

end BoardConfig
