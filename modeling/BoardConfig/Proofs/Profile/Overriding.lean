import BoardConfig.Proofs.FileSystem.Beside
import BoardConfig.Proofs.Profile.Chain
import BoardConfig.Proofs.Profile.Parameters

/-! A profile binds each name to the whole value that the nearest file of its chain binds to it. -/

namespace BoardConfig

/-- Whether a text names a profile by the path of its file and not by a bare name. -/
def NamesPath (text : String) : Prop :=
  '/' ∈ text.toList ∨ ".toml".toList <:+ text.toList

/-- The path of the base that a file names: beside the file, or in the profiles directory for a bare name. -/
inductive NamesBase (directory : Path) (link : ProfileLink) : Path → Prop
  | bare {name : String} (named : link.file.base = some name) (plain : ¬ NamesPath name) :
      NamesBase directory link (directory.join ⟨name ++ ".toml"⟩)
  | path {text : String} (named : link.file.base = some text) (isPath : NamesPath text) :
      NamesBase directory link ((link.path.parent?.getD ⟨""⟩).join ⟨text⟩)

namespace FileSystem

/-- A link is the profile that the text of the file at its path describes. -/
structure Holds (fs : FileSystem) (link : ProfileLink) : Prop where
  /-- The path leads to a file of a text that is a profile. -/
  text : ∃ document, fs.locateFile link.path = .ok (link.location, document.toUTF8) ∧
    ProfileFile.parse? document = some link.file
  /-- The profile has the name that the file gives it, else that of the file. -/
  named : link.name = link.file.nameAt link.path

/-- The files from a path on, each of which names the next one as its base, up to one without a base. -/
inductive Extends (fs : FileSystem) (directory : Path) : Path → List ProfileLink → Prop
  | last {link : ProfileLink} (holds : fs.Holds link) (alone : link.file.base = none) :
      Extends fs directory link.path [link]
  | base {link : ProfileLink} {links : List ProfileLink} {path : Path} (holds : fs.Holds link)
      (names : NamesBase directory link path) (rest : Extends fs directory path links) :
      Extends fs directory link.path (link :: links)

end FileSystem

/-- A value that the first of all files that bind a name binds to it. -/
def IsNearest (links : List ProfileLink) (name : String) (value : Toml.Value) : Prop :=
  ∃ nearer link farther, links = nearer ++ link :: farther ∧
    link.file.parameters.get? name = some value ∧
    ∀ other ∈ nearer, other.file.parameters.get? name = none

/-- The nearest value is that of the first file that binds the name. -/
theorem nearestValue?_eq_some_iff {links : List ProfileLink} {name : String} {value : Toml.Value} :
    nearestValue? links name = some value ↔ IsNearest links name value :=
  List.findSome?_eq_some_iff

/-- A merged chain binds the names that some file of it binds. -/
theorem mem_keys_mergedParameters {links : List ProfileLink} {name : String} :
    name ∈ (mergedParameters links).keys ↔ ∃ link ∈ links, name ∈ link.file.parameters.keys := by
  -- A name has a nearest value exactly if some file binds it.
  simp only [SortedMap.mem_keys_iff, get?_mergedParameters, nearestValue?]
  constructor
  · rintro ⟨value, found⟩
    obtain ⟨link, among, binds⟩ := List.exists_of_findSome?_eq_some found
    exact ⟨link, among, value, binds⟩
  · rintro ⟨link, among, value, binds⟩
    exact Option.isSome_iff_exists.1 (List.findSome?_isSome_iff.2 ⟨link, among, by simp [binds]⟩)

/-- The empty text names no path. -/
theorem NamesPath.ne_empty {text : String} (isPath : NamesPath text) : text ≠ "" := by
  -- A path has a slash or the suffix, so it has characters.
  rintro rfl
  simp [NamesPath] at isPath

/-- A text is parsed to a path exactly if it names one. -/
theorem namesPath_iff {text : String} :
    NamesPath text ↔ '/' ∈ text.toList ∨ namesProfileFile text = true := by
  -- The suffix is looked for at the end of the text.
  rw [namesProfileFile, List.isSuffixOf_iff_suffix]
  rfl

/-- The base that a file names is looked up at its path. -/
theorem NamesBase.basePath? {directory path : Path} {link : ProfileLink}
    (names : NamesBase directory link path) : FileSystem.basePath? directory link = some path := by
  -- The text is parsed to a bare name or to a path, as its form tells.
  cases names with
  | bare named plain =>
    rw [FileSystem.basePath?, named, Option.map_some, ProfileReference.parse,
      if_neg (mt namesPath_iff.2 plain)]
    rfl
  | path named isPath =>
    rw [FileSystem.basePath?, named, Option.map_some, ProfileReference.parse,
      if_pos (namesPath_iff.1 isPath)]
    rfl

/-- Files that say the same name their bases alike, each in its own directories. -/
theorem NamesBase.cases_of_file_eq {directory otherDirectory base otherBase : Path}
    {link otherLink : ProfileLink} (same : link.file = otherLink.file)
    (names : NamesBase directory link base) (otherNames : NamesBase otherDirectory otherLink otherBase) :
    (∃ name, ¬ NamesPath name ∧ base = directory.join ⟨name ++ profileSuffix⟩ ∧
      otherBase = otherDirectory.join ⟨name ++ profileSuffix⟩) ∨
    ∃ text, link.file.base = some text ∧ NamesPath text ∧
      base = (link.path.parent?.getD ⟨""⟩).join ⟨text⟩ ∧
      otherBase = (otherLink.path.parent?.getD ⟨""⟩).join ⟨text⟩ := by
  -- Whether the one text is a bare name or a path does not depend on the file system.
  cases names with
  | @bare name named plain =>
    rw [same] at named
    cases otherNames with
    | path otherNamed isPath =>
      rw [named, Option.some.injEq] at otherNamed
      exact absurd (otherNamed ▸ isPath) plain
    | bare otherNamed _ =>
      rw [named, Option.some.injEq] at otherNamed
      subst otherNamed
      exact .inl ⟨name, plain, rfl, rfl⟩
  | @path text named isPath =>
    have again := named
    rw [same] at again
    cases otherNames with
    | bare otherNamed plain =>
      rw [again, Option.some.injEq] at otherNamed
      exact absurd isPath (otherNamed ▸ plain)
    | path otherNamed _ =>
      rw [again, Option.some.injEq] at otherNamed
      subst otherNamed
      exact .inr ⟨text, named, isPath, rfl, rfl⟩

namespace FileSystem

variable {fs : FileSystem} {directory path : Path} {links : List ProfileLink}

/-- A link that a file holds is read at its path. -/
theorem Holds.readLink {link : ProfileLink} (holds : fs.Holds link) :
    fs.readLink link.path = .ok link := by
  -- The file's text is that of the link, and so is the name.
  obtain ⟨document, located, parsed⟩ := holds.text
  rw [readLink_of_text located parsed, ← holds.named]

/-- The path of a link leads to its place. -/
theorem Holds.locate {link : ProfileLink} (holds : fs.Holds link) :
    fs.locate link.path = .ok link.location := by
  -- The path was located as a file.
  obtain ⟨document, located, _⟩ := holds.text
  exact (locateFile_ok located).1

/-- Links of one place are read from one file. -/
theorem Holds.file_eq {link other : ProfileLink} (holds : fs.Holds link) (otherHolds : fs.Holds other)
    (same : link.location = other.location) : link.file = other.file := by
  -- The place has one text, which describes one profile.
  obtain ⟨document, located, parsed⟩ := holds.text
  obtain ⟨otherDocument, otherLocated, otherParsed⟩ := otherHolds.text
  have stands := (locateFile_ok located).2
  rw [same, (locateFile_ok otherLocated).2, Option.some.injEq, Entry.file.injEq, toUTF8_inj] at stands
  rw [← stands, otherParsed, Option.some.injEq] at parsed
  exact parsed.symm

/-- A link of a file that has not been visited has a path that is told from all visited ones. -/
theorem identity_not_mem {link : ProfileLink} (held : ∀ link ∈ links, fs.Holds link)
    (holds : fs.Holds link) (new : link.location ∉ links.map (·.location)) :
    fs.identity link.path ∉ links.map (fs.identity ·.path) := by
  -- If the path were told to be a visited one, the file would have been visited.
  intro among
  obtain ⟨seen, visited, told⟩ := List.mem_map.1 among
  -- Paths that were told to be the same would lead to one place.
  have same := location_eq_of_identity_eq (held seen visited).locate holds.locate told
  exact new (List.mem_map.2 ⟨seen, visited, same⟩)

/-- Links of different files have paths that are told apart. -/
theorem nodup_identities (held : ∀ link ∈ links, fs.Holds link)
    (distinct : (links.map (·.location)).Nodup) : (links.map (fs.identity ·.path)).Nodup := by
  -- Paths that were told to be the same would lead to one place.
  refine List.pairwise_map.2 ((List.pairwise_map.1 distinct).imp_of_mem ?_)
  intro link other among otherAmong differ same
  exact differ (location_eq_of_identity_eq (held link among).locate (held other otherAmong).locate same)

/-- A link behind others whose paths are all told apart is told from each of them. -/
theorem not_mem_of_nodup {visited : List ProfileLink} {link : ProfileLink}
    (distinct : ((visited ++ link :: links).map (fs.identity ·.path)).Nodup) :
    fs.identity link.path ∉ visited.map (fs.identity ·.path) := by
  -- Different paths stay different from those that stand before them.
  rw [List.map_append, List.map_cons] at distinct
  exact fun among => (List.nodup_append.1 distinct).2.2 _ among _ List.mem_cons_self rfl

/-- The bases that two links of one place name are at one place, if they are anywhere. -/
theorem location_eq_of_names {link other : ProfileLink} {base otherBase : Path}
    {location otherLocation : Location} (holds : fs.Holds link) (otherHolds : fs.Holds other)
    (same : link.location = other.location) (names : NamesBase directory link base)
    (otherNames : NamesBase directory other otherBase) (leads : fs.locate base = .ok location)
    (otherLeads : fs.locate otherBase = .ok otherLocation) : location = otherLocation := by
  -- Both links were read from one file, so both name their base in the same words.
  rcases names.cases_of_file_eq (holds.file_eq otherHolds same) otherNames with
    ⟨name, _, rfl, rfl⟩ | ⟨text, _, isPath, rfl, rfl⟩
  · -- A bare name stands for one path, whichever file names it.
    rw [leads, Except.ok.injEq] at otherLeads
    exact otherLeads
  · -- A path leads on from the directory around the place, however the place was reached.
    obtain ⟨document, located, _⟩ := holds.text
    obtain ⟨otherDocument, otherLocated, _⟩ := otherHolds.text
    have beside := locate_beside located isPath.ne_empty leads
    have otherBeside := locate_beside otherLocated isPath.ne_empty otherLeads
    rw [same, otherBeside, Except.ok.injEq] at beside
    exact beside.symm

namespace Extends

/-- Each link of a chain is held by a file. -/
theorem holds (complete : fs.Extends directory path links) : ∀ link ∈ links, fs.Holds link := by
  -- Induction along the chain.
  induction complete with
  | last holds alone => simpa using holds
  | base holds names rest ih => simpa using ⟨holds, ih⟩

/-- The first file of a chain stands at the chain's path. -/
theorem head {link : ProfileLink} (complete : fs.Extends directory path (link :: links)) :
    link.path = path := by
  cases complete <;> rfl

/-- Chains whose first files stand at one place are equally long. -/
theorem length_eq {link other : ProfileLink} {otherPath : Path} {others : List ProfileLink}
    (complete : fs.Extends directory path (link :: links))
    (otherComplete : fs.Extends directory otherPath (other :: others))
    (same : link.location = other.location) : links.length = others.length := by
  -- The place of a file decides about that of its base, and so on to a file without one.
  induction links generalizing path link other otherPath others with
  | nil =>
    cases complete with
    | last holds alone =>
      cases otherComplete with
      | last otherHolds otherAlone => rfl
      | base otherHolds names rest =>
        have further := names.basePath?
        rw [basePath?, ← holds.file_eq otherHolds same, alone] at further
        cases further
    | base holds names rest => cases rest
  | cons next links ih =>
    cases complete with
    | base holds names rest =>
      cases otherComplete with
      | last otherHolds otherAlone =>
        have further := names.basePath?
        rw [basePath?, holds.file_eq otherHolds same, otherAlone] at further
        cases further
      | @base _ others _ otherHolds otherNames otherRest =>
        cases others with
        | nil => cases otherRest
        | cons otherNext others =>
          have leads := (rest.holds next List.mem_cons_self).locate
          have otherLeads := (otherRest.holds otherNext List.mem_cons_self).locate
          rw [rest.head] at leads
          rw [otherRest.head] at otherLeads
          have onwards := location_eq_of_names holds otherHolds same names otherNames leads otherLeads
          rw [List.length_cons, List.length_cons, ih rest otherRest onwards]

/-- From each of its files on, a chain is a chain. -/
theorem behind (complete : fs.Extends directory path links) {nearer farther : List ProfileLink}
    {link : ProfileLink} (parts : links = nearer ++ link :: farther) :
    fs.Extends directory link.path (link :: farther) := by
  -- Induction on the links that stand nearer.
  induction nearer generalizing path links with
  | nil =>
    rw [parts, List.nil_append] at complete
    rw [complete.head]
    exact complete
  | cons first nearer ih =>
    rw [parts, List.cons_append] at complete
    generalize rests : nearer ++ link :: farther = others at complete
    cases complete with
    | last holds alone => simp at rests
    | base holds names rest => exact ih rest rests.symm

/-- A complete chain comes by no file twice, as it would then go on from it without an end. -/
theorem nodup_locations (complete : fs.Extends directory path links) :
    (links.map (·.location)).Nodup := by
  -- Induction along the chain, whose first file must not stand behind it.
  induction complete with
  | last holds alone => simp
  | @base link links path holds names rest ih =>
    rw [List.map_cons, List.nodup_cons]
    refine ⟨fun among => ?_, ih⟩
    obtain ⟨again, listed, same⟩ := List.mem_map.1 among
    obtain ⟨nearer, farther, parts⟩ := List.append_of_mem listed
    -- The chain from the file on would be as long as the one behind it, which it is a part of.
    have equal := length_eq (.base holds names rest) (rest.behind parts) same.symm
    rw [parts] at equal
    simp only [List.length_append, List.length_cons] at equal
    omega

/-- A chain whose paths are all told apart is followed to its end. -/
theorem followChain (complete : fs.Extends directory path links) {budget : Nat}
    {visited : List ProfileLink}
    (distinct : ((visited ++ links).map (fs.identity ·.path)).Nodup)
    (enough : links.length ≤ budget) :
    fs.followChain directory budget visited path = .ok (visited ++ links) := by
  -- Each turn moves one link to those visited.
  induction complete generalizing budget visited with
  | last holds alone =>
    cases budget with
    | zero => simp at enough
    | succ budget =>
      have new := not_mem_of_nodup distinct
      simp [FileSystem.followChain, holds.readLink, new, basePath?, alone]
  | @base link links path holds names rest ih =>
    cases budget with
    | zero => simp at enough
    | succ budget =>
      have new := not_mem_of_nodup distinct
      have regroup : visited ++ link :: links = visited ++ [link] ++ links := by simp
      rw [regroup] at distinct ⊢
      simp only [FileSystem.followChain, holds.readLink, new, names.basePath?, if_false]
      exact ih distinct (by simpa using enough)

/-- A complete chain of different files is a profile's chain. -/
theorem profileChain (complete : fs.Extends directory path links)
    (distinct : (links.map (·.location)).Nodup) : fs.profileChain directory path = .ok links := by
  -- The loop follows the links as long as their paths are told apart.
  have apart := nodup_identities complete.holds distinct
  -- Paths that are told apart are no more than the budget covers.
  have visits : Visits fs links := ⟨apart, fun link among => (complete.holds link among).readLink⟩
  have bounded := visits.length_le
  have whole : ((([] : List ProfileLink) ++ links).map (fs.identity ·.path)).Nodup := apart
  exact complete.followChain whole (by omega)

/-- A base named by a path stands where the path leads from the directory that holds the file. -/
theorem locate_base (complete : fs.Extends directory path links) {nearer farther : List ProfileLink}
    {link base : ProfileLink} (parts : links = nearer ++ link :: base :: farther) {text : String}
    (named : link.file.base = some text) (isPath : NamesPath text) :
    ({ fs with cwd := link.location.tail } : FileSystem).locate ⟨text⟩ = .ok base.location := by
  -- Induction along the chain, up to the link that names the base.
  induction complete generalizing nearer with
  | last holds alone =>
    have lengths := congrArg List.length parts
    simp only [List.length_append, List.length_cons, List.length_nil] at lengths
    omega
  | base holds names rest ih =>
    cases nearer with
    | cons first nearer =>
      obtain ⟨_, parts⟩ := List.cons.inj parts
      exact ih parts
    | nil =>
      obtain ⟨rfl, rfl⟩ := List.cons.inj parts
      obtain ⟨document, leads, _⟩ := holds.text
      obtain ⟨other, located, _⟩ := (rest.holds base List.mem_cons_self).text
      rw [rest.head] at located
      cases names with
      | bare same plain =>
        rw [named, Option.some.injEq] at same
        exact absurd (same ▸ isPath) plain
      | path same _ =>
        rw [named, Option.some.injEq] at same
        subst same
        exact locate_beside leads isPath.ne_empty (locateFile_ok located).1

end Extends

end FileSystem

namespace Profile

/--
Loading a profile checks the table that binds each name to the nearest value of its chain.

Name, description and source are those of the first file, whatever its bases say.
-/
theorem load_of_extends {fs : FileSystem} (schema : Schema) (directory : Path)
    (reference : ProfileReference) {top : ProfileLink} {bases : List ProfileLink}
    (complete : fs.Extends directory (reference.resolve directory ⟨""⟩) (top :: bases))
    (distinct : ((top :: bases).map (·.location)).Nodup) :
    (∃ table : Toml.Table,
      (∀ name value, table.get? name = some value ↔ IsNearest (top :: bases) name value) ∧
      (∀ name, name ∈ table.keys ↔ ∃ link ∈ top :: bases, name ∈ link.file.parameters.keys) ∧
      load fs schema directory reference =
        match ParameterSet.ofTable schema top.name table with
        | .error cause => .error (.parameter cause)
        | .ok parameters =>
          .ok {
            name := top.name
            description := top.file.description
            source := reference.resolve directory ⟨""⟩
            bases := bases.map (·.name)
            parameters }) ∧
    -- A base that is named by a path is looked up in the directory of the file that names it.
    ∀ nearer link base farther text, top :: bases = nearer ++ link :: base :: farther →
      link.file.base = some text → NamesPath text →
      ({ fs with cwd := link.location.tail } : FileSystem).locate ⟨text⟩ = .ok base.location := by
  -- Following the chain's path gives the chain, which is merged and checked.
  refine ⟨⟨mergedParameters (top :: bases), fun name value => ?_,
    fun name => mem_keys_mergedParameters, ?_⟩, ?_⟩
  · -- The merged table binds a name to the value of the first file that has one.
    rw [get?_mergedParameters, nearestValue?_eq_some_iff]
  · have loaded : load fs schema directory reference = ofChain schema top bases := by
      simp only [load, complete.profileChain distinct]
    cases checked : ParameterSet.ofTable schema top.name (mergedParameters (top :: bases)) <;>
      simp only [loaded, ofChain, checked, complete.head]
  · intro nearer link base farther text parts named isPath
    exact complete.locate_base parts named isPath

/-- A profile that overrides one of the two parameters of its base. -/
def overridingDocument : String :=
  "extends = \"../base.toml\"
[parameters]
SPEED = 2
"

/-- The profile that is overridden. -/
def baseDocument : String :=
  "description = \"slow\"
[parameters]
SIZE = 8
SPEED = \"none\"
"

/-- A file system with a profile in a directory and its base beside the directory. -/
def overridingFiles : FileSystem where
  entries := [
    ([⟨"base.toml", by decide⟩], .file baseDocument.toUTF8),
    ([⟨"boards", by decide⟩], .directory),
    ([⟨"fast.toml", by decide⟩, ⟨"boards", by decide⟩], .file overridingDocument.toUTF8)]
  distinct := by simp
  rooted := by simp [StandsIn]
  cwd := []

/-- The overriding profile's link. -/
def overridingLink : ProfileLink where
  name := "fast"
  path := ⟨"boards/fast.toml"⟩
  location := [⟨"fast.toml", by decide⟩, ⟨"boards", by decide⟩]
  file := ⟨none, none, some "../base.toml", ⟨[("SPEED", .integer 2)], by simp⟩⟩

/-- The link of its base. -/
def baseLink : ProfileLink where
  name := "base"
  path := ⟨"boards/../base.toml"⟩
  location := [⟨"base.toml", by decide⟩]
  file := ⟨none, some "slow", none, ⟨[("SIZE", .integer 8), ("SPEED", .string "none")], by decide⟩⟩

/-- The two files make up a chain. -/
theorem overriding_extends :
    overridingFiles.Extends ⟨""⟩ ⟨"boards/fast.toml"⟩ [overridingLink, baseLink] := by
  -- Both files are looked up and parsed, and the first one names the second.
  have overriding : overridingFiles.Holds overridingLink := by
    refine ⟨⟨overridingDocument, ?_, ?_⟩, by decide⟩
    · unfold FileSystem.locateFile FileSystem.locate FileSystem.origin
      rfl
    · have characters : overridingDocument.toList = _ := String.toList_ofList
      rw [ProfileFile.parse?, Toml.Table.parse?, characters]
      rfl
  have base : overridingFiles.Holds baseLink := by
    refine ⟨⟨baseDocument, ?_, ?_⟩, by decide⟩
    · unfold FileSystem.locateFile FileSystem.locate FileSystem.origin
      rfl
    · have characters : baseDocument.toList = _ := String.toList_ofList
      rw [ProfileFile.parse?, Toml.Table.parse?, characters]
      rfl
  exact .base overriding (.path rfl (.inl (by decide))) (.last base rfl)

/-- The sample profile has a speed of its own and the size of its base, but not the base's description. -/
theorem load_of_extends_sample :
    load overridingFiles ⟨[⟨"SIZE", .uint 8, ""⟩, ⟨"SPEED", .uint 8, ""⟩], []⟩ ⟨""⟩
        (.file ⟨"boards/fast.toml"⟩) =
      .ok {
        name := "fast"
        description := none
        source := ⟨"boards/fast.toml"⟩
        bases := ["base"]
        parameters := ⟨"fast", .ofList [("SIZE", .uint 8), ("SPEED", .uint 2)]⟩ } := by
  -- The theorem tells the table by the nearest values, which are those of the two files.
  obtain ⟨⟨table, nearest, _, loaded⟩, _⟩ :=
    load_of_extends ⟨[⟨"SIZE", .uint 8, ""⟩, ⟨"SPEED", .uint 8, ""⟩], []⟩ ⟨""⟩
      (.file ⟨"boards/fast.toml"⟩) overriding_extends (by decide)
  -- The table is determined by the nearest values.
  have merged : table = mergedParameters [overridingLink, baseLink] := by
    refine SortedMap.ext_get? fun name => Option.ext fun value => ?_
    rw [nearest, get?_mergedParameters, nearestValue?_eq_some_iff]
  rw [loaded, merged]
  rfl

end Profile

end BoardConfig
