import BoardConfig.Proofs.FileSystem.Alike
import BoardConfig.Proofs.Profile.Walk
import Mathlib.Data.List.Forall2

/-! Two chains that start in parallel go on in parallel, file by file. -/

namespace BoardConfig

/-- The last component of a path that ends with the name of an entry is that name. -/
theorem Path.fileName?_of_pieces {path : Path} {above : List String} {name : Name}
    (parts : path.pieces = above ++ [name.text]) : path.fileName? = some name.text := by
  -- The name of an entry is neither idle nor a step up.
  have last : component? name.text = some (.name name.text) := by
    rw [component?, if_neg name.not_isIdle, if_neg name.ne_up]
  rw [fileName?, components, parts]
  cases above with
  | nil =>
    -- The only piece is a name, so the path is relative and does not begin with a dot.
    have relative : path.isAbsolute = false := by
      refine Bool.eq_false_iff.2 fun absolute => ?_
      simp [isAbsolute_iff, parts] at absolute
    have other : name.text ≠ "." := by
      intro dot
      exact name.not_isIdle (by simp [isIdle, dot])
    simp [firstComponent?, relative, other, last]
  | cons first rest => simp [last, List.getLast?_append]

/-- Links of two file systems that were read from the same file below two places. -/
structure ProfileLink.Counterpart (top otherTop : Location) (link other : ProfileLink) : Prop where
  name : link.name = other.name
  file : link.file = other.file
  /-- Both files stand at one depth below the two places. -/
  place : ∃ inner : Location,
    link.location = inner ++ top ∧ other.location = inner ++ otherTop

/-- Counterparts are so the other way round. -/
theorem ProfileLink.Counterpart.symm {top otherTop : Location} {link other : ProfileLink}
    (counterpart : link.Counterpart top otherTop other) : other.Counterpart otherTop top link := by
  -- Names and files are equal, and the places are at one depth.
  obtain ⟨name, file, inner, place, otherPlace⟩ := counterpart
  exact ⟨name.symm, file.symm, inner, otherPlace, place⟩

namespace FileSystem

variable {first second : FileSystem} {top otherTop : Location}

/-- Parallel paths give links of the same file, or fail both. -/
theorem Alike.readLink (alike : Alike first top second otherTop) {inner : Location}
    {rest : List String} {path other : Path}
    (parallel : Parallel first top second otherTop inner rest path other) :
    Together (ProfileLink.Counterpart top otherTop) (first.readLink path) (second.readLink other) := by
  -- Both paths lead to one file at the same depth, or both fail.
  obtain ⟨result, leads, otherLeads⟩ := alike.locateFile parallel
  cases result with
  | error e =>
    -- Whatever the reason, the file counts as missing.
    simp only [FileSystem.readLink, leads, otherLeads, Except.map]
    exact .error _ _
  | ok found =>
    obtain ⟨location, contents⟩ := found
    -- Both paths end with the name of the file, which gives both links one name.
    have stem : path.fileStem? = other.fileStem? := by
      obtain ⟨above, name, parts, inside, _⟩ := pieces_of_file leads
      obtain ⟨otherAbove, otherName, otherParts, otherInside, _⟩ := pieces_of_file otherLeads
      have sameName : name = otherName := by
        cases location with
        | nil =>
          -- The place itself is a directory and no file.
          have stands := (locateFile_ok leads).2
          rw [List.nil_append, parallel.comes.directory_top] at stands
          cases stands
        | cons head outer =>
          have own : head = name := (List.cons.inj inside).1
          have otherOwn : head = otherName := (List.cons.inj otherInside).1
          exact own.symm.trans otherOwn
      rw [Path.fileStem?, Path.fileStem?, Path.fileName?_of_pieces parts,
        Path.fileName?_of_pieces otherParts, sameName]
    -- The bytes are the same, so they are read as the same profile or refused for the same reason.
    simp only [FileSystem.readLink, leads, otherLeads, Except.map]
    cases decoded : String.fromUTF8? contents with
    | none => exact .error _ _
    | some document =>
      simp only
      cases parsed : ProfileFile.parse? document with
      | none => exact .error _ _
      | some file =>
        simp only [ProfileFile.nameAt, stem]
        exact .ok ⟨rfl, rfl, location, rfl, rfl⟩

/-- What is read at one of two parallel paths has its counterpart at the other. -/
theorem Alike.readLink_ok (alike : Alike first top second otherTop) {inner : Location}
    {rest : List String} {path other : Path} {link : ProfileLink}
    (parallel : Parallel first top second otherTop inner rest path other)
    (given : first.readLink path = .ok link) :
    ∃ otherLink, second.readLink other = .ok otherLink ∧ link.Counterpart top otherTop otherLink := by
  -- The two readings go together, so the second one cannot fail.
  rcases (alike.readLink parallel).cases with ⟨e, _, fails, _⟩ | ⟨_, otherLink, read, otherRead, counterpart⟩
  · rw [given] at fails
    cases fails
  · rw [given, Except.ok.injEq] at read
    exact ⟨otherLink, otherRead, read ▸ counterpart⟩

/-- Two paths that are parallel at some depth below two places. -/
def LeadAlike (first : FileSystem) (top : Location) (second : FileSystem) (otherTop : Location)
    (path other : Path) : Prop :=
  ∃ inner rest, Parallel first top second otherTop inner rest path other

/-- File systems that hold the same do so the other way round. -/
theorem Alike.symm (alike : Alike first top second otherTop) : Alike second otherTop first top where
  same inner := (alike.same inner).symm

/-- Paths that are parallel are so the other way round. -/
theorem LeadAlike.symm {path other : Path} (lead : LeadAlike first top second otherTop path other) :
    LeadAlike second otherTop first top other path := by
  -- Either path is described in the same words.
  obtain ⟨inner, rest, comes, otherComes, confined⟩ := lead
  exact ⟨inner, rest, otherComes, comes, confined.imp_left And.symm⟩

/-- Two profiles whose paths, and those of the bases that they name, are parallel. -/
structure ParallelChains (first : FileSystem) (top : Location) (second : FileSystem)
    (otherTop : Location) (directory otherDirectory start otherStart : Path) : Prop where
  begins : LeadAlike first top second otherTop start otherStart
  /-- Files that are read at the same place name bases whose paths are parallel again. -/
  bases : ∀ {links otherLinks : List ProfileLink} {link otherLink : ProfileLink}
      {base otherBase : Path},
    first.Walk directory start links link.path →
    second.Walk otherDirectory otherStart otherLinks otherLink.path →
    first.Holds link → second.Holds otherLink → link.Counterpart top otherTop otherLink →
    NamesBase directory link base → NamesBase otherDirectory otherLink otherBase →
    base.text.utf8ByteSize ≤ pathLimit → otherBase.text.utf8ByteSize ≤ pathLimit →
    LeadAlike first top second otherTop base otherBase
  /-- No path on the way is too long for the operating system. -/
  short : ∀ links path, first.Walk directory start links path →
    path.text.utf8ByteSize ≤ pathLimit
  otherShort : ∀ links path, second.Walk otherDirectory otherStart links path →
    path.text.utf8ByteSize ≤ pathLimit

/-- Profiles with parallel chains have them the other way round. -/
theorem ParallelChains.symm {directory otherDirectory start otherStart : Path}
    (chains : ParallelChains first top second otherTop directory otherDirectory start otherStart) :
    ParallelChains second otherTop first top otherDirectory directory otherStart start where
  begins := chains.begins.symm
  bases walk otherWalk holds otherHolds counterpart names otherNames fits otherFits :=
    (chains.bases otherWalk walk otherHolds holds counterpart.symm otherNames names otherFits fits).symm
  short := chains.otherShort
  otherShort := chains.short

/-- Counterparts of links that stand at some place stand at the same one. -/
theorem mem_locations_iff {links otherLinks : List ProfileLink} {link otherLink : ProfileLink}
    (related : List.Forall₂ (ProfileLink.Counterpart top otherTop) links otherLinks)
    (counterpart : link.Counterpart top otherTop otherLink) :
    link.location ∈ links.map (·.location) ↔ otherLink.location ∈ otherLinks.map (·.location) := by
  -- What is put behind two depths tells them apart no more and no less.
  obtain ⟨inner, place, otherPlace⟩ := counterpart.place
  induction related with
  | nil => simp
  | cons head tail ih =>
    obtain ⟨depth, there, otherThere⟩ := head.place
    rw [place, otherPlace] at ih ⊢
    simp only [List.map_cons, List.mem_cons, ih, there, otherThere, List.append_left_inj]

/-- Counterparts that are placed from the root stand at the same places. -/
theorem locations_eq {links others : List ProfileLink}
    (related : List.Forall₂ (ProfileLink.Counterpart [] []) links others) :
    links.map (·.location) = others.map (·.location) := by
  -- Equality of the lists is equality one by one.
  rw [← List.forall₂_eq_eq_eq, List.forall₂_map_left_iff, List.forall₂_map_right_iff]
  refine related.imp fun link other counterpart => ?_
  obtain ⟨inner, place, otherPlace⟩ := counterpart.place
  rw [place, otherPlace]

/-- A chain that is complete has a parallel one of counterparts, file by file. -/
theorem Alike.extends (alike : Alike first top second otherTop)
    {directory otherDirectory start otherStart : Path}
    (chains : ParallelChains first top second otherTop directory otherDirectory start otherStart)
    {visited otherVisited links : List ProfileLink} {path other : Path}
    (walk : first.Walk directory start visited path)
    (otherWalk : second.Walk otherDirectory otherStart otherVisited other)
    (related : List.Forall₂ (ProfileLink.Counterpart top otherTop) visited otherVisited)
    (lead : LeadAlike first top second otherTop path other)
    (complete : first.Extends directory path links)
    (distinct : ((visited ++ links).map (·.location)).Nodup) :
    ∃ others, second.Extends otherDirectory other others ∧
      List.Forall₂ (ProfileLink.Counterpart top otherTop) links others := by
  -- Each file is read at both places, and names bases whose paths are parallel again.
  induction complete generalizing visited otherVisited other with
  | @last link holds alone =>
    obtain ⟨inner, rest, parallel⟩ := lead
    obtain ⟨otherLink, otherRead, counterpart⟩ := alike.readLink_ok parallel holds.readLink
    obtain ⟨otherHolds, rfl⟩ := holds_of_readLink otherRead
    exact ⟨[otherLink], .last otherHolds (counterpart.file ▸ alone), .cons counterpart .nil⟩
  | @base link links base holds names rest ih =>
    obtain ⟨inner, pieces, parallel⟩ := lead
    obtain ⟨otherLink, otherRead, counterpart⟩ := alike.readLink_ok parallel holds.readLink
    obtain ⟨otherHolds, rfl⟩ := holds_of_readLink otherRead
    -- The two files have one text, so the other one names a base as well.
    obtain ⟨otherBase, otherFurther⟩ : ∃ base, basePath? otherDirectory otherLink = some base := by
      obtain ⟨text, named, _⟩ := Option.map_eq_some_iff.1 names.basePath?
      exact ⟨_, by rw [basePath?, ← counterpart.file, named, Option.map_some]⟩
    have otherNames := namesBase_of_basePath? otherFurther
    -- Neither file has been visited, so both walks take one more step.
    have new : link.location ∉ visited.map (·.location) := by
      rw [List.map_append, List.map_cons] at distinct
      exact fun among => (List.nodup_append.1 distinct).2.2 _ among _ List.mem_cons_self rfl
    have otherNew := mt (mem_locations_iff related counterpart).2 new
    have next := walk.step holds (identity_not_mem walk.holds holds new) names
    have otherNext := otherWalk.step otherHolds (identity_not_mem otherWalk.holds otherHolds otherNew)
      otherNames
    have longer : List.Forall₂ (ProfileLink.Counterpart top otherTop) (visited ++ [link])
        (otherVisited ++ [otherLink]) :=
      List.rel_append related (.cons counterpart .nil)
    have onwards := chains.bases walk otherWalk holds otherHolds counterpart names otherNames
      (chains.short _ _ next) (chains.otherShort _ _ otherNext)
    have regroup : visited ++ link :: links = visited ++ [link] ++ links := by simp
    rw [regroup] at distinct
    obtain ⟨others, otherRest, counterparts⟩ := ih next otherNext longer onwards distinct
    exact ⟨otherLink :: others, .base otherHolds otherNames otherRest, .cons counterpart counterparts⟩

/-- Where one of two parallel profiles has a chain, the other one has a chain of counterparts. -/
theorem Alike.profileChain_ok (alike : Alike first top second otherTop)
    {directory otherDirectory start otherStart : Path}
    (chains : ParallelChains first top second otherTop directory otherDirectory start otherStart)
    {links : List ProfileLink} (followed : first.profileChain directory start = .ok links) :
    ∃ others, second.profileChain otherDirectory otherStart = .ok others ∧
      List.Forall₂ (ProfileLink.Counterpart top otherTop) links others := by
  -- A chain is one of links that are held, of which each has its counterpart.
  have complete := profileChain_eq_ok_iff.1 followed
  obtain ⟨others, otherComplete, counterparts⟩ :=
    alike.extends chains .start .start .nil chains.begins complete complete.nodup_locations
  exact ⟨others, profileChain_eq_ok_iff.2 otherComplete, counterparts⟩

/-- Parallel profiles have chains of counterparts, or neither has a chain. -/
theorem Alike.profileChain (alike : Alike first top second otherTop)
    {directory otherDirectory start otherStart : Path}
    (chains : ParallelChains first top second otherTop directory otherDirectory start otherStart) :
    Together (List.Forall₂ (ProfileLink.Counterpart top otherTop))
      (first.profileChain directory start) (second.profileChain otherDirectory otherStart) := by
  -- Each of two chains is followed by the other, so that both fail where one does.
  cases followed : first.profileChain directory start with
  | ok links =>
    obtain ⟨others, otherFollowed, counterparts⟩ := alike.profileChain_ok chains followed
    rw [otherFollowed]
    exact .ok counterparts
  | error e =>
    cases otherFollowed : second.profileChain otherDirectory otherStart with
    | error otherError => exact .error _ _
    | ok others =>
      -- A chain of the second profile would have counterparts in the first file system.
      obtain ⟨links, again, _⟩ := alike.symm.profileChain_ok chains.symm otherFollowed
      rw [followed] at again
      cases again

/-- The first file of a profile's chain is the one that its path leads to. -/
theorem path_of_profileChain {fs : FileSystem} {directory start : Path} {link : ProfileLink}
    {bases : List ProfileLink} (followed : fs.profileChain directory start = .ok (link :: bases)) :
    link.path = start :=
  -- A chain starts at its path.
  (profileChain_eq_ok_iff.1 followed).head

end FileSystem

/-- The files of counterparts bind the same values. -/
theorem mergedParameters_congr {top otherTop : Location} {links others : List ProfileLink}
    (related : List.Forall₂ (ProfileLink.Counterpart top otherTop) links others) :
    mergedParameters links = mergedParameters others := by
  -- Induction on the links, whose files are equal pair by pair.
  induction related with
  | nil => rfl
  -- What a file binds is put over what its bases bind.
  | cons head tail ih =>
    simp only [mergedParameters, List.foldr_cons] at ih ⊢
    rw [ih, head.file]

namespace Profile

open FileSystem

/-- A profile and what is loaded from its counterparts, which differs in nothing but the source. -/
structure Counterpart (start otherStart : Path) (profile other : Profile) : Prop where
  source : profile.source = start
  same : other = { profile with source := otherStart }

/-- Parallel profiles are loaded alike, or neither is. -/
theorem load_alike {first second : FileSystem} {top otherTop : Location}
    (alike : first.Alike top second otherTop) (schema : Schema) {directory otherDirectory : Path}
    {reference otherReference : ProfileReference}
    (chains : ParallelChains first top second otherTop directory otherDirectory
      (reference.resolve directory ⟨""⟩) (otherReference.resolve otherDirectory ⟨""⟩)) :
    Together
      (Counterpart (reference.resolve directory ⟨""⟩) (otherReference.resolve otherDirectory ⟨""⟩))
      (load first schema directory reference) (load second schema otherDirectory otherReference) := by
  -- Loading follows the chain and checks what it binds together.
  unfold load
  rcases (alike.profileChain chains).cases with
    ⟨e, otherError, fails, otherFails⟩ | ⟨links, others, followed, otherFollowed, counterparts⟩
  · simp only [fails, otherFails]
    exact .error _ _
  · simp only [followed, otherFollowed]
    cases counterparts with
    | nil => exact .error _ _
    | @cons link other bases otherBases head tail =>
      -- What the files say is the same, and so are the names of the profiles.
      have names : bases.map (·.name) = otherBases.map (·.name) := by
        rw [← List.forall₂_eq_eq_eq, List.forall₂_map_left_iff, List.forall₂_map_right_iff]
        exact tail.imp fun _ _ counterpart => counterpart.name
      have merged := mergedParameters_congr (.cons head tail)
      simp only [ofChain, ← head.name, ← merged]
      cases ParameterSet.ofTable schema link.name (mergedParameters (link :: bases)) with
      | error cause => exact .error _ _
      | ok parameters =>
        refine .ok ⟨path_of_profileChain followed, ?_⟩
        simp only [← head.file, names, path_of_profileChain otherFollowed]

end Profile

end BoardConfig
