import BoardConfig.Profile
import BoardConfig.Proofs.FileSystem.Canonical
import BoardConfig.Proofs.FileSystem.Growth
import Mathlib.Data.List.Nodup
import Mathlib.Data.Nat.Digits.Defs

/-!
A profile's chain is read at paths that are all told apart, and so it ends. It stays the same while
its files do.
-/

namespace BoardConfig

/-- The bytes that are decoded to a text are those of the text. -/
theorem fromUTF8?_eq_some_iff {contents : ByteArray} {document : String} :
    String.fromUTF8? contents = some document ↔ contents = document.toUTF8 := by
  -- Decoding checks the bytes and keeps them.
  constructor
  · intro decoded
    unfold String.fromUTF8? at decoded
    split at decoded <;> cases decoded
    rfl
  · rintro rfl
    simp only [String.fromUTF8?, String.toUTF8_eq_toByteArray, dif_pos document.isValidUTF8]
    rfl

/-- Texts with the same bytes are the same. -/
theorem toUTF8_inj {first second : String} : first.toUTF8 = second.toUTF8 ↔ first = second := by
  -- A text is known by its bytes.
  rw [String.toUTF8_eq_toByteArray, String.toUTF8_eq_toByteArray]
  exact String.toByteArray_inj

namespace FileSystem

/-- A link that is read is what its file says at its place. -/
theorem readLink_ok {fs : FileSystem} {path : Path} {link : ProfileLink}
    (given : fs.readLink path = .ok link) :
    ∃ contents document, fs.locateFile path = .ok (link.location, contents) ∧
      String.fromUTF8? contents = some document ∧ ProfileFile.parse? document = some link.file ∧
      link = { name := link.file.nameAt path, path, location := link.location, file := link.file } := by
  -- The file is found, is text and has the shape of a profile.
  unfold readLink at given
  split at given
  · cases given
  · rename_i contents located
    split at given
    · cases given
    · rename_i document decoded
      split at given <;> cases given
      rename_i file parsed
      exact ⟨contents, document, located, decoded, parsed, rfl⟩

/-- A link keeps the path at which it was read. -/
theorem path_of_readLink {fs : FileSystem} {path : Path} {link : ProfileLink}
    (given : fs.readLink path = .ok link) : link.path = path := by
  -- The link is made from the path and from what is read there.
  obtain ⟨_, _, _, _, _, same⟩ := readLink_ok given
  rw [same]

/-- A path that leads to the text of a profile gives that profile's link. -/
theorem readLink_of_text {fs : FileSystem} {path : Path} {location : Location} {document : String}
    {file : ProfileFile} (located : fs.locateFile path = .ok (location, document.toUTF8))
    (parsed : ProfileFile.parse? document = some file) :
    fs.readLink path = .ok { name := file.nameAt path, path, location, file } := by
  -- Reading decodes the bytes, which are those of the text, and parses them.
  have decoded : String.fromUTF8? document.toUTF8 = some document := fromUTF8?_eq_some_iff.2 rfl
  simp only [readLink, located, decoded, parsed]

/-- The place of a link is a file's. -/
theorem file_of_readLink {fs : FileSystem} {path : Path} {link : ProfileLink}
    (given : fs.readLink path = .ok link) :
    ∃ contents, fs.entryAt? link.location = some (.file contents) := by
  -- The link keeps the place at which the file was located.
  obtain ⟨contents, document, located, _⟩ := readLink_ok given
  exact ⟨contents, (locateFile_ok located).2⟩

/-- Every file is among the files. -/
theorem mem_files {fs : FileSystem} {location : Location} {contents : ByteArray}
    (stands : fs.entryAt? location = some (.file contents)) : location ∈ fs.files := by
  -- A file is an entry below the root, and the files are such entries.
  have below : location ≠ [] := by
    rintro rfl
    simp [entryAt?] at stands
  exact List.mem_filterMap.2 ⟨_, mem_locations_of_entryAt? below stands, rfl⟩

/-- The number that has the bytes of a text for its digits, none of them zero. -/
def textNumber (text : String) : Nat :=
  Nat.ofDigits 257 (text.toByteArray.data.toList.map fun byte => byte.toNat + 1)

/-- A short text has a small number. -/
theorem textNumber_lt {text : String} {limit : Nat} (short : text.utf8ByteSize ≤ limit) :
    textNumber text < 257 ^ limit := by
  -- A byte and one are less than the base, and there are no more digits than the limit.
  have digits : ∀ digit ∈ text.toByteArray.data.toList.map fun byte => byte.toNat + 1, digit < 257 := by
    intro digit among
    obtain ⟨byte, _, rfl⟩ := List.mem_map.1 among
    have bounded := byte.toNat_lt
    omega
  have fits := Nat.ofDigits_lt_base_pow_length (by decide) digits
  rw [List.length_map] at fits
  exact Nat.lt_of_lt_of_le fits (Nat.pow_le_pow_right (by decide) short)

/-- Different texts have different numbers. -/
theorem textNumber_injective : Function.Injective textNumber := by
  -- The bytes are read back from the number as its digits.
  intro first second same
  -- Without a zero among them, the digits can be told from the number.
  have digits (text : String) : Nat.digits 257 (textNumber text) =
      text.toByteArray.data.toList.map fun byte => byte.toNat + 1 := by
    apply Nat.digits_ofDigits 257 (by decide)
    · intro digit among
      obtain ⟨byte, _, rfl⟩ := List.mem_map.1 among
      have bounded := byte.toNat_lt
      omega
    · intro filled
      obtain ⟨byte, _, ends⟩ := List.mem_map.1 (List.getLast_mem filled)
      omega
  have bytes := (digits first).symm.trans (congrArg (Nat.digits 257) same |>.trans (digits second))
  have injective : Function.Injective fun byte : UInt8 => byte.toNat + 1 := by
    intro byte other equal
    exact UInt8.toNat_inj.1 (Nat.succ.inj equal)
  apply String.toByteArray_inj.1
  exact ByteArray.ext (Array.toList_inj.1 (List.map_injective_iff.2 injective bytes))

/-- There are no more different paths of limited length than numbers of their texts. -/
theorem length_le_of_short {paths : List Path} {limit : Nat} (distinct : paths.Nodup)
    (short : ∀ path ∈ paths, path.text.utf8ByteSize ≤ limit) : paths.length ≤ 257 ^ limit := by
  -- The numbers are different as well, and each is below the power.
  have injective : Function.Injective fun path : Path => textNumber path.text :=
    fun _ _ same => congrArg Path.mk (textNumber_injective same)
  have inside : (paths.map fun path => textNumber path.text) ⊆ List.range (257 ^ limit) := by
    intro number among
    obtain ⟨path, listed, rfl⟩ := List.mem_map.1 among
    exact List.mem_range.2 (textNumber_lt (short path listed))
  simpa using (List.Nodup.map injective distinct).length_le_of_subset inside

/-- Different paths that the operating system takes are no more than the bound. -/
theorem length_le_pathBound {paths : List Path} (distinct : paths.Nodup)
    (short : ∀ path ∈ paths, path.text.utf8ByteSize ≤ pathLimit) : paths.length ≤ pathBound := by
  -- The limit stays a variable, since nothing can be gained from evaluating the power.
  unfold pathBound
  generalize pathLimit = limit at short ⊢
  exact length_le_of_short distinct short

/-- Links whose paths are all told apart, each of them read at its path. -/
structure Visits (fs : FileSystem) (links : List ProfileLink) : Prop where
  /-- No path is told to be one that was visited before. -/
  nodup : (links.map (fs.identity ·.path)).Nodup
  /-- Each link is what its path leads to. -/
  read : ∀ link ∈ links, fs.readLink link.path = .ok link

namespace Visits

variable {fs : FileSystem} {links : List ProfileLink}

/-- Nothing has been visited at first. -/
theorem nil (fs : FileSystem) : Visits fs [] :=
  ⟨List.nodup_nil, by simp⟩

/-- A link that is read at a path not visited so far is one more. -/
theorem append (visits : Visits fs links) {link : ProfileLink} (given : fs.readLink link.path = .ok link)
    (new : fs.identity link.path ∉ links.map (fs.identity ·.path)) : Visits fs (links ++ [link]) where
  nodup := by
    -- The path of the new link is told from all before it.
    rw [List.map_append, List.map_singleton, List.nodup_append]
    refine ⟨visits.nodup, by simp, fun identity among other single => ?_⟩
    rintro rfl
    simp only [List.mem_singleton] at single
    exact new (single ▸ among)
  read other among := by
    rcases List.mem_append.1 among with earlier | last
    · exact visits.read other earlier
    · rw [List.mem_singleton.1 last]
      exact given

/-- There are no more links than paths. -/
theorem length_le (visits : Visits fs links) : links.length ≤ pathBound := by
  -- Paths that are told apart are different, and what is read has a path that is short enough.
  have different : (links.map (·.path)).Nodup := by
    refine List.Nodup.of_map fs.identity ?_
    rw [List.map_map]
    exact visits.nodup
  have short : ∀ path ∈ links.map (·.path), path.text.utf8ByteSize ≤ pathLimit := by
    intro path among
    obtain ⟨link, listed, rfl⟩ := List.mem_map.1 among
    obtain ⟨contents, document, located, _⟩ := readLink_ok (visits.read link listed)
    exact (accepted_of_locate (locateFile_ok located).1).2.2
  simpa using length_le_pathBound different short

/-- Where each link is reached by a path from the root, no file is visited twice. -/
theorem nodup_locations (visits : Visits fs links) (reached : ∀ link ∈ links, fs.reaches link.path) :
    (links.map (·.location)).Nodup := by
  -- Paths that are told apart may lead to one place only out of reach.
  have apart := List.pairwise_map.1 visits.nodup
  refine List.pairwise_map.2 (apart.imp_of_mem fun {link other} among otherAmong differ same => differ ?_)
  -- Two paths of one place have one canonical path, if they have any.
  obtain ⟨_, _, located, _⟩ := readLink_ok (visits.read link among)
  obtain ⟨_, _, otherLocated, _⟩ := readLink_ok (visits.read other otherAmong)
  rw [← same] at otherLocated
  exact (identity_eq_iff (locateFile_ok located).1 (locateFile_ok otherLocated).1).2
    (.inl ⟨reached link among, reached other otherAmong⟩)

/-- Then there are no more links than files. -/
theorem length_le_files (visits : Visits fs links) (reached : ∀ link ∈ links, fs.reaches link.path) :
    links.length ≤ fs.files.length := by
  -- Different places among the files are no more than the files.
  have inside : links.map (·.location) ⊆ fs.files := by
    intro location among
    obtain ⟨link, visited, rfl⟩ := List.mem_map.1 among
    obtain ⟨contents, stands⟩ := file_of_readLink (visits.read link visited)
    exact mem_files stands
  simpa using (visits.nodup_locations reached).length_le_of_subset inside

end Visits

/-- The links of a chain are those visited before and others that are read from files. -/
theorem mem_followChain {fs : FileSystem} {directory path : Path} {budget : Nat}
    {visited chain : List ProfileLink}
    (followed : fs.followChain directory budget visited path = .ok chain) :
    visited <+: chain ∧ ∀ link ∈ chain, link ∈ visited ∨ ∃ other, fs.readLink other = .ok link := by
  -- Each turn adds one link to those visited, and the chain begins with them.
  induction budget generalizing visited path with
  | zero =>
    cases followed
    exact ⟨List.prefix_refl _, fun link among => .inl among⟩
  | succ budget ih =>
    simp only [followChain] at followed
    split at followed
    · cases followed
    · rename_i link given
      -- What is visited after this turn was visited before or is the link just read.
      have last : ∀ other ∈ visited ++ [link], other ∈ visited ∨ ∃ path, fs.readLink path = .ok other := by
        intro other among
        rcases List.mem_append.1 among with earlier | added
        · exact .inl earlier
        · simp only [List.mem_singleton] at added
          exact .inr ⟨path, added ▸ given⟩
      split at followed
      · cases followed
      · split at followed
        · cases followed
          exact ⟨List.prefix_append _ _, last⟩
        · obtain ⟨begins, others⟩ := ih followed
          refine ⟨(List.prefix_append _ _).trans begins, fun other among => ?_⟩
          rcases others other among with earlier | read
          · exact last other earlier
          · exact .inr read

/-- A profile that overrides no other is a chain of its own. -/
theorem profileChain_of_alone {fs : FileSystem} {directory path : Path} {link : ProfileLink}
    (given : fs.readLink path = .ok link) (alone : link.file.base = none) :
    fs.profileChain directory path = .ok [link] := by
  -- The first turn of the loop reads the file and finds no base to go on with.
  simp [profileChain, followChain, given, basePath?, alone]

/-- Every link of a chain is read from a file. -/
theorem readLink_of_profileChain {fs : FileSystem} {directory path : Path}
    {chain : List ProfileLink} (followed : fs.profileChain directory path = .ok chain)
    {link : ProfileLink} (among : link ∈ chain) : ∃ other, fs.readLink other = .ok link := by
  -- At first nothing has been visited, so every link was read on the way.
  rcases (mem_followChain followed).2 link among with visited | read
  · simp at visited
  · exact read

namespace Grows

variable {written : List Location} {before after : FileSystem}

/-- A link reads as before while its file is not written. -/
theorem readLink (grows : Grows written before after) {path : Path} {link : ProfileLink}
    (outside : link.location ∉ written) (given : before.readLink path = .ok link) :
    after.readLink path = .ok link := by
  -- The path still leads to the same file, and its bytes are the same.
  obtain ⟨contents, document, located, decoded, parsed, same⟩ := readLink_ok given
  obtain ⟨leads, stands⟩ := locateFile_ok located
  obtain ⟨later, stays, unchanged⟩ := grows.file stands
  have kept := unchanged outside
  subst kept
  have found : after.locateFile path = .ok (link.location, later) := by
    simp [locateFile, grows.locate_ok leads, stays]
  rw [same]
  simp [FileSystem.readLink, found, decoded, parsed]

/-- A path at which a link is read is told by what it was told by before. -/
theorem identity (grows : Grows written before after) {path : Path} {link : ProfileLink}
    (given : before.readLink path = .ok link) : after.identity path = before.identity path := by
  -- The path still leads to the same place.
  obtain ⟨_, _, located, _⟩ := readLink_ok given
  have leads := (locateFile_ok located).1
  exact identity_congr grows.cwd ((grows.locate_ok leads).trans leads.symm)

/-- A chain is followed as before while its files are not written. -/
theorem followChain (grows : Grows written before after) {directory path : Path} {budget : Nat}
    {visited chain : List ProfileLink} (visits : Visits before visited)
    (followed : before.followChain directory budget visited path = .ok chain)
    (outside : ∀ link ∈ chain, link.location ∉ written) :
    after.followChain directory budget visited path = .ok chain := by
  -- Each link reads as before and is told from those visited, so the chain takes the same turns.
  induction budget generalizing visited path with
  | zero => exact followed
  | succ budget ih =>
    simp only [FileSystem.followChain] at followed ⊢
    have seen : visited.map (after.identity ·.path) = visited.map (before.identity ·.path) :=
      List.map_congr_left fun link among => grows.identity (visits.read link among)
    split at followed
    · cases followed
    · rename_i link given
      split at followed
      · cases followed
      · rename_i new
        have kept := grows.identity given
        split at followed
        · rename_i last
          cases followed
          simp [grows.readLink (outside link (by simp)) given, kept, seen, new, last]
        · rename_i base further
          -- The link is on the chain, so its file is not written.
          have begins := (mem_followChain followed).1
          have member : link ∈ chain := begins.subset (by simp)
          have there : path = link.path := (path_of_readLink given).symm
          simp only [grows.readLink (outside link member) given, kept, seen, new, further, if_false]
          subst there
          exact ih (visits.append given new) followed

/-- A profile's chain stays the same while its files are not written. -/
theorem profileChain (grows : Grows written before after) {directory path : Path}
    {chain : List ProfileLink} (followed : before.profileChain directory path = .ok chain)
    (outside : ∀ link ∈ chain, link.location ∉ written) :
    after.profileChain directory path = .ok chain :=
  grows.followChain (.nil before) followed outside

end Grows

end FileSystem

end BoardConfig
