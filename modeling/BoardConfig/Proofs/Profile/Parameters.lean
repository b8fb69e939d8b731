import BoardConfig.Profile
import BoardConfig.SortedMap.Lookup

/-! Each parameter has the value that the nearest file of the chain binds, neither cut nor replaced. -/

namespace BoardConfig

/-- The value that the nearest file of a chain binds to a name. -/
def nearestValue? (chain : List ProfileLink) (name : String) : Option Toml.Value :=
  chain.findSome? fun link => link.file.parameters.get? name

/-- Merging a chain binds each name to the nearest value. -/
theorem get?_mergedParameters (chain : List ProfileLink) (name : String) :
    (mergedParameters chain).get? name = nearestValue? chain name := by
  -- The nearest file goes over all the others, and so on behind it.
  induction chain with
  | nil => rfl
  | cons link rest ih =>
    have outer : mergedParameters (link :: rest) =
        (mergedParameters rest).override link.file.parameters := rfl
    rw [outer, SortedMap.get?_override, ih, nearestValue?, nearestValue?, List.findSome?_cons]
    cases link.file.parameters.get? name <;> rfl

/-- A value that is an unsigned integer stands for that very integer. -/
theorem ParameterType.convert_uint {type : ParameterType} {raw : Toml.Value} {value : UInt64}
    (converted : type.convert raw = .ok (.uint value)) : raw = .integer value.toNat := by
  -- Of all types and values only an unsigned type over an integer gives an unsigned value.
  unfold convert at converted
  split at converted
  · rename_i bits i
    split at converted
    · cases converted
    · rename_i positive
      split at converted
      · rename_i greatest _
        split at converted
        · -- The greatest value of the type has 64 bits, so the conversion cuts nothing off.
          rename_i fits
          simp only [Except.ok.injEq, ParameterValue.uint.injEq] at converted
          have small := Nat.lt_of_le_of_lt fits greatest.toNat_lt
          rw [← converted, UInt64.toNat_ofNat_of_lt' small]
          congr
          omega
        · cases converted
      · cases converted
  · cases converted
  · cases converted
  · cases converted

/-- No name is declared twice in the schema that every board profile shares. -/
theorem standard_names_nodup : Schema.standard.names.Nodup := by
  -- The declared names are compared in pairs.
  decide

namespace ParameterSet

variable {profile : String} {table : Toml.Table} {declarations : List Declaration}
  {values bound : SortedMap ParameterValue}

/-- Binding declarations leaves every other name alone. -/
theorem get?_bindAll_of_not_mem (binds : bindAll profile table declarations values = .ok bound)
    {name : String} (other : name ∉ declarations.map (·.name)) :
    bound.get? name = values.get? name := by
  -- Each declaration binds its own name, which is another one.
  induction declarations generalizing values with
  | nil =>
    cases binds
    rfl
  | cons declaration rest ih =>
    simp only [List.map_cons, List.mem_cons, not_or] at other
    simp only [bindAll] at binds
    split at binds
    · rw [ih binds other.2, SortedMap.get?_insert, if_neg other.1]
    · cases binds

/-- Binding declarations of different names binds each to what the table gives it. -/
theorem get?_bindAll (binds : bindAll profile table declarations values = .ok bound)
    (distinct : (declarations.map (·.name)).Nodup) {declaration : Declaration}
    (among : declaration ∈ declarations) :
    ∃ value, declaration.bind profile table = .ok value ∧
      bound.get? declaration.name = some value := by
  -- A later declaration has another name and leaves the binding alone.
  induction declarations generalizing values with
  | nil => simp at among
  | cons first rest ih =>
    obtain ⟨apart, restDistinct⟩ := List.nodup_cons.1 distinct
    simp only [bindAll] at binds
    split at binds
    · rename_i value given
      rcases List.mem_cons.1 among with rfl | behind
      · refine ⟨value, given, ?_⟩
        rw [get?_bindAll_of_not_mem binds apart, SortedMap.get?_insert, if_pos rfl]
      · exact ih binds restDistinct behind
    · cases binds

/-- A declared name is bound to the conversion of what the table binds to it. -/
theorem get?_ofTable {schema : Schema} {parameters : ParameterSet}
    (given : ofTable schema profile table = .ok parameters) (distinct : schema.names.Nodup)
    {declaration : Declaration} (among : declaration ∈ schema.declarations) :
    ∃ raw value, table.get? declaration.name = some raw ∧
      declaration.type.convert raw = .ok value ∧ parameters.get? declaration.name = some value := by
  -- The declaration is bound to what the table has under its name, once converted.
  unfold ofTable at given
  split at given
  · cases given
  · split at given <;> cases given
    rename_i binds
    obtain ⟨value, bind, found⟩ := get?_bindAll binds distinct among
    unfold Declaration.bind at bind
    split at bind
    · cases bind
    · rename_i raw there
      split at bind <;> cases bind
      rename_i converted
      exact ⟨raw, value, there, converted, found⟩

/-- An unsigned parameter is bound to an unsigned integer. -/
theorem get?_of_uint {parameters : ParameterSet} {name : String} {value : UInt64}
    (given : parameters.uint name = .ok value) : parameters.get? name = some (.uint value) := by
  -- A value of another type would be refused.
  unfold uint require at given
  cases found : parameters.get? name with
  | none => simp [found] at given
  | some other => cases other <;> simp_all

end ParameterSet

namespace Profile

/-- A profile that loads has a chain of files, and its parameters are those of the chain. -/
theorem load_ok {fs : FileSystem} {schema : Schema} {directory : Path} {reference : ProfileReference}
    {profile : Profile} (loaded : load fs schema directory reference = .ok profile) :
    ∃ chain, fs.profileChain directory (reference.resolve directory ⟨""⟩) = .ok chain ∧
      ParameterSet.ofTable schema profile.name (mergedParameters chain) = .ok profile.parameters := by
  -- The profile is built from the chain, with the name of its first file.
  unfold load at loaded
  simp only at loaded
  split at loaded
  · cases loaded
  · cases loaded
  · rename_i top bases followed
    refine ⟨top :: bases, followed, ?_⟩
    unfold ofChain at loaded
    split at loaded <;> cases loaded
    assumption

end Profile

/-- An unsigned parameter is the integer that the nearest file of the chain binds to its name. -/
theorem nearestValue?_of_uint {schema : Schema} {name : String} {chain : List ProfileLink}
    {parameters : ParameterSet} {profile : String}
    (given : ParameterSet.ofTable schema profile (mergedParameters chain) = .ok parameters)
    (distinct : schema.names.Nodup) (declared : name ∈ schema.names) {value : UInt64}
    (uint : parameters.get? name = some (.uint value)) :
    nearestValue? chain name = some (.integer value.toNat) := by
  -- The declared name is bound to a conversion, which an unsigned value does not change.
  obtain ⟨declaration, among, rfl⟩ := List.mem_map.1 declared
  obtain ⟨raw, converted, there, same, found⟩ := ParameterSet.get?_ofTable given distinct among
  rw [uint, Option.some.injEq] at found
  subst found
  rw [← get?_mergedParameters, there, ParameterType.convert_uint same]

end BoardConfig
