/-! Finite maps from names, listed in the byte order of the names. -/

namespace BoardConfig

/-- A finite map from names to values, whose entries stand in strictly increasing name order. -/
structure SortedMap (α : Type) where
  /-- The bound names with their values. -/
  entries : List (String × α)
  /-- Each name stands once, after every smaller one. -/
  sorted : entries.Pairwise (fun a b => a.1 < b.1)
  deriving Repr

/-- Binds a name in a list of entries, in place of an earlier binding or before the next name. -/
def putEntry {α : Type} (name : String) (value : α) : List (String × α) → List (String × α)
  | [] => [(name, value)]
  | (other, kept) :: rest =>
    if name < other then (name, value) :: (other, kept) :: rest
    else if name = other then (name, value) :: rest
    else (other, kept) :: putEntry name value rest

/-- The value that the first entry of a name has in a list of entries. -/
def findEntry {α : Type} (name : String) : List (String × α) → Option α
  | [] => none
  | (other, value) :: rest => if name = other then some value else findEntry name rest

/-- The bindings of a list of entries after one more are the old ones and the new one. -/
theorem mem_putEntry {α : Type} {name : String} {value : α} {entries : List (String × α)}
    {entry : String × α} (member : entry ∈ putEntry name value entries) :
    entry = (name, value) ∨ entry ∈ entries := by
  -- The binding goes before the first entry, into its place, or behind it.
  induction entries with
  | nil => simpa [putEntry] using member
  | cons first rest ih =>
    simp only [putEntry] at member
    split at member
    · simpa using member
    · split at member
      · rcases List.mem_cons.1 member with rfl | later
        · exact .inl rfl
        · exact .inr (List.mem_cons_of_mem _ later)
      · rcases List.mem_cons.1 member with rfl | later
        · exact .inr List.mem_cons_self
        · exact (ih later).imp_right (List.mem_cons_of_mem _)

/-- Binding a name keeps the entries in order. -/
theorem sorted_putEntry {α : Type} {name : String} {value : α} {entries : List (String × α)}
    (sorted : entries.Pairwise (fun a b => a.1 < b.1)) :
    (putEntry name value entries).Pairwise (fun a b => a.1 < b.1) := by
  -- Where the binding goes, all names before it are smaller and all behind it greater.
  induction entries with
  | nil => simp [putEntry]
  | cons first rest ih =>
    obtain ⟨after, restSorted⟩ := List.pairwise_cons.1 sorted
    simp only [putEntry]
    split
    · rename_i before
      refine List.pairwise_cons.2 ⟨?_, sorted⟩
      intro entry member
      rcases List.mem_cons.1 member with rfl | later
      · exact before
      · exact String.lt_trans before (after entry later)
    · split
      · rename_i _ same
        subst same
        exact List.pairwise_cons.2 ⟨after, restSorted⟩
      · rename_i notBefore different
        refine List.pairwise_cons.2 ⟨?_, ih restSorted⟩
        intro entry member
        rcases mem_putEntry member with rfl | old
        · -- Neither before nor equal leaves after, as the order is total.
          rcases String.le_total first.1 name with le | ge
          · exact Std.lt_of_le_of_ne le (fun h => different h.symm)
          · exact absurd (Std.lt_of_le_of_ne ge different) notBefore
        · exact after entry old

namespace SortedMap

variable {α : Type}

instance [DecidableEq α] : DecidableEq (SortedMap α) := fun m n =>
  match m, n with
  | ⟨a, _⟩, ⟨b, _⟩ =>
    if same : a = b then .isTrue (by subst same; rfl)
    else .isFalse (fun h => same (congrArg SortedMap.entries h))

/-- The map that binds nothing. -/
def empty : SortedMap α :=
  ⟨[], List.Pairwise.nil⟩

instance : Inhabited (SortedMap α) := ⟨empty⟩

/-- The value bound to a name. -/
def get? (m : SortedMap α) (name : String) : Option α :=
  findEntry name m.entries

/-- The map with a name bound to a value, in place of any earlier value. -/
def insert (m : SortedMap α) (name : String) (value : α) : SortedMap α :=
  ⟨putEntry name value m.entries, sorted_putEntry m.sorted⟩

/-- The map of a list of bindings, where the last binding of a name wins. -/
def ofList (bindings : List (String × α)) : SortedMap α :=
  bindings.foldl (fun m (name, value) => m.insert name value) empty

/-- The bound names, in order. -/
def keys (m : SortedMap α) : List String :=
  m.entries.map (·.1)

/-- The number of bound names. -/
def size (m : SortedMap α) : Nat :=
  m.entries.length

/-- The map that binds all names of both maps, with the values of `upper` where both bind one. -/
def override (lower upper : SortedMap α) : SortedMap α :=
  upper.entries.foldl (fun m (name, value) => m.insert name value) lower

end SortedMap

end BoardConfig
