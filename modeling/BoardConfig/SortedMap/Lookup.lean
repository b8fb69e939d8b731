import BoardConfig.SortedMap

/-! What is found under the names of a sorted map, which determines the map. -/

namespace BoardConfig

/-- Looking a name up after binding one finds the new value there and the old ones elsewhere. -/
theorem findEntry_putEntry {α : Type} (name other : String) (value : α)
    (entries : List (String × α)) :
    findEntry other (putEntry name value entries) =
      if other = name then some value else findEntry other entries := by
  -- The new binding comes before a greater name, in place of its own, or further on.
  induction entries with
  | nil => simp [putEntry, findEntry]
  | cons first rest ih =>
    obtain ⟨bound, kept⟩ := first
    simp only [putEntry]
    split
    · simp [findEntry]
    · split
      · rename_i _ same
        subst same
        by_cases found : other = name <;> simp [findEntry, found]
      · rename_i _ different
        by_cases found : other = bound
        · simp [findEntry, found, Ne.symm different]
        · simp only [findEntry, if_neg found, ih]

/-- A name that is bound in no entry is not found. -/
theorem findEntry_eq_none {α : Type} {name : String} {entries : List (String × α)}
    (absent : ∀ entry ∈ entries, name ≠ entry.1) : findEntry name entries = none := by
  -- The search passes over every entry.
  induction entries with
  | nil => rfl
  | cons first rest ih =>
    rw [findEntry, if_neg (absent first List.mem_cons_self)]
    exact ih fun entry later => absent entry (List.mem_cons_of_mem _ later)

/-- A name stands in some entry exactly if it is found. -/
theorem mem_names_iff {α : Type} {name : String} {entries : List (String × α)} :
    name ∈ entries.map (·.1) ↔ ∃ value, findEntry name entries = some value := by
  -- The search takes the first entry with the name, so it fails only if there is none.
  induction entries with
  | nil => simp [findEntry]
  | cons first rest ih =>
    rw [List.map_cons, List.mem_cons, ih, findEntry]
    by_cases atFirst : name = first.1 <;> simp [atFirst]

/-- An entry that is found is one of the entries. -/
theorem mem_of_findEntry {α : Type} {name : String} {value : α} {entries : List (String × α)}
    (found : findEntry name entries = some value) : (name, value) ∈ entries := by
  -- The search passes over entries of other names only.
  induction entries with
  | nil => simp [findEntry] at found
  | cons first rest ih =>
    rw [findEntry] at found
    split at found
    · rename_i same
      cases found
      exact List.mem_cons.2 (.inl (Prod.ext same rfl))
    · exact List.mem_cons_of_mem _ (ih found)

/-- Where the entries stand in order, each of them is found. -/
theorem findEntry_of_mem {α : Type} {name : String} {value : α} {entries : List (String × α)}
    (sorted : entries.Pairwise (fun a b => a.1 < b.1)) (member : (name, value) ∈ entries) :
    findEntry name entries = some value := by
  -- Before the entry there are smaller names only, which the search passes over.
  induction entries with
  | nil => simp at member
  | cons first rest ih =>
    obtain ⟨after, restSorted⟩ := List.pairwise_cons.1 sorted
    rcases List.mem_cons.1 member with rfl | later
    · simp [findEntry]
    · rw [findEntry, if_neg (String.ne_of_lt (after _ later)).symm]
      exact ih restSorted later

/-- What is found in two lists of entries is found in the first one, else in the second. -/
theorem findEntry_append {α : Type} (name : String) (first second : List (String × α)) :
    findEntry name (first ++ second) = (findEntry name first).or (findEntry name second) := by
  -- As long as the first list does not answer, the search goes on behind it.
  induction first with
  | nil => simp [findEntry]
  | cons entry rest ih => by_cases atHead : name = entry.1 <;> simp [findEntry, atHead, ih]

/-- Entries in order may be searched from either end. -/
theorem findEntry_reverse {α : Type} {name : String} {entries : List (String × α)}
    (sorted : entries.Pairwise (fun a b => a.1 < b.1)) :
    findEntry name entries.reverse = findEntry name entries := by
  -- From the far end the first entry comes last, and its name is no other entry's.
  induction entries with
  | nil => rfl
  | cons first rest ih =>
    obtain ⟨after, restSorted⟩ := List.pairwise_cons.1 sorted
    rw [List.reverse_cons, findEntry_append, ih restSorted]
    by_cases atFirst : name = first.1
    · subst atFirst
      rw [findEntry_eq_none fun entry member => String.ne_of_lt (after entry member)]
      simp [findEntry]
    · simp [findEntry, atFirst]

/-- Entries in order are determined by what is found under each name. -/
theorem entries_eq_of_findEntry {α : Type} {first second : List (String × α)}
    (firstSorted : first.Pairwise (fun a b => a.1 < b.1))
    (secondSorted : second.Pairwise (fun a b => a.1 < b.1))
    (same : ∀ name, findEntry name first = findEntry name second) : first = second := by
  -- The smallest name of either list is found in both, so the two heads agree.
  induction first generalizing second with
  | nil =>
    cases second with
    | nil => rfl
    | cons entry rest => simpa [findEntry] using same entry.1
  | cons a as ih =>
    cases second with
    | nil => simpa [findEntry] using same a.1
    | cons b bs =>
      obtain ⟨aFirst, asSorted⟩ := List.pairwise_cons.1 firstSorted
      obtain ⟨bFirst, bsSorted⟩ := List.pairwise_cons.1 secondSorted
      have absentBelow {name : String} {entry : String × α} {rest : List (String × α)}
          (below : name < entry.1) (after : ∀ other ∈ rest, entry.1 < other.1) :
          findEntry name (entry :: rest) = none := by
        refine findEntry_eq_none fun other member => ?_
        rcases List.mem_cons.1 member with rfl | later
        · exact String.ne_of_lt below
        · exact String.ne_of_lt (String.lt_trans below (after other later))
      have sameName : a.1 = b.1 := by
        have atA := same a.1
        have atB := same b.1
        rcases String.le_total a.1 b.1 with le | ge
        · by_cases equal : a.1 = b.1
          · exact equal
          · rw [absentBelow (Std.lt_of_le_of_ne le equal) bFirst] at atA
            simp [findEntry] at atA
        · by_cases equal : b.1 = a.1
          · exact equal.symm
          · rw [absentBelow (Std.lt_of_le_of_ne ge equal) aFirst] at atB
            simp [findEntry] at atB
      have sameValue : a.2 = b.2 := by simpa [findEntry, sameName] using same a.1
      have sameRest : as = bs := by
        refine ih asSorted bsSorted fun name => ?_
        by_cases atHead : name = a.1
        · subst atHead
          rw [findEntry_eq_none fun entry member => String.ne_of_lt (aFirst entry member),
            findEntry_eq_none fun entry member => String.ne_of_lt (sameName ▸ bFirst entry member)]
        · have atName := same name
          rwa [findEntry, findEntry, if_neg atHead, if_neg (sameName ▸ atHead)] at atName
      rw [sameRest, Prod.ext sameName sameValue]

namespace SortedMap

variable {α : Type}

@[simp]
theorem get?_empty (name : String) : (empty : SortedMap α).get? name = none := rfl

/-- A name is among the keys exactly if a value is bound to it. -/
theorem mem_keys_iff {m : SortedMap α} {name : String} :
    name ∈ m.keys ↔ ∃ value, m.get? name = some value :=
  mem_names_iff

/-- The entries are the names with the values that are bound to them. -/
theorem mem_entries_iff {m : SortedMap α} {name : String} {value : α} :
    (name, value) ∈ m.entries ↔ m.get? name = some value :=
  ⟨findEntry_of_mem m.sorted, mem_of_findEntry⟩

/-- A binding is seen at its own name and changes nothing else. -/
theorem get?_insert (m : SortedMap α) (name other : String) (value : α) :
    (m.insert name value).get? other = if other = name then some value else m.get? other :=
  findEntry_putEntry name other value m.entries

/-- Maps that bind the same values are equal. -/
theorem ext_get? {m n : SortedMap α} (same : ∀ name, m.get? name = n.get? name) : m = n := by
  -- A map is its list of entries with a proof that they are in order.
  obtain ⟨a, aSorted⟩ := m
  obtain ⟨b, bSorted⟩ := n
  -- In order, the entries can be read off from what is found.
  have equal : a = b := entries_eq_of_findEntry aSorted bSorted same
  subst equal
  rfl

/-- Binding one after the other, the last binding of a name wins over the earlier ones and the map. -/
theorem get?_foldl_insert (bindings : List (String × α)) (m : SortedMap α) (name : String) :
    (bindings.foldl (fun m (bound, value) => m.insert bound value) m).get? name =
      (findEntry name bindings.reverse).or (m.get? name) := by
  -- The first binding counts only where no later one has its name.
  induction bindings generalizing m with
  | nil => simp [findEntry]
  | cons first rest ih =>
    rw [List.foldl_cons, ih, get?_insert, List.reverse_cons, findEntry_append]
    by_cases atFirst : name = first.1 <;> simp [findEntry, atFirst]

/-- The map of a list of bindings has the last value that the list binds to a name. -/
theorem get?_ofList (bindings : List (String × α)) (name : String) :
    (ofList bindings).get? name = findEntry name bindings.reverse := by
  -- Bindings are inserted from the left, so the last one for a name stays.
  rw [ofList, get?_foldl_insert, get?_empty, Option.or_none]

/-- A list that binds each name to one value only has the bindings of its map. -/
theorem mem_entries_ofList_iff {bindings : List (String × α)}
    (single : ∀ name value other, (name, value) ∈ bindings → (name, other) ∈ bindings → value = other)
    {name : String} {value : α} :
    (name, value) ∈ (ofList bindings).entries ↔ (name, value) ∈ bindings := by
  -- The map has the last value of the list, which here is any value of the list.
  rw [mem_entries_iff, get?_ofList]
  constructor
  · -- What is found comes from a member of the list.
    intro found
    exact List.mem_reverse.1 (mem_of_findEntry found)
  · -- The name is found with some value, of which there is only one.
    intro member
    have named := List.mem_map_of_mem (f := Prod.fst) (List.mem_reverse.2 member)
    obtain ⟨other, found⟩ := mem_names_iff.1 named
    rw [found, single name value other member (List.mem_reverse.1 (mem_of_findEntry found))]

/-- In a map over another one, the upper value of a name hides the lower one. -/
theorem get?_override (lower upper : SortedMap α) (name : String) :
    (lower.override upper).get? name = (upper.get? name).or (lower.get? name) := by
  -- The upper bindings are inserted last, over those of the lower map.
  rw [override, get?_foldl_insert, findEntry_reverse upper.sorted]
  rfl

end SortedMap

end BoardConfig
