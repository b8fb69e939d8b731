/-! Names in byte order. -/

namespace BoardConfig

/-- Puts a name before the first name of a list that is not smaller. -/
def insertName (name : String) : List String → List String
  | [] => [name]
  | other :: rest => if name ≤ other then name :: other :: rest else other :: insertName name rest

/-- Names in byte order, each as often as it occurs. -/
def sortNames : List String → List String
  | [] => []
  | name :: rest => insertName name (sortNames rest)

/-- Inserting a name keeps all names and adds one. -/
theorem insertName_perm (name : String) (names : List String) :
    (insertName name names).Perm (name :: names) := by
  -- The name goes before the first one, or changes places with it.
  induction names with
  | nil => exact .refl _
  | cons other rest ih =>
    simp only [insertName]
    split
    · exact .refl _
    · exact (ih.cons other).trans (.swap name other rest)

/-- Sorting keeps all names. -/
theorem sortNames_perm (names : List String) : (sortNames names).Perm names := by
  -- Sorting inserts one name after another, and each insertion keeps the names.
  induction names with
  | nil => exact .refl _
  | cons name rest ih => exact (insertName_perm name (sortNames rest)).trans (ih.cons name)

/-- Inserting a name into ordered names leaves them ordered. -/
theorem insertName_ordered {name : String} {names : List String}
    (ordered : names.Pairwise (· ≤ ·)) : (insertName name names).Pairwise (· ≤ ·) := by
  -- What stands behind the first name is the new one or was behind it before.
  induction names with
  | nil => simp [insertName]
  | cons other rest ih =>
    obtain ⟨after, restOrdered⟩ := List.pairwise_cons.1 ordered
    simp only [insertName]
    split
    · rename_i before
      refine List.pairwise_cons.2 ⟨?_, ordered⟩
      intro entry member
      rcases List.mem_cons.1 member with rfl | later
      · exact before
      · exact String.le_trans before (after entry later)
    · rename_i notBefore
      refine List.pairwise_cons.2 ⟨?_, ih restOrdered⟩
      intro entry member
      rcases List.mem_cons.1 ((insertName_perm name rest).mem_iff.1 member) with rfl | later
      · exact (String.le_total other entry).resolve_right notBefore
      · exact after entry later

/-- Sorted names stand in byte order. -/
theorem sortNames_ordered (names : List String) : (sortNames names).Pairwise (· ≤ ·) := by
  -- Each insertion finds the place that keeps the order.
  induction names with
  | nil => exact .nil
  | cons name rest ih => exact insertName_ordered ih

end BoardConfig
