import BoardConfig.Proofs.Path.Joining

/-! The way from a path to its parents, which comes to an end, and the parents of plainly spelled paths. -/

namespace BoardConfig.Path

/-- The path that is reached by going to the parent so many times, as long as there is one. -/
def climb (start : Path) : Nat → Option Path
  | 0 => some start
  | steps + 1 => (climb start steps).bind parent?

variable {start path above : Path} {steps : Nat}

/-- The first step of a climb goes to the parent, and the others go on from there. -/
theorem climb_succ (start : Path) (steps : Nat) :
    start.climb (steps + 1) = start.parent?.bind (climb · steps) := by
  -- Induction on the steps, which the climb takes at its end.
  induction steps with
  | zero => cases parent : start.parent? <;> simp [climb, parent]
  | succ steps ih =>
    rw [climb, ih, Option.bind_assoc]
    rfl

/-- Without a parent a path is its only ancestor. -/
theorem ancestors_of_top (top : path.parent? = none) : path.ancestors = [path] := by
  -- The list goes on with the parent, which there is not.
  rw [ancestors, ancestorsWithin, top]

/-- The ancestors of a path are what a climb from it comes to, step by step. -/
theorem getElem?_ancestors (start : Path) (steps : Nat) :
    start.ancestors[steps]? = start.climb steps := by
  -- Induction on the steps, each of which takes one ancestor off the list.
  induction steps generalizing start with
  | zero =>
    rw [ancestors, ancestorsWithin]
    rfl
  | succ steps ih =>
    rw [climb_succ]
    cases parent : start.parent? with
    | none => simp [ancestors_of_top parent]
    | some above =>
      rw [ancestors_cons parent, List.getElem?_cons_succ, ih]
      rfl

/-- A path is among the ancestors exactly if a climb comes to it. -/
theorem mem_ancestors_iff : above ∈ start.ancestors ↔ ∃ steps, start.climb steps = some above := by
  simp only [List.mem_iff_getElem?, getElem?_ancestors]

/-- What holds of a path and of the parent of each for which it holds is so of all ancestors. -/
theorem of_mem_ancestors (holds : Path → Prop) (here : holds start)
    (upward : ∀ below above, below.parent? = some above → holds below → holds above)
    (among : above ∈ start.ancestors) : holds above := by
  -- Induction on the steps of the climb that comes to the ancestor.
  obtain ⟨steps, reached⟩ := mem_ancestors_iff.1 among
  induction steps generalizing above with
  | zero =>
    cases reached
    exact here
  | succ steps ih =>
    obtain ⟨below, earlier, parent⟩ := Option.bind_eq_some_iff.1 reached
    exact upward below above parent (ih (mem_ancestors_iff.2 ⟨steps, earlier⟩) earlier)

/-- A parent of an absolute path is absolute. -/
theorem isAbsolute_of_parent? (absolute : path.isAbsolute) (parent : path.parent? = some above) :
    above.isAbsolute :=
  (exists_parent?_of_absolute absolute parent).1

/-- All ancestors of an absolute path are absolute. -/
theorem isAbsolute_of_mem_ancestors (absolute : path.isAbsolute)
    (among : above ∈ path.ancestors) : above.isAbsolute := by
  -- Being absolute is handed on from a path to its parent.
  refine of_mem_ancestors (fun path => path.isAbsolute) absolute ?_ among
  intro below next parent belowAbsolute
  exact isAbsolute_of_parent? belowAbsolute parent

/-- Each step of a climb takes a character away at least. -/
theorem length_of_climb (reached : start.climb steps = some path) :
    path.text.length + steps ≤ start.text.length := by
  -- Induction on the steps, as a parent is shorter than its path.
  induction steps generalizing path with
  | zero =>
    cases reached
    exact Nat.le_refl _
  | succ steps ih =>
    obtain ⟨before, earlier, parent⟩ := Option.bind_eq_some_iff.1 reached
    have longer := ih earlier
    have shorter := length_of_parent? parent
    omega

/-- Every climb comes to an end. -/
theorem exists_climb_eq_none (start : Path) : ∃ steps, start.climb steps = none := by
  -- As many steps as characters, and one more, are too many.
  refine ⟨start.text.length + 1, ?_⟩
  cases reached : start.climb (start.text.length + 1) with
  | none => rfl
  | some path =>
    -- More steps than characters would leave less than nothing of them.
    have bound := length_of_climb reached
    omega

/-- Whether a text is a name in a plainly spelled path: not blank, no dot or two, and without a slash. -/
def IsPlain (name : String) : Prop :=
  ¬ isIdle name ∧ name ≠ ".." ∧ '/' ∉ name.toList

/-- The absolute path that spells names plainly, the outermost first. -/
def ofNames (names : List String) : Path :=
  ⟨"/" ++ "/".intercalate names⟩

variable {names front behind : List String} {last : String}

/-- Behind the empty piece of the root stand the names. -/
theorem ofNames_eq_ofPieces (filled : names ≠ []) : ofNames names = ofPieces ("" :: names) := by
  -- Both spell a slash before each name.
  obtain ⟨first, rest, rfl⟩ := List.exists_cons_of_ne_nil filled
  apply congrArg Path.mk
  apply String.toList_injective
  rw [String.toList_append, String.toList_intercalate, String.toList_intercalate, List.map_cons]
  exact (intercalate_cons_cons '/' [] _ _).symm

/-- The parent of a plainly spelled path spells the names before the last. -/
theorem parent?_ofNames (plain : ∀ name ∈ front ++ [last], IsPlain name) :
    (ofNames (front ++ [last])).parent? = some (ofNames front) := by
  -- A plain name is not idle, so the last piece is the one that is dropped.
  have filled : front ++ [last] ≠ [] := List.concat_ne_nil last front
  have pieces : (ofNames (front ++ [last])).pieces = "" :: front ++ [last] := by
    rw [ofNames_eq_ofPieces filled]
    apply pieces_ofPieces (List.cons_ne_nil _ _)
    intro piece among
    rcases List.mem_cons.1 among with rfl | named
    · simp
    · exact (plain piece named).2.2
  have busy : ¬ isIdle last := (plain last (by simp)).1
  rw [parent?_of_pieces pieces busy]
  rcases List.eq_nil_or_concat' front with rfl | ⟨outer, inner, rfl⟩
  · -- Above a single name there is the root.
    rfl
  · have busyInner : ¬ isIdle inner := (plain inner (by simp)).1
    rw [dropIdleEnd_of_last outer busyInner, if_neg (by simp),
      ofNames_eq_ofPieces (List.concat_ne_nil inner outer)]

/-- A climb from a plainly spelled path leaves one name after the other. -/
theorem climb_ofNames (plain : ∀ name ∈ front ++ behind, IsPlain name) :
    (ofNames (front ++ behind)).climb behind.length = some (ofNames front) := by
  -- Induction on the names from the last one on, which the first step leaves.
  induction behind using List.reverseRecOn with
  | nil => rw [List.append_nil]; rfl
  | append_singleton behind last ih =>
    rw [← List.append_assoc] at plain ⊢
    rw [List.length_append, List.length_singleton, climb_succ, parent?_ofNames plain]
    exact ih fun name among => plain name (List.mem_append_left [last] among)

end BoardConfig.Path
