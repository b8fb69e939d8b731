import BoardConfig.Proofs.Derivation.Placement

/-! The order of evaluation is determined for every list of rules, as is the reason why there is none. -/

namespace BoardConfig

open Relation Schedule

variable {rules : List Rule} {order : List Nat}

/-- Without a repetition all outputs are different, and none was there earlier. -/
theorem repeatedOutput?_eq_none {earlier names : List String}
    (absent : repeatedOutput? earlier names = none) :
    names.Nodup ∧ ∀ name ∈ names, name ∉ earlier := by
  -- Induction on the names, where each one counts as earlier for those behind it.
  induction names generalizing earlier with
  | nil => simp
  | cons first rest ih =>
    simp only [repeatedOutput?] at absent
    split at absent
    · cases absent
    · rename_i new
      obtain ⟨distinct, apart⟩ := ih absent
      refine ⟨List.nodup_cons.2 ⟨fun again => apart first again (by simp), distinct⟩, ?_⟩
      intro name among
      rcases List.mem_cons.1 among with rfl | later
      · exact new
      · exact fun old => apart name later (List.mem_cons_of_mem _ old)

/-- The repeated output is the first one that was there earlier or before it. -/
theorem repeatedOutput?_eq_some {earlier names : List String} {name : String}
    (found : repeatedOutput? earlier names = some name) :
    ∃ before after, names = before ++ name :: after ∧ before.Nodup ∧
      (∀ other ∈ before, other ∉ earlier) ∧ (name ∈ earlier ∨ name ∈ before) := by
  -- Induction on the names, up to the one that is found.
  induction names generalizing earlier with
  | nil => cases found
  | cons first rest ih =>
    simp only [repeatedOutput?] at found
    split at found
    · -- The first name was there earlier, so it is the one that is found.
      rename_i old
      cases found
      exact ⟨[], rest, rfl, List.nodup_nil, by simp, .inl old⟩
    · -- The first name counts as an earlier one for those behind it.
      rename_i new
      obtain ⟨before, after, rfl, distinct, apart, repeated⟩ := ih found
      refine ⟨first :: before, after, rfl, ?_, ?_, ?_⟩
      · exact List.nodup_cons.2 ⟨fun again => apart first again (by simp), distinct⟩
      · intro other among
        rcases List.mem_cons.1 among with rfl | later
        · exact new
        · exact fun old => apart other later (List.mem_cons_of_mem _ old)
      · simp only [List.mem_cons] at repeated ⊢
        tauto

/-- An output that an earlier rule has already is told, whatever the rules depend on. -/
theorem evaluationOrder_of_repeated (repeated : ¬ (outputs rules).Nodup) :
    ∃ before name after, outputs rules = before ++ name :: after ∧ before.Nodup ∧ name ∈ before ∧
      evaluationOrder rules = .error (.duplicate name) := by
  -- The outputs are looked through before anything else.
  cases found : repeatedOutput? [] (outputs rules) with
  | none => exact absurd (repeatedOutput?_eq_none found).1 repeated
  | some name =>
    obtain ⟨before, after, split, distinct, _, again⟩ := repeatedOutput?_eq_some found
    have within : name ∈ before := again.resolve_left (by simp)
    exact ⟨before, name, after, split, distinct, within, by simp [evaluationOrder, found]⟩

/-- Where all outputs differ, the order is the final one, unless some rules are left out of it. -/
theorem evaluationOrder_of_nodup (distinct : (outputs rules).Nodup) :
    evaluationOrder rules =
      if (final rules).order.length < rules.length then
        .error (.cycle (sortNames (outputs ((rules.zipIdx.filter fun (_, position) =>
          0 < ((final rules).pending[position]?).getD 0).map (·.1)))))
      else .ok (final rules).order := by
  -- Without a repetition the rules are placed as far as they can be.
  unfold evaluationOrder
  cases found : repeatedOutput? [] (outputs rules) with
  | none => rfl
  | some name =>
    obtain ⟨before, after, split, _, _, repeated⟩ := repeatedOutput?_eq_some found
    -- The repeated output would stand twice among different ones.
    rw [split] at distinct
    rcases repeated with old | again
    · simp at old
    · exact absurd rfl ((List.nodup_append.1 distinct).2.2 name again name (by simp))

/-- The final order is complete where no rule depends on itself. -/
theorem length_final (distinct : (outputs rules).Nodup) :
    (final rules).order.length = rules.length ↔ Acyclic rules := by
  -- A rule is left out of the final order exactly if it is stuck.
  have greedy := (invariant_final distinct).greedy
  rw [acyclic_iff]
  constructor
  · -- A complete order holds a stuck rule's producer too, which is stuck itself.
    rintro full position stuck
    obtain ⟨producer, ⟨_, _, declared, _⟩, _⟩ := stuck.exists_dependsOn
    have inside := (List.getElem?_eq_some_iff.1 declared).1
    have placed := (greedy.perm full).mem_iff.2 (List.mem_range.2 inside)
    exact (mem_final_iff distinct inside).1 placed stuck
  · -- With no rule stuck, all positions are placed.
    intro free
    have all : List.range rules.length ⊆ (final rules).order :=
      fun position inside => (mem_final_iff distinct (List.mem_range.1 inside)).2 (free position)
    have enough := List.nodup_range.length_le_of_subset all
    rw [List.length_range] at enough
    exact Nat.le_antisymm greedy.length_le enough

/-- Where all outputs differ and no rule depends on itself, the order is complete and greedy. -/
theorem evaluationOrder_of_acyclic (distinct : (outputs rules).Nodup) (acyclic : Acyclic rules) :
    ∃ order, evaluationOrder rules = .ok order ∧ IsTopological rules order ∧
      IsGreedy rules order := by
  -- Without a cycle the final order is complete, and it is greedy in any case.
  have full := (length_final distinct).2 acyclic
  have greedy := (invariant_final distinct).greedy
  refine ⟨(final rules).order, ?_, ⟨greedy.perm full, greedy.producersFirst⟩, greedy⟩
  rw [evaluationOrder_of_nodup distinct, if_neg (by omega)]

/-- An order is found only where all outputs differ and no rule depends on itself. -/
theorem evaluationOrder_ok (found : evaluationOrder rules = .ok order) :
    (outputs rules).Nodup ∧ Acyclic rules := by
  -- Both errors are excluded, the one for repeated outputs and the one for a short order.
  have distinct : (outputs rules).Nodup := by
    unfold evaluationOrder at found
    split at found
    · cases found
    · rename_i absent
      exact (repeatedOutput?_eq_none absent).1
  refine ⟨distinct, (length_final distinct).1 ?_⟩
  rw [evaluationOrder_of_nodup distinct] at found
  have bounded := (invariant_final distinct).greedy.length_le
  split at found
  · cases found
  · omega

/-- An order that is found holds every rule once, behind all rules that it depends on. -/
theorem isTopological_of_evaluationOrder (found : evaluationOrder rules = .ok order) :
    IsTopological rules order := by
  -- The order that is found is the final one, of which this is known.
  obtain ⟨distinct, acyclic⟩ := evaluationOrder_ok found
  obtain ⟨other, others, topological, _⟩ := evaluationOrder_of_acyclic distinct acyclic
  rw [found] at others
  cases others
  exact topological

/-- The names that a cycle is reported with are the outputs of the stuck rules, in byte order. -/
theorem evaluationOrder_of_cyclic (distinct : (outputs rules).Nodup) (cyclic : ¬ Acyclic rules) :
    ∃ names, evaluationOrder rules = .error (.cycle names) ∧ names.Pairwise (· < ·) ∧
      ∀ name, name ∈ names ↔
        ∃ position rule, rules[position]? = some rule ∧ rule.output = name ∧
          IsStuck rules position := by
  -- The order is short, so the rules that still wait are told.
  have short : (final rules).order.length < rules.length := by
    have bounded := (invariant_final distinct).greedy.length_le
    have different := mt (length_final distinct).1 cyclic
    omega
  refine ⟨_, by rw [evaluationOrder_of_nodup distinct, if_pos short], ?_, fun name => ?_⟩
  · -- The outputs of some of the rules are different as well, so the order is strict.
    have some : (outputs ((rules.zipIdx.filter fun (_, position) =>
        0 < ((final rules).pending[position]?).getD 0).map (·.1))).Sublist (outputs rules) := by
      have kept := (List.filter_sublist (l := rules.zipIdx) (p := fun (_, position) =>
        0 < ((final rules).pending[position]?).getD 0)).map Prod.fst
      rw [List.zipIdx_map_fst] at kept
      exact kept.map _
    have apart := (sortNames_perm _).nodup_iff.2 (some.nodup distinct)
    refine (apart.and (sortNames_ordered _)).imp ?_
    rintro first second ⟨different, le⟩
    exact Std.lt_of_le_of_ne le different
  · -- Those that wait for an input in the end are the stuck ones.
    rw [(sortNames_perm _).mem_iff]
    simp only [outputs, List.mem_map, List.mem_filter, Prod.exists, decide_eq_true_eq,
      List.mem_zipIdx_iff_getElem?]
    constructor
    · rintro ⟨rule, ⟨_, position, ⟨declared, waits⟩, rfl⟩, produces⟩
      have inside := (List.getElem?_eq_some_iff.1 declared).1
      exact ⟨position, _, declared, produces, (pending_final_pos_iff distinct inside).1 waits⟩
    · rintro ⟨position, rule, declared, produces, stuck⟩
      have inside := (List.getElem?_eq_some_iff.1 declared).1
      exact ⟨rule, ⟨rule, position,
        ⟨declared, (pending_final_pos_iff distinct inside).2 stuck⟩, rfl⟩, produces⟩

/--
What the order of evaluation is, for every list of rules.

An output that an earlier rule has already is told first, whatever the rules depend on.
Otherwise the first declared of the rules that wait for nothing always comes next, unless there is a
cycle: then the outputs of the rules on a cycle or behind one are told, and no others.
-/
theorem evaluationOrder_exact (rules : List Rule) :
    (¬ (outputs rules).Nodup →
      ∃ before name after, outputs rules = before ++ name :: after ∧ before.Nodup ∧
        name ∈ before ∧ evaluationOrder rules = .error (.duplicate name)) ∧
    ((outputs rules).Nodup → Acyclic rules →
      ∃ order, evaluationOrder rules = .ok order ∧ IsTopological rules order ∧
        IsGreedy rules order ∧
        ∀ other, IsTopological rules other → order = other ∨ List.Lex (· < ·) order other) ∧
    ((outputs rules).Nodup → ¬ Acyclic rules →
      ∃ names, evaluationOrder rules = .error (.cycle names) ∧ names.Pairwise (· < ·) ∧
        ∀ name, name ∈ names ↔
          ∃ position rule, rules[position]? = some rule ∧ rule.output = name ∧
            IsStuck rules position) := by
  -- Repeated outputs are looked for first; then the final order is complete or it is not.
  refine ⟨evaluationOrder_of_repeated, fun distinct acyclic => ?_, evaluationOrder_of_cyclic⟩
  obtain ⟨order, found, topological, greedy⟩ := evaluationOrder_of_acyclic distinct acyclic
  exact ⟨order, found, topological, greedy,
    fun other others => greedy.lex_of_isTopological topological.perm others⟩

/-- A rule that adds its inputs up. -/
def totalRule (output : String) (inputs : List String) : Rule where
  output := output
  inputs := inputs
  compute given := .ok (given.values.foldl (fun total named => total.add named.2) (UInt64.ofNat 0))

/-- Repeated, ordered and circular rules; of the circular ones the last is only upstream. -/
theorem evaluationOrder_exact_sample :
    (∃ before name after,
      outputs [totalRule "a" ["b"], totalRule "b" ["a"], totalRule "a" []] =
        before ++ name :: after ∧ before.Nodup ∧ name ∈ before ∧
      evaluationOrder [totalRule "a" ["b"], totalRule "b" ["a"], totalRule "a" []] =
        .error (.duplicate name)) ∧
    (∃ order, evaluationOrder [totalRule "b" ["a", "a"], totalRule "a" ["x"]] = .ok order ∧
      IsTopological [totalRule "b" ["a", "a"], totalRule "a" ["x"]] order) ∧
    (∃ names, evaluationOrder [totalRule "b" ["b", "u"], totalRule "c" ["b"], totalRule "u" []] =
        .error (.cycle names) ∧ names.Pairwise (· < ·) ∧
      ∀ name, name ∈ names ↔ ∃ position rule,
        [totalRule "b" ["b", "u"], totalRule "c" ["b"], totalRule "u" []][position]? = some rule ∧
          rule.output = name ∧
          IsStuck [totalRule "b" ["b", "u"], totalRule "c" ["b"], totalRule "u" []] position) := by
  refine ⟨(evaluationOrder_exact _).1 (by decide), ?_, ?_⟩
  · -- The first rule uses the second one's output twice.
    have ordered : evaluationOrder [totalRule "b" ["a", "a"], totalRule "a" ["x"]] = .ok [1, 0] := by
      rfl
    obtain ⟨distinct, acyclic⟩ := evaluationOrder_ok ordered
    obtain ⟨order, found, topological, _⟩ := (evaluationOrder_exact _).2.1 distinct acyclic
    exact ⟨order, found, topological⟩
  · -- The first rule consumes its own output.
    refine (evaluationOrder_exact _).2.2 (by decide) fun acyclic => ?_
    exact acyclic 0 (.single ⟨_, _, rfl, rfl, by decide⟩)

end BoardConfig
