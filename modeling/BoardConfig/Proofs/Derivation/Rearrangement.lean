import BoardConfig.Proofs.Derivation.Solution

/-! Rules derive the same values, and are stuck in the same cycles, in whatever order they are declared. -/

namespace BoardConfig

open Relation

variable {rules others : List Rule} {parameters : ParameterSet} {derived : DerivedValues}
  {rule : Rule} {position : Nat}

/-- Each declared rule has a position among rules that contain it. -/
theorem exists_positions (within : rules ⊆ others) :
    ∃ moved : Nat → Nat, ∀ position rule, rules[position]? = some rule →
      others[moved position]? = some rule := by
  -- One position is chosen for each rule, among those at which it stands.
  have each (position : Nat) : ∃ other : Nat, ∀ rule, rules[position]? = some rule →
      others[other]? = some rule := by
    cases declared : rules[position]? with
    | none => exact ⟨0, by simp⟩
    | some rule =>
      obtain ⟨other, there⟩ := List.mem_iff_getElem?.1 (within (List.mem_of_getElem? declared))
      exact ⟨other, by simpa using there⟩
  exact Classical.skolem.1 each

/-- A rule depends on another one wherever both are declared. -/
theorem DependsOn.move {moved : Nat → Nat} {producer : Nat}
    (keeps : ∀ position rule, rules[position]? = some rule → others[moved position]? = some rule)
    (depends : DependsOn rules position producer) :
    DependsOn others (moved position) (moved producer) := by
  -- Consumer and producer are the same rules, found at their new positions.
  obtain ⟨consumer, supplier, consumes, produces, among⟩ := depends
  exact ⟨consumer, supplier, keeps _ _ consumes, keeps _ _ produces, among⟩

/-- A cycle is one wherever its rules are declared. -/
theorem Acyclic.of_subset (acyclic : Acyclic others) (within : rules ⊆ others) : Acyclic rules := by
  -- A cycle among some of the rules would be one among all of them.
  obtain ⟨moved, keeps⟩ := exists_positions within
  intro position cycle
  exact acyclic (moved position) (cycle.lift moved fun _ _ => DependsOn.move keeps)

/-- A rule that is stuck among some rules is stuck among more of them. -/
theorem IsStuck.exists_of_subset (within : rules ⊆ others) (declared : rules[position]? = some rule)
    (stuck : IsStuck rules position) : ∃ other, others[other]? = some rule ∧ IsStuck others other := by
  -- The way to the cycle, and the cycle, are moved to the new positions step by step.
  obtain ⟨moved, keeps⟩ := exists_positions within
  obtain ⟨last, reached, cycle⟩ := stuck
  refine ⟨moved position, keeps position rule declared, moved last, ?_, ?_⟩
  · exact reached.lift moved fun _ _ => DependsOn.move keeps
  · exact cycle.lift moved fun _ _ => DependsOn.move keeps

/-- The same rules have the same outputs. -/
theorem mem_outputs_of_perm (same : rules.Perm others) {name : String} :
    name ∈ outputs rules ↔ name ∈ outputs others :=
  (same.map _).mem_iff

/-- Whether a value is that of an input does not depend on the order of the rules. -/
theorem IsInputValue.of_perm (same : rules.Perm others) {name : String} {value : UInt64}
    (isValue : IsInputValue rules parameters derived name value) :
    IsInputValue others parameters derived name value := by
  -- The rules are asked only which outputs they have.
  unfold IsInputValue at isValue ⊢
  simpa only [mem_outputs_of_perm same] using isValue

/-- What solves the equations of rules solves them in every order. -/
theorem Solves.of_perm (same : rules.Perm others) (solves : Solves rules rules parameters derived) :
    Solves others others parameters derived where
  domain name := by
    -- The domain of a solution is that of the outputs.
    rw [solves.domain name, mem_outputs_of_perm same]
  balances rule among := by
    obtain ⟨values, value, given, computes, bound⟩ := solves.balances rule (same.mem_iff.2 among)
    refine ⟨values, value, ?_, computes, bound⟩
    exact given.imp fun _ _ both => ⟨both.1, both.2.of_perm same⟩

/-- Values are derived exactly if all outputs differ, there is no cycle, and they solve the equations. -/
theorem evaluate_ok_iff :
    evaluate rules parameters = .ok derived ↔
      (outputs rules).Nodup ∧ Acyclic rules ∧ Solves rules rules parameters derived := by
  -- Whatever is derived is a solution, and where there is an order the solution is derived.
  constructor
  · -- Values are derived along an order, which exists only under these conditions.
    intro evaluated
    cases found : evaluationOrder rules with
    | error e => simp [evaluate, found] at evaluated
    | ok order =>
      obtain ⟨distinct, acyclic⟩ := evaluationOrder_ok found
      refine ⟨distinct, acyclic, ?_⟩
      rcases evaluate_cases parameters found distinct (isTopological_of_evaluationOrder found) with
        ⟨final, reached, solves⟩ | ⟨e, failed, _⟩
      · rw [evaluated] at reached
        cases reached
        exact solves
      · rw [evaluated] at failed
        cases failed
  · -- Evaluation along the order finds a solution, of which there is one.
    intro both
    obtain ⟨distinct, acyclic, solves⟩ := both
    obtain ⟨order, found, topological, _⟩ := evaluationOrder_of_acyclic distinct acyclic
    rcases evaluate_cases parameters found distinct topological with
      ⟨final, evaluated, solution⟩ | ⟨e, _, fails⟩
    · rw [evaluated, solution.unique topological solves]
    · exact absurd solves (fails.not_solves topological)

/-- Values that rules derive are derived by the same rules in another order. -/
theorem evaluate_ok_of_perm (same : rules.Perm others)
    (evaluated : evaluate rules parameters = .ok derived) :
    evaluate others parameters = .ok derived := by
  -- None of the three conditions looks at the order of the rules.
  obtain ⟨distinct, acyclic, solves⟩ := evaluate_ok_iff.1 evaluated
  apply evaluate_ok_iff.2
  exact ⟨(same.map _).nodup_iff.1 distinct, acyclic.of_subset same.symm.subset, solves.of_perm same⟩

/-- A cycle is told by the same names in whatever order the rules are declared. -/
theorem evaluationOrder_of_perm (same : rules.Perm others) (distinct : (outputs rules).Nodup)
    (cyclic : ¬ Acyclic rules) :
    ∃ names, evaluationOrder rules = .error (.cycle names) ∧
      evaluationOrder others = .error (.cycle names) := by
  have otherCyclic : ¬ Acyclic others := fun acyclic => cyclic (acyclic.of_subset same.subset)
  have otherDistinct : (outputs others).Nodup := (same.map _).nodup_iff.1 distinct
  obtain ⟨names, told, sorted, stuck⟩ := evaluationOrder_of_cyclic distinct cyclic
  obtain ⟨otherNames, otherTold, otherSorted, otherStuck⟩ :=
    evaluationOrder_of_cyclic otherDistinct otherCyclic
  -- Both tell the outputs of the stuck rules, which are the same rules at other positions.
  have members (name : String) : name ∈ names ↔ name ∈ otherNames := by
    rw [stuck, otherStuck]
    constructor
    · intro stands
      obtain ⟨position, rule, declared, produces, isStuck⟩ := stands
      obtain ⟨other, there, still⟩ := isStuck.exists_of_subset same.subset declared
      exact ⟨other, rule, there, produces, still⟩
    · intro stands
      obtain ⟨position, rule, declared, produces, isStuck⟩ := stands
      obtain ⟨other, there, still⟩ := isStuck.exists_of_subset same.symm.subset declared
      exact ⟨other, rule, there, produces, still⟩
  -- In byte order, the names can be listed in one way only.
  have perm : names.Perm otherNames :=
    (List.perm_ext_iff_of_nodup (sorted.imp String.ne_of_lt) (otherSorted.imp String.ne_of_lt)).2 members
  have equal : names = otherNames := perm.eq_of_pairwise' sorted otherSorted
  exact ⟨names, told, equal ▸ otherTold⟩

/--
The order in which rules are declared has no influence on what they derive.

It breaks ties between rules that could be evaluated next, but values are derived in every order or
in none, and they are the same. A cycle is told by the same names.
-/
theorem evaluate_perm (same : rules.Perm others) (parameters : ParameterSet) :
    (∀ derived, evaluate rules parameters = .ok derived ↔ evaluate others parameters = .ok derived) ∧
    ((outputs rules).Nodup → ¬ Acyclic rules →
      ∃ names, evaluate rules parameters = .error (.cycle names) ∧
        evaluate others parameters = .error (.cycle names)) := by
  -- Values are those of one solution, and a cycle's names those of the stuck rules.
  constructor
  · intro derived
    exact ⟨evaluate_ok_of_perm same, evaluate_ok_of_perm same.symm⟩
  · intro distinct cyclic
    obtain ⟨names, told, otherTold⟩ := evaluationOrder_of_perm same distinct cyclic
    exact ⟨names, by simp only [evaluate, told], by simp only [evaluate, otherTold]⟩

/-- A rule before or behind its producer, and a cycle with a rule behind it at either end. -/
theorem evaluate_perm_sample :
    [totalRule "b" ["a", "a"], totalRule "a" ["x"]].Perm [totalRule "a" ["x"], totalRule "b" ["a", "a"]] ∧
    evaluate [totalRule "a" ["x"], totalRule "b" ["a", "a"]] ⟨"p", .ofList [("x", .uint 3)]⟩ =
      .ok (.ofList [("a", 3), ("b", 6)]) ∧
    ∃ names,
      evaluate [totalRule "b" ["b"], totalRule "c" ["b"], totalRule "u" []] ⟨"p", .empty⟩ =
        .error (.cycle names) ∧
      evaluate [totalRule "u" [], totalRule "c" ["b"], totalRule "b" ["b"]] ⟨"p", .empty⟩ =
        .error (.cycle names) := by
  have swapped : [totalRule "b" ["a", "a"], totalRule "a" ["x"]].Perm
      [totalRule "a" ["x"], totalRule "b" ["a", "a"]] := List.Perm.swap _ _ _
  have reversed : [totalRule "b" ["b"], totalRule "c" ["b"], totalRule "u" []].Perm
      [totalRule "u" [], totalRule "c" ["b"], totalRule "b" ["b"]] :=
    (List.reverse_perm [totalRule "b" ["b"], totalRule "c" ["b"], totalRule "u" []]).symm
  have distinct : (outputs [totalRule "b" ["b"], totalRule "c" ["b"], totalRule "u" []]).Nodup := by
    decide
  have cyclic : ¬ Acyclic [totalRule "b" ["b"], totalRule "c" ["b"], totalRule "u" []] := by
    intro acyclic
    exact acyclic 0 (.single ⟨_, _, rfl, rfl, by decide⟩)
  -- The values follow in one order by evaluation, and in the other one by the theorem.
  refine ⟨swapped, ?_, (evaluate_perm reversed _).2 distinct cyclic⟩
  exact ((evaluate_perm swapped _).1 _).1 rfl

end BoardConfig
