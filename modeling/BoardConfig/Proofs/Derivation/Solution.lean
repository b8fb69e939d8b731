import BoardConfig.Proofs.Derivation.Equations

/-! Evaluating rules in order finds the one solution of their equations, or the first rule that fails. -/

namespace BoardConfig

/-- Whether derived values are those of a part of the rules, and satisfy their equations. -/
structure Solves (rules part : List Rule) (parameters : ParameterSet) (derived : DerivedValues) :
    Prop where
  /-- The names bound are the outputs. -/
  domain : ∀ name, (derived.get? name).isSome ↔ name ∈ outputs part
  /-- Each rule's equation holds. -/
  balances : ∀ rule ∈ part, Balances rules parameters derived rule

/-- The rules at the positions of an order. -/
def rulesAt (rules : List Rule) (order : List Nat) : List Rule :=
  order.filterMap fun position => rules[position]?

/-- Whether an error is that of the first rule of an order that fails, behind others that do not. -/
def FailsFirst (rules : List Rule) (parameters : ParameterSet) (order : List Nat)
    (e : DerivationError) : Prop :=
  ∃ before position after rule derived, order = before ++ position :: after ∧
    rules[position]? = some rule ∧ Solves rules (rulesAt rules before) parameters derived ∧
    Fails rules parameters derived rule e

variable {rules part : List Rule} {parameters : ParameterSet} {derived other : DerivedValues}
  {rule : Rule} {order : List Nat} {position : Nat}

/-- The rules of an order are those at its positions. -/
theorem mem_rulesAt : rule ∈ rulesAt rules order ↔ ∃ position ∈ order, rules[position]? = some rule :=
  List.mem_filterMap

/-- One more position is one more rule. -/
theorem rulesAt_append (declared : rules[position]? = some rule) :
    rulesAt rules (order ++ [position]) = rulesAt rules order ++ [rule] := by
  -- A declared position brings its rule, and nothing else.
  simp [rulesAt, declared]

/-- The rules of an order that holds every position are all rules. -/
theorem mem_rulesAt_of_perm (perm : order.Perm (List.range rules.length)) :
    rule ∈ rulesAt rules order ↔ rule ∈ rules := by
  -- The order has every position of the list, and each rule stands at one of them.
  rw [mem_rulesAt, List.mem_iff_getElem?]
  constructor
  · rintro ⟨position, -, declared⟩
    exact ⟨position, declared⟩
  · rintro ⟨position, declared⟩
    have inside := (List.getElem?_eq_some_iff.1 declared).1
    exact ⟨position, perm.mem_iff.2 (List.mem_range.2 inside), declared⟩

/-- What solves the equations of some rules solves those of the same rules in another order. -/
theorem Solves.congr {others : List Rule} (solves : Solves rules part parameters derived)
    (same : ∀ rule, rule ∈ others ↔ rule ∈ part) : Solves rules others parameters derived where
  domain name := by
    -- Both parts of a solution ask for the rules' membership only.
    rw [solves.domain name]
    simp only [outputs, List.mem_map, same]
  balances rule among := solves.balances rule ((same rule).1 among)

/-- A rule's derived inputs are the outputs of rules before it. -/
theorem ProducersFirst.mem_outputs (first : ProducersFirst rules order) {before after : List Nat}
    (split : order = before ++ position :: after) (declared : rules[position]? = some rule)
    {name : String} (consumes : name ∈ rule.inputs) :
    name ∈ outputs rules ↔ name ∈ outputs (rulesAt rules before) := by
  -- An input that a rule derives is an output the rule depends on, and so comes earlier.
  simp only [outputs, List.mem_map, mem_rulesAt]
  constructor
  · rintro ⟨other, among, rfl⟩
    obtain ⟨producer, produces⟩ := List.mem_iff_getElem?.1 among
    have depends : DependsOn rules position producer := ⟨rule, other, declared, produces, consumes⟩
    exact ⟨other, ⟨producer, first before position after split producer depends, produces⟩, rfl⟩
  · rintro ⟨other, ⟨producer, -, produces⟩, rfl⟩
    exact ⟨other, List.mem_iff_getElem?.2 ⟨producer, produces⟩, rfl⟩

/-- A rule's value solves its equation on top of those of other rules. -/
theorem Solves.insert (solves : Solves rules part parameters derived)
    (new : rule.output ∉ outputs part) {values : List (String × UInt64)} {value : UInt64}
    (given : AreInputValues rules parameters derived rule.inputs values)
    (computes : rule.compute ⟨rule.output, values⟩ = .ok value) :
    Solves rules (part ++ [rule]) parameters (derived.insert rule.output value) := by
  -- The new name was bound to nothing, as no rule of the part derives it.
  have unbound : derived.get? rule.output = none := by
    have absent := mt (solves.domain rule.output).1 new
    simpa using absent
  constructor
  · -- The names that are bound are those of the part, and the new one.
    intro name
    have old := solves.domain name
    rw [SortedMap.get?_insert]
    by_cases same : name = rule.output
    · simp [same, outputs]
    · simp only [if_neg same, old]
      simp [outputs, same]
  · intro member among
    rcases List.mem_append.1 among with old | last
    · obtain ⟨others, result, inputs, computed, found⟩ := solves.balances member old
      refine ⟨others, result, inputs.insert unbound value, computed, ?_⟩
      -- The rule's own output is bound, so it is another name than the new one.
      have different : member.output ≠ rule.output := fun same => by
        rw [same, unbound] at found
        cases found
      rw [SortedMap.get?_insert, if_neg different, found]
    · -- The rule itself has the value that was computed for it.
      rw [List.mem_singleton.1 last]
      refine ⟨values, value, given.insert unbound value, computes, ?_⟩
      rw [SortedMap.get?_insert, if_pos rfl]

/-- Nothing is derived at first, which solves the equations of no rules. -/
theorem solves_nil (rules : List Rule) (parameters : ParameterSet) :
    Solves rules [] parameters .empty where
  domain name := by simp [outputs]
  balances rule among := by simp at among

/-- Evaluating the rest of an order solves all equations, or stops at the first rule that fails. -/
theorem evaluateInOrder_cases (distinct : (outputs rules).Nodup)
    (topological : IsTopological rules order) (rest : List Nat) {before : List Nat}
    (split : order = before ++ rest)
    (solves : Solves rules (rulesAt rules before) parameters derived) :
    (∃ final, evaluateInOrder parameters (rulesAt rules rest) derived = .ok final ∧
      Solves rules (rulesAt rules order) parameters final) ∨
    ∃ e, evaluateInOrder parameters (rulesAt rules rest) derived = .error e ∧
      FailsFirst rules parameters order e := by
  -- The induction follows the rules that are left; those before them are solved.
  induction rest generalizing before derived with
  | nil =>
    refine .inl ⟨derived, rfl, ?_⟩
    rwa [split, List.append_nil]
  | cons position rest ih =>
    have placed : position ∈ order := by simp [split]
    have inside := List.mem_range.1 (topological.perm.mem_iff.1 placed)
    have declared := List.getElem?_eq_getElem inside
    have onwards : rulesAt rules (position :: rest) = rules[position] :: rulesAt rules rest := by
      simp [rulesAt, declared]
    rw [onwards]
    simp only [evaluateInOrder]
    have bound (name : String) (consumes : name ∈ rules[position].inputs) :
        name ∈ outputs rules ↔ (derived.get? name).isSome := by
      rw [solves.domain name]
      exact topological.producersFirst.mem_outputs split declared consumes
    rcases Rule.evaluate_cases parameters bound with
      ⟨values, value, evaluated, given, computes⟩ | ⟨e, evaluated, fails⟩
    · -- The position is not among those before it, so its output is new.
      have new : rules[position].output ∉ outputs (rulesAt rules before) := by
        simp only [outputs, List.mem_map, mem_rulesAt]
        rintro ⟨other, ⟨earlier, among, produces⟩, same⟩
        have order := topological.perm.nodup_iff.2 List.nodup_range
        rw [split] at order
        rw [eq_of_output_eq distinct produces declared same] at among
        exact (List.nodup_append.1 order).2.2 position among position (by simp) rfl
      have solved := solves.insert new given computes
      rw [← rulesAt_append declared] at solved
      simp only [evaluated]
      exact ih (by simp [split]) solved
    · simp only [evaluated]
      exact .inr ⟨e, rfl, before, position, rest, _, derived, split, declared, solves, fails⟩

/-- Derived values that satisfy the equations of an order's rules agree on their outputs. -/
theorem ProducersFirst.agree (first : ProducersFirst rules order)
    (declared : ∀ position ∈ order, position < rules.length)
    (left : ∀ rule ∈ rulesAt rules order, Balances rules parameters derived rule)
    (right : ∀ rule ∈ rulesAt rules order, Balances rules parameters other rule) :
    ∀ name ∈ outputs (rulesAt rules order), other.get? name = derived.get? name := by
  -- The last rule's inputs are outputs of those before it, where both agree already.
  induction order using List.reverseRecOn with
  | nil => simp [rulesAt, outputs]
  | append_singleton before last ih =>
    have inside := declared last (by simp)
    have found := List.getElem?_eq_getElem inside
    rw [rulesAt_append found] at left right ⊢
    have earlier := ih first.of_append_singleton
      (fun position among => declared position (List.mem_append_left _ among))
      (fun rule among => left rule (List.mem_append_left _ among))
      (fun rule among => right rule (List.mem_append_left _ among))
    intro name among
    simp only [outputs, List.map_append, List.map_cons, List.map_nil, List.mem_append,
      List.mem_singleton] at among
    rcases among with old | rfl
    · exact earlier name old
    · obtain ⟨values, value, given, computes, bound⟩ := left rules[last] (by simp)
      obtain ⟨others, result, otherGiven, otherComputes, otherBound⟩ := right rules[last] (by simp)
      have same := given.of_agree fun name consumes produced =>
        earlier name ((first.mem_outputs rfl found consumes).1 produced)
      rw [same.unique otherGiven, otherComputes, Except.ok.injEq] at computes
      rw [bound, otherBound, computes]

/-- The equations of rules in an order that puts producers first have one solution at most. -/
theorem Solves.unique (topological : IsTopological rules order)
    (first : Solves rules rules parameters derived) (second : Solves rules rules parameters other) :
    derived = other := by
  -- Both solutions solve the equations along the order, where each value follows from earlier ones.
  have same (rule : Rule) : rule ∈ rulesAt rules order ↔ rule ∈ rules :=
    mem_rulesAt_of_perm topological.perm
  have agree := topological.producersFirst.agree
    (fun position among => List.mem_range.1 (topological.perm.mem_iff.1 among))
    (first.congr same).balances (second.congr same).balances
  refine SortedMap.ext_get? fun name => ?_
  by_cases produced : name ∈ outputs (rulesAt rules order)
  · exact (agree name produced).symm
  · -- No other names are bound by either.
    have left := mt ((first.congr same).domain name).1 produced
    have right := mt ((second.congr same).domain name).1 produced
    simp only [Option.not_isSome_iff_eq_none] at left right
    rw [left, right]

/-- Where a rule of the order fails the equations have no solution. -/
theorem FailsFirst.not_solves {e : DerivationError} (topological : IsTopological rules order)
    (fails : FailsFirst rules parameters order e) : ¬ Solves rules rules parameters derived := by
  intro solves
  obtain ⟨before, position, after, rule, reached, split, declared, partly, failure⟩ := fails
  -- Up to the failing rule the solution is what was reached, so it has a value for the rule.
  have among : rule ∈ rules := List.mem_iff_getElem?.2 ⟨position, declared⟩
  have first : ProducersFirst rules before := by
    rintro front consumer rest rfl
    exact topological.producersFirst front consumer (rest ++ position :: after) (by simp [split])
  have inside (earlier : Nat) (placed : earlier ∈ before) : earlier < rules.length :=
    List.mem_range.1 (topological.perm.mem_iff.1 (by simp [split, placed]))
  have agree := first.agree inside partly.balances fun other placed => by
    obtain ⟨earlier, -, found⟩ := mem_rulesAt.1 placed
    exact solves.balances other (List.mem_iff_getElem?.2 ⟨earlier, found⟩)
  obtain ⟨values, value, given, computes, -⟩ := solves.balances rule among
  refine failure.not_computes (given.of_agree fun name consumes produced => ?_) computes
  exact (agree name ((topological.producersFirst.mem_outputs split declared consumes).1 produced)).symm

/-- Evaluating rules that have an order solves all equations, or stops at the first rule that fails. -/
theorem evaluate_cases (parameters : ParameterSet) (found : evaluationOrder rules = .ok order)
    (distinct : (outputs rules).Nodup) (topological : IsTopological rules order) :
    (∃ final, evaluate rules parameters = .ok final ∧ Solves rules rules parameters final) ∨
    ∃ e, evaluate rules parameters = .error e ∧ FailsFirst rules parameters order e := by
  -- Evaluation goes along the order, starting from no derived values.
  have along : evaluate rules parameters =
      evaluateInOrder parameters (rulesAt rules order) .empty := by
    rw [evaluate, found]
    rfl
  rw [along]
  rcases evaluateInOrder_cases distinct topological order (List.nil_append order).symm
      (solves_nil rules parameters) with ⟨final, evaluated, solves⟩ | failed
  · exact .inl ⟨final, evaluated, solves.congr fun rule =>
      (mem_rulesAt_of_perm topological.perm).symm⟩
  · exact .inr failed

/--
Evaluating rules computes the one solution of their equations.

In these an input is what a rule derives, whatever parameter has the same name.
Without a solution the error is that of the first rule of the order that fails.
-/
theorem evaluate_iff_solves (distinct : (outputs rules).Nodup) (acyclic : Acyclic rules)
    (parameters : ParameterSet) :
    (∀ derived, evaluate rules parameters = .ok derived ↔ Solves rules rules parameters derived) ∧
    (∀ first second, Solves rules rules parameters first → Solves rules rules parameters second →
      first = second) ∧
    ∀ e, evaluate rules parameters = .error e →
      ∃ order, evaluationOrder rules = .ok order ∧ FailsFirst rules parameters order e := by
  -- The rules have an order, along which evaluation solves the equations or fails first.
  obtain ⟨order, found, topological, _⟩ := evaluationOrder_of_acyclic distinct acyclic
  refine ⟨fun derived => ?_, fun first second left right => left.unique topological right, ?_⟩
  · rcases evaluate_cases parameters found distinct topological with
      ⟨final, evaluated, solution⟩ | ⟨e, evaluated, fails⟩
    · -- What is computed is a solution, and there is one at most.
      rw [evaluated, Except.ok.injEq]
      constructor
      · rintro rfl
        exact solution
      · exact solution.unique topological
    · -- Where a rule fails there is no solution.
      rw [evaluated]
      constructor
      · intro impossible
        cases impossible
      · intro solves
        exact absurd solves (fails.not_solves topological)
  · intro e failed
    rcases evaluate_cases parameters found distinct topological with
      ⟨final, evaluated, _⟩ | ⟨cause, evaluated, fails⟩
    · rw [evaluated] at failed
      cases failed
    · rw [evaluated, Except.error.injEq] at failed
      exact ⟨order, found, failed ▸ fails⟩

/-- Over an integer the sample rules have a solution; over a text in its place the first one fails. -/
theorem evaluate_iff_solves_sample :
    Solves [totalRule "b" ["a", "a"], totalRule "a" ["x"]]
      [totalRule "b" ["a", "a"], totalRule "a" ["x"]]
      ⟨"p", .ofList [("a", .string "hidden"), ("x", .uint 3)]⟩ (.ofList [("a", 3), ("b", 6)]) ∧
    ∃ order, evaluationOrder [totalRule "b" ["a", "a"], totalRule "a" ["x"]] = .ok order ∧
      FailsFirst [totalRule "b" ["a", "a"], totalRule "a" ["x"]]
        ⟨"p", .ofList [("a", .uint 1), ("x", .string "three")]⟩ order
        (.typeMismatch "a" "x" "string") := by
  -- Over an integer evaluation succeeds, and over a text it stops at the first rule.
  have ordered : evaluationOrder [totalRule "b" ["a", "a"], totalRule "a" ["x"]] = .ok [1, 0] := rfl
  obtain ⟨distinct, acyclic⟩ := evaluationOrder_ok ordered
  constructor
  · exact ((evaluate_iff_solves distinct acyclic _).1 _).1 rfl
  · exact (evaluate_iff_solves distinct acyclic _).2.2 _ rfl

end BoardConfig
