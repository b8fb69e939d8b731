import BoardConfig.Proofs.Derivation.Solution

/-! Evaluating rules reads no other parameters than those that stand for inputs which no rule derives. -/

namespace BoardConfig

/-- Whether a name is an input of some rule, and a parameter stands for it as no rule derives it. -/
def ReadsParameter (rules : List Rule) (name : String) : Prop :=
  name ∉ outputs rules ∧ ∃ rule ∈ rules, name ∈ rule.inputs

/-- Whether two parameter sets bind alike what rules read, be it to a value or to none. -/
def ReadAlike (rules : List Rule) (first second : ParameterSet) : Prop :=
  ∀ name, ReadsParameter rules name → first.get? name = second.get? name

/-- A parameter set with one name bound to a value, whatever it was bound to before. -/
def ParameterSet.rebind (parameters : ParameterSet) (name : String) (value : ParameterValue) :
    ParameterSet :=
  { parameters with values := parameters.values.insert name value }

variable {rules : List Rule} {first second : ParameterSet} {derived : DerivedValues} {rule : Rule}
  {order : List Nat}

/-- Binding a name that is not read leaves alone what is. -/
theorem readAlike_rebind {parameters : ParameterSet} {name : String}
    (unread : ¬ ReadsParameter rules name) (value : ParameterValue) :
    ReadAlike rules (parameters.rebind name value) parameters := by
  -- The name that is bound anew is none of those that are read.
  intro other reads
  have different : other ≠ name := by
    intro same
    exact unread (same ▸ reads)
  simp only [ParameterSet.rebind, ParameterSet.get?, SortedMap.get?_insert, if_neg different]

/-- A derived input is looked up without a parameter, and any other one alike where it is bound alike. -/
theorem inputValue_congr (consumer : String) {name : String}
    (alike : derived.get? name = none → first.get? name = second.get? name) :
    inputValue first derived consumer name = inputValue second derived consumer name := by
  -- Only where no rule has derived the input are the parameters looked at.
  unfold inputValue
  cases found : derived.get? name with
  | some value => rfl
  | none => rw [alike found]

/-- Inputs are looked up alike, with the first that has no value told, where each of them is. -/
theorem inputValues_congr (consumer : String) {names : List String}
    (alike : ∀ name ∈ names, derived.get? name = none → first.get? name = second.get? name) :
    inputValues first derived consumer names = inputValues second derived consumer names := by
  -- Induction on the names, which are looked up one by one.
  induction names with
  | nil => rfl
  | cons name rest ih =>
    have here := inputValue_congr consumer (alike name List.mem_cons_self)
    have later := ih fun other among => alike other (List.mem_cons_of_mem _ among)
    simp only [inputValues, here, later]

/-- A rule whose derived inputs are there gives one result over parameters that are read alike. -/
theorem Rule.evaluate_congr (alike : ReadAlike rules first second) (among : rule ∈ rules)
    (bound : ∀ name ∈ rule.inputs, name ∈ outputs rules → (derived.get? name).isSome) :
    rule.evaluate first derived = rule.evaluate second derived := by
  -- Parameters have an influence through the inputs only.
  have inputs : inputValues first derived rule.output rule.inputs =
      inputValues second derived rule.output rule.inputs := by
    apply inputValues_congr
    intro name consumes absent
    -- A name that is not there yet is no rule's output, so it stands for a parameter.
    have underived : name ∉ outputs rules := by
      intro produced
      simpa [absent] using bound name consumes produced
    exact alike name ⟨underived, rule, among, consumes⟩
  unfold Rule.evaluate
  rw [inputs]

/-- The outputs of an order's rules are there once each of them was bound after those before it. -/
theorem isSome_insert_of_mem_outputs {before : List Nat} {position : Nat}
    (declared : rules[position]? = some rule)
    (bound : ∀ name ∈ outputs (rulesAt rules before), (derived.get? name).isSome) (value : UInt64) :
    ∀ name ∈ outputs (rulesAt rules (before ++ [position])),
      ((derived.insert rule.output value).get? name).isSome := by
  -- The new name is bound now, and any other one was before.
  intro name among
  rw [SortedMap.get?_insert]
  by_cases same : name = rule.output
  · simp [same]
  · rw [if_neg same]
    apply bound
    simpa [rulesAt_append declared, outputs, same] using among

/-- Along an order that puts producers first, no parameter is read in a derived value's place. -/
theorem evaluateInOrder_congr (alike : ReadAlike rules first second)
    (topological : IsTopological rules order) (rest : List Nat) {before : List Nat}
    (split : order = before ++ rest)
    (bound : ∀ name ∈ outputs (rulesAt rules before), (derived.get? name).isSome) :
    evaluateInOrder first (rulesAt rules rest) derived =
      evaluateInOrder second (rulesAt rules rest) derived := by
  -- The induction follows the rules that are left; the outputs of those before them are there.
  induction rest generalizing before derived with
  | nil => rfl
  | cons position rest ih =>
    have placed : position ∈ order := by simp [split]
    have inside := List.mem_range.1 (topological.perm.mem_iff.1 placed)
    have declared := List.getElem?_eq_getElem inside
    have onwards : rulesAt rules (position :: rest) = rules[position] :: rulesAt rules rest := by
      simp [rulesAt, declared]
    have here : rules[position].evaluate first derived = rules[position].evaluate second derived := by
      apply Rule.evaluate_congr alike (List.getElem_mem inside)
      intro name consumes produced
      exact bound name ((topological.producersFirst.mem_outputs split declared consumes).1 produced)
    rw [onwards]
    simp only [evaluateInOrder, here]
    cases rules[position].evaluate second derived with
    | error e => rfl
    | ok value =>
      have further : order = (before ++ [position]) ++ rest := by simp [split]
      exact ih further (isSome_insert_of_mem_outputs declared bound value)

/-- Evaluating rules gives one result, value or error, over parameters that are read alike. -/
theorem evaluate_congr (alike : ReadAlike rules first second) :
    evaluate rules first = evaluate rules second := by
  -- The order does not look at the parameters at all, and evaluation goes along it.
  unfold evaluate
  cases found : evaluationOrder rules with
  | error e => rfl
  | ok order =>
    have topological := isTopological_of_evaluationOrder found
    exact evaluateInOrder_congr alike topological order (List.nil_append order).symm
      (by simp [rulesAt, outputs])

/--
Derivation sees no other parameters than the declared inputs that no rule derives.

Two parameter sets that agree on these, in value or in having none, give the same values or the same
error. So whatever another name is bound to has no influence, also where a rule's output hides it.
-/
theorem evaluate_reads_inputs (rules : List Rule) :
    (∀ first second : ParameterSet, ReadAlike rules first second →
      evaluate rules first = evaluate rules second) ∧
    ∀ (parameters : ParameterSet) (name : String) (value : ParameterValue),
      ¬ ReadsParameter rules name →
        evaluate rules (parameters.rebind name value) = evaluate rules parameters := by
  -- Binding another name anew is a case of sets that agree on what is read.
  constructor
  · intro first second alike
    exact evaluate_congr alike
  · intro parameters name value unread
    exact evaluate_congr (readAlike_rebind unread value)

/-- A parameter that an output hides and one that is no input change neither the values nor an error. -/
theorem evaluate_reads_inputs_sample :
    ReadAlike [totalRule "b" ["a", "a"], totalRule "a" ["x"]]
      ⟨"p", .ofList [("a", .string "hidden"), ("x", .uint 3)]⟩
      ⟨"q", .ofList [("x", .uint 3), ("y", .uint 7)]⟩ ∧
    evaluate [totalRule "b" ["a", "a"], totalRule "a" ["x"]]
      ⟨"p", .ofList [("a", .string "hidden"), ("x", .uint 3)]⟩ = .ok (.ofList [("a", 3), ("b", 6)]) ∧
    evaluate [totalRule "b" ["a", "a"], totalRule "a" ["x"]]
      ⟨"q", .ofList [("x", .uint 3), ("y", .uint 7)]⟩ = .ok (.ofList [("a", 3), ("b", 6)]) ∧
    ¬ ReadsParameter [totalRule "b" ["a", "a"], totalRule "a" ["x"]] "a" ∧
    evaluate [totalRule "b" ["a", "a"], totalRule "a" ["x"]]
      (ParameterSet.rebind ⟨"p", .empty⟩ "a" (.uint 1)) = .error (.missing "a" "x") := by
  have alike : ReadAlike [totalRule "b" ["a", "a"], totalRule "a" ["x"]]
      ⟨"p", .ofList [("a", .string "hidden"), ("x", .uint 3)]⟩
      ⟨"q", .ofList [("x", .uint 3), ("y", .uint 7)]⟩ := by
    intro name reads
    obtain ⟨underived, rule, among, consumes⟩ := reads
    simp only [List.mem_cons, List.not_mem_nil, or_false] at among
    -- The only input that no rule derives is `x`, which both bind to 3.
    have only : name = "x" := by
      rcases among with rfl | rfl
      · simp [totalRule, outputs] at consumes underived
        exact absurd consumes underived.2
      · simpa [totalRule] using consumes
    subst only
    rfl
  -- A name that a rule derives is not read from the parameters.
  have hidden : ¬ ReadsParameter [totalRule "b" ["a", "a"], totalRule "a" ["x"]] "a" := by
    intro reads
    exact reads.1 (by decide)
  refine ⟨alike, rfl, ?_, hidden, ?_⟩
  · rw [← (evaluate_reads_inputs _).1 _ _ alike]
    rfl
  · rw [(evaluate_reads_inputs _).2 _ _ _ hidden]
    rfl

end BoardConfig
