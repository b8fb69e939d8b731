import BoardConfig.Derivation.Evaluation
import BoardConfig.Proofs.Derivation.Order
import BoardConfig.SortedMap.Lookup

/-! Rules read as equations between derived values, and how a rule without a value fails. -/

namespace BoardConfig

/-- Whether an input has a value: the derived one where a rule derives its name, else a parameter. -/
def IsInputValue (rules : List Rule) (parameters : ParameterSet) (derived : DerivedValues)
    (name : String) (value : UInt64) : Prop :=
  -- A derived name hides a parameter, also while the value is not there yet.
  if name ∈ outputs rules then derived.get? name = some value
  else parameters.get? name = some (.uint value)

/-- Whether values are those of the named inputs, in the same order. -/
def AreInputValues (rules : List Rule) (parameters : ParameterSet) (derived : DerivedValues) :
    List String → List (String × UInt64) → Prop :=
  List.Forall₂ fun name entry =>
    entry.1 = name ∧ IsInputValue rules parameters derived name entry.2

/-- Whether a rule's output is what the rule computes from the values of its inputs. -/
def Balances (rules : List Rule) (parameters : ParameterSet) (derived : DerivedValues)
    (rule : Rule) : Prop :=
  ∃ values value, AreInputValues rules parameters derived rule.inputs values ∧
    rule.compute ⟨rule.output, values⟩ = .ok value ∧ derived.get? rule.output = some value

/-- Why an input has no value: it is not derived, and the parameter is absent or no integer. -/
inductive LacksValue (rules : List Rule) (parameters : ParameterSet) (rule : Rule) (name : String) :
    DerivationError → Prop
  | missing (underived : name ∉ outputs rules) (absent : parameters.get? name = none) :
      LacksValue rules parameters rule name (.missing rule.output name)
  | typeMismatch {found : ParameterValue} (underived : name ∉ outputs rules)
      (bound : parameters.get? name = some found) (other : ∀ value, found ≠ .uint value) :
      LacksValue rules parameters rule name (.typeMismatch rule.output name found.typeName)

/-- How a rule fails over derived values: by its first input without a value, else by itself. -/
inductive Fails (rules : List Rule) (parameters : ParameterSet) (derived : DerivedValues)
    (rule : Rule) : DerivationError → Prop
  /-- All inputs before this one have values. -/
  | input {before after : List String} {name : String} {values : List (String × UInt64)}
      {e : DerivationError} (split : rule.inputs = before ++ name :: after)
      (earlier : AreInputValues rules parameters derived before values)
      (lacks : LacksValue rules parameters rule name e) : Fails rules parameters derived rule e
  /-- All inputs have values, which the rule refuses. -/
  | refused {values : List (String × UInt64)} {e : DerivationError}
      (given : AreInputValues rules parameters derived rule.inputs values)
      (refuses : rule.compute ⟨rule.output, values⟩ = .error e) :
      Fails rules parameters derived rule e

variable {rules : List Rule} {parameters : ParameterSet} {derived other : DerivedValues}
  {rule : Rule}

namespace AreInputValues

variable {names : List String} {values others : List (String × UInt64)}

/-- The values of inputs are determined. -/
theorem unique (first : AreInputValues rules parameters derived names values)
    (second : AreInputValues rules parameters derived names others) : values = others := by
  -- Induction on the inputs, whose values are determined one by one.
  induction first generalizing others with
  | nil =>
    cases second
    rfl
  | @cons name entry names values head tail ih =>
    cases second with
    | @cons _ next _ rest nextHead nextTail =>
      obtain ⟨named, value⟩ := head
      obtain ⟨nextNamed, nextValue⟩ := nextHead
      -- Whichever map the name is looked up in, it has one value there.
      have same : entry.2 = next.2 := by
        unfold IsInputValue at value nextValue
        split at value <;> simp_all
      rw [Prod.ext (named.trans nextNamed.symm) same, ih nextTail]

/-- Inputs have the same values over derived values that agree where they are looked up. -/
theorem of_agree (given : AreInputValues rules parameters derived names values)
    (agree : ∀ name ∈ names, name ∈ outputs rules → other.get? name = derived.get? name) :
    AreInputValues rules parameters other names values := by
  -- Induction on the inputs: a derived one is looked up in the map, any other one in the
  -- parameters.
  induction given with
  | nil => exact .nil
  | @cons name entry names values head tail ih =>
    refine .cons ⟨head.1, ?_⟩ (ih fun name among => agree name (List.mem_cons_of_mem _ among))
    have value := head.2
    unfold IsInputValue at value ⊢
    split
    · rename_i produced
      rw [agree name List.mem_cons_self produced]
      simpa [produced] using value
    · rename_i underived
      simpa [underived] using value

/-- Values that were derived before stay what they are when a new name is bound. -/
theorem insert (given : AreInputValues rules parameters derived names values) {name : String}
    (new : derived.get? name = none) (value : UInt64) :
    AreInputValues rules parameters (derived.insert name value) names values := by
  -- Induction on the inputs, none of which is looked up under the new name.
  induction given with
  | nil => exact .nil
  | @cons input entry names values head tail ih =>
    refine .cons ⟨head.1, ?_⟩ ih
    have found := head.2
    unfold IsInputValue at found ⊢
    split
    · rename_i produced
      simp only [produced, if_true] at found
      -- The input is bound already, so the new name is another one.
      have different : input ≠ name := by
        rintro rfl
        simp [new] at found
      rw [SortedMap.get?_insert, if_neg different, found]
    · rename_i underived
      simpa [underived] using found

end AreInputValues

/-- An input that lacks a value has none. -/
theorem LacksValue.not_isInputValue {name : String} {e : DerivationError}
    (lacks : LacksValue rules parameters rule name e) (value : UInt64) :
    ¬ IsInputValue rules parameters derived name value := by
  -- A parameter that is missing or of another type is no integer.
  intro isValue
  cases lacks with
  | missing underived absent => simp [IsInputValue, underived, absent] at isValue
  | typeMismatch underived bound other =>
    rw [IsInputValue, if_neg underived, bound, Option.some.injEq] at isValue
    exact other value isValue

/-- Where an input is bound if it is derived, looking it up gives its value or tells what it lacks. -/
theorem inputValue_cases (parameters : ParameterSet) (rule : Rule) (name : String)
    (bound : name ∈ outputs rules ↔ (derived.get? name).isSome) :
    (∃ value, inputValue parameters derived rule.output name = .ok value ∧
      IsInputValue rules parameters derived name value) ∨
    ∃ e, inputValue parameters derived rule.output name = .error e ∧
      LacksValue rules parameters rule name e := by
  -- What is derived is looked for first, and among the parameters only if it is not there.
  unfold inputValue IsInputValue
  cases derivedValue : derived.get? name with
  | some value =>
    have produced := bound.2 (by simp [derivedValue])
    exact .inl ⟨value, rfl, by simp [produced]⟩
  | none =>
    have underived : name ∉ outputs rules := fun produced => by
      simpa [derivedValue] using bound.1 produced
    -- An input that no rule derives is a parameter: absent, an integer, or of another type.
    cases parameter : parameters.get? name with
    | none => exact .inr ⟨_, rfl, .missing underived parameter⟩
    | some found =>
      cases found with
      | uint value => exact .inl ⟨value, rfl, by simp [underived]⟩
      | string text => exact .inr ⟨_, rfl, .typeMismatch underived parameter (by simp)⟩
      | boolean value => exact .inr ⟨_, rfl, .typeMismatch underived parameter (by simp)⟩

/-- Looking inputs up gives the values of all, or stops at the first that lacks one. -/
theorem inputValues_cases (parameters : ParameterSet) (rule : Rule) (names : List String)
    (bound : ∀ name ∈ names, (name ∈ outputs rules ↔ (derived.get? name).isSome)) :
    (∃ values, inputValues parameters derived rule.output names = .ok values ∧
      AreInputValues rules parameters derived names values) ∨
    ∃ before name after values e, names = before ++ name :: after ∧
      inputValues parameters derived rule.output names = .error e ∧
      AreInputValues rules parameters derived before values ∧
      LacksValue rules parameters rule name e := by
  -- Induction on the names, which are looked up from the front.
  induction names with
  | nil => exact .inl ⟨[], rfl, .nil⟩
  | cons name rest ih =>
    rcases inputValue_cases parameters rule name (bound name List.mem_cons_self) with
      ⟨value, found, isValue⟩ | ⟨e, failed, lacks⟩
    · -- The first input has a value, so the others decide.
      rcases ih fun name among => bound name (List.mem_cons_of_mem _ among) with
        ⟨values, others, areValues⟩ | ⟨before, other, after, values, e, rfl, failed, earlier, lacks⟩
      · exact .inl ⟨(name, value) :: values, by simp [inputValues, found, others],
          .cons ⟨rfl, isValue⟩ areValues⟩
      · exact .inr ⟨name :: before, other, after, (name, value) :: values, e, rfl,
          by simp [inputValues, found, failed], .cons ⟨rfl, isValue⟩ earlier, lacks⟩
    · -- The first input lacks a value, and the others are not looked up.
      exact .inr ⟨[], name, rest, [], e, rfl, by simp only [inputValues, failed], .nil, lacks⟩

/-- Each of the named inputs has a value. -/
theorem AreInputValues.exists_of_mem {names : List String} {values : List (String × UInt64)}
    (given : AreInputValues rules parameters derived names values) {name : String}
    (among : name ∈ names) : ∃ value, IsInputValue rules parameters derived name value := by
  -- Induction on the inputs, each of which brings its value.
  induction given with
  | nil => simp at among
  | @cons input entry names values head tail ih =>
    rcases List.mem_cons.1 among with rfl | later
    · exact ⟨entry.2, head.2⟩
    · exact ih later

/-- A rule that fails computes nothing from values of its inputs. -/
theorem Fails.not_computes {e : DerivationError} (fails : Fails rules parameters derived rule e)
    {values : List (String × UInt64)} {value : UInt64}
    (given : AreInputValues rules parameters derived rule.inputs values) :
    rule.compute ⟨rule.output, values⟩ ≠ .ok value := by
  -- Either an input lacks its value, or the rule refuses the values that it has.
  intro computes
  cases fails with
  | @input before after name _ _ split earlier lacks =>
    have among : name ∈ rule.inputs := by simp [split]
    obtain ⟨found, isValue⟩ := given.exists_of_mem among
    exact lacks.not_isInputValue found isValue
  -- The values that are refused are the ones given, as inputs have no others.
  | refused others refuses =>
    rw [others.unique given, computes] at refuses
    cases refuses

/-- Where the derived inputs of a rule are bound, the rule has a value or fails. -/
theorem Rule.evaluate_cases (parameters : ParameterSet)
    (bound : ∀ name ∈ rule.inputs, (name ∈ outputs rules ↔ (derived.get? name).isSome)) :
    (∃ values value, rule.evaluate parameters derived = .ok value ∧
      AreInputValues rules parameters derived rule.inputs values ∧
      rule.compute ⟨rule.output, values⟩ = .ok value) ∨
    ∃ e, rule.evaluate parameters derived = .error e ∧ Fails rules parameters derived rule e := by
  -- The inputs are looked up first, and then the rule computes.
  unfold Rule.evaluate
  rcases inputValues_cases parameters rule rule.inputs bound with
    ⟨values, found, given⟩ | ⟨before, name, after, values, e, split, failed, earlier, lacks⟩
  · simp only [found]
    cases computed : rule.compute ⟨rule.output, values⟩ with
    | ok value => exact .inl ⟨values, value, rfl, given, computed⟩
    | error e => exact .inr ⟨e, rfl, .refused given computed⟩
  · simp only [failed]
    exact .inr ⟨e, rfl, .input split earlier lacks⟩

end BoardConfig
