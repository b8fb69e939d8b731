import BoardConfig.Proofs.Derivation.MemoryEnd

/-! Whatever the rules of every board profile derive fits in an address. -/

namespace BoardConfig

/-- A computation that gives a result has one for each of its steps. -/
theorem ok_of_bind {ε α β : Type} {first : Except ε α} {next : α → Except ε β} {result : β}
    (computed : first >>= next = .ok result) : ∃ value, first = .ok value ∧ next value = .ok result := by
  -- An error of the first step is the result of both.
  cases first with
  | error e => cases computed
  | ok value => exact ⟨value, rfl, computed⟩

/-- A rule that derives nothing but values that fit in an address. -/
def Rule.FitsAddress (rule : Rule) : Prop :=
  ∀ inputs value, rule.compute inputs = .ok value → value.toNat < 2 ^ addressBits

namespace RuleInputs

/-- A power of two is checked to fit in an address. -/
theorem powerOfTwo_lt {inputs : RuleInputs} {exponent value : UInt64}
    (computed : inputs.powerOfTwo exponent = .ok value) : value.toNat < 2 ^ addressBits := by
  -- The power is exact, and its exponent was compared with the width of an address.
  have exact := powerOfTwo_ok computed
  unfold powerOfTwo at computed
  split at computed
  · rename_i small
    rw [exact]
    exact Nat.pow_lt_pow_right (by decide) small
  · cases computed

/-- A product is checked to fit in an address. -/
theorem fitAddress_lt {inputs : RuleInputs} {given : Option UInt64} {value : UInt64}
    (computed : inputs.fitAddress given = .ok value) : value.toNat < 2 ^ addressBits := by
  -- The number itself was compared, unless there was none.
  unfold fitAddress at computed
  split at computed
  · split at computed <;> cases computed
    assumption
  · cases computed

end RuleInputs

/-- The rules of every board profile derive values that fit in an address. -/
theorem standardRules_fitAddress : ∀ rule ∈ standardRules, rule.FitsAddress := by
  intro rule among inputs value computed
  simp only [standardRules, List.mem_cons, List.not_mem_nil, or_false] at among
  -- Each of the four rules ends with one of the two checks.
  rcases among with rfl | rfl | rfl | rfl
  · -- The two powers of two have their exponents checked.
    obtain ⟨mode, _, computed⟩ := ok_of_bind computed
    dsimp only at computed
    split at computed
    · cases computed
    · exact RuleInputs.powerOfTwo_lt computed
  · obtain ⟨width, _, computed⟩ := ok_of_bind computed
    obtain ⟨mode, _, computed⟩ := ok_of_bind computed
    split at computed
    · exact RuleInputs.powerOfTwo_lt computed
    · cases computed
  · -- The two products are checked once they are computed.
    obtain ⟨column, _, computed⟩ := ok_of_bind computed
    obtain ⟨entries, _, fitted⟩ := ok_of_bind computed
    exact RuleInputs.fitAddress_lt fitted
  · obtain ⟨line, _, computed⟩ := ok_of_bind computed
    obtain ⟨index, _, computed⟩ := ok_of_bind computed
    obtain ⟨lines, _, fitted⟩ := ok_of_bind computed
    exact RuleInputs.fitAddress_lt fitted

/-- Values that all fit in an address. -/
def DerivedValues.FitAddress (derived : DerivedValues) : Prop :=
  ∀ name value, derived.get? name = some value → value.toNat < 2 ^ addressBits

/-- Evaluating rules that fit in an address keeps all values within it. -/
theorem evaluateInOrder_fitAddress {parameters : ParameterSet} {rules : List Rule}
    {derived final : DerivedValues} (fits : ∀ rule ∈ rules, rule.FitsAddress)
    (before : derived.FitAddress) (evaluated : evaluateInOrder parameters rules derived = .ok final) :
    final.FitAddress := by
  -- Each rule adds one value, which is its own.
  induction rules generalizing derived with
  | nil =>
    cases evaluated
    exact before
  | cons rule rest ih =>
    obtain ⟨value, given, later⟩ := evaluateInOrder_cons_ok evaluated
    refine ih (fun other among => fits other (List.mem_cons_of_mem _ among)) ?_ later
    intro name found bound
    rw [SortedMap.get?_insert] at bound
    split at bound
    · cases bound
      unfold Rule.evaluate at given
      split at given
      · cases given
      · exact fits rule List.mem_cons_self _ _ given
    · exact before name found bound

/-- Rules that fit in an address derive values that do. -/
theorem evaluate_fitAddress {rules : List Rule} {parameters : ParameterSet} {derived : DerivedValues}
    (fits : ∀ rule ∈ rules, rule.FitsAddress) (evaluated : evaluate rules parameters = .ok derived) :
    derived.FitAddress := by
  -- The values are derived along the order, starting from none.
  unfold evaluate at evaluated
  split at evaluated
  · cases evaluated
  · refine evaluateInOrder_fitAddress (fun rule among => ?_) (fun name value bound => ?_) evaluated
    · -- The order brings no other rules.
      obtain ⟨position, _, stands⟩ := List.mem_filterMap.1 among
      exact fits rule (List.mem_of_getElem? stands)
    · simp at bound

end BoardConfig
