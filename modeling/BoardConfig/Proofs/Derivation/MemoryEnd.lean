import BoardConfig.Derivation.Standard
import BoardConfig.SortedMap.Lookup
import Mathlib.Algebra.Group.Nat.Defs

/-! The end of memory is two to the power of the address width and the addressing mode. -/

namespace BoardConfig

/-- The rules shared by every profile are evaluated in declared order. -/
theorem evaluationOrder_standardRules : evaluationOrder standardRules = .ok [0, 1, 2, 3] := by
  rfl

/-- Evaluating rules in order gives the first one its value and then goes on with the others. -/
theorem evaluateInOrder_cons_ok {parameters : ParameterSet} {rule : Rule} {rest : List Rule}
    {derived final : DerivedValues}
    (evaluated : evaluateInOrder parameters (rule :: rest) derived = .ok final) :
    ∃ value, rule.evaluate parameters derived = .ok value ∧
      evaluateInOrder parameters rest (derived.insert rule.output value) = .ok final := by
  -- A rule that fails ends the evaluation.
  simp only [evaluateInOrder] at evaluated
  split at evaluated
  · cases evaluated
  · rename_i value given
    exact ⟨value, given, evaluated⟩

/-- Rules leave the values of all other names alone. -/
theorem get?_evaluateInOrder {parameters : ParameterSet} {rules : List Rule}
    {derived final : DerivedValues}
    (evaluated : evaluateInOrder parameters rules derived = .ok final) {name : String}
    (other : name ∉ outputs rules) : final.get? name = derived.get? name := by
  -- Each rule binds its own output, which is another name.
  induction rules generalizing derived with
  | nil =>
    cases evaluated
    rfl
  | cons rule rest ih =>
    simp only [outputs, List.map_cons, List.mem_cons, not_or] at other
    obtain ⟨value, _, later⟩ := evaluateInOrder_cons_ok evaluated
    rw [ih later other.2, SortedMap.get?_insert, if_neg other.1]

/-- A parameter that no rule derives is an input with the parameter's value. -/
theorem inputValue_ok {parameters : ParameterSet} {derived : DerivedValues} {rule name : String}
    {value : UInt64} (given : inputValue parameters derived rule name = .ok value)
    (underived : derived.get? name = none) : parameters.get? name = some (.uint value) := by
  -- A name that is not derived is looked up among the parameters.
  unfold inputValue at given
  rw [underived] at given
  simp only at given
  split at given <;> cases given
  assumption

/-- A power of two that fits in an address is exact. -/
theorem RuleInputs.powerOfTwo_ok {inputs : RuleInputs} {exponent value : UInt64}
    (computed : inputs.powerOfTwo exponent = .ok value) : value.toNat = 2 ^ exponent.toNat := by
  -- The exponent is below the width of an address, so the power fits in a word.
  unfold powerOfTwo at computed
  split at computed <;> cases computed
  rename_i small
  have fits : 2 ^ exponent.toNat < 2 ^ 64 := Nat.pow_lt_pow_right (by omega) (by
    unfold addressBits at small
    omega)
  exact UInt64.toNat_ofNat_of_lt' fits

/-- A sum of words that does not overflow is exact. -/
theorem checkedAdd_ok {a b sum : UInt64} (computed : checkedAdd a b = some sum) :
    sum.toNat = a.toNat + b.toNat := by
  -- The sum was compared with the size of a word.
  unfold checkedAdd at computed
  split at computed <;> cases computed
  rename_i small
  rw [UInt64.toNat_add, Nat.mod_eq_of_lt small]

/-- The rule of the end of memory raises two to the sum of its inputs. -/
theorem memoryEndAddress_ok {rule : String} {width mode value : UInt64}
    (computed : memoryEndAddress
      ⟨rule, [("RAM_ADDRESS_BITWIDTH", width), ("RAM_ADDRESSING_MODE", mode)]⟩ = .ok value) :
    value.toNat = 2 ^ (width.toNat + mode.toNat) := by
  -- Both inputs are found by name, and neither the sum nor the power loses anything.
  simp [memoryEndAddress, RuleInputs.get, findEntry, Bind.bind, Except.bind] at computed
  split at computed
  · rename_i exponent sum
    rw [RuleInputs.powerOfTwo_ok computed, checkedAdd_ok sum]
  · cases computed

/-- A rule of two parameters is evaluated over the values of both. -/
theorem evaluate_two_ok {parameters : ParameterSet} {derived : DerivedValues} {rule : Rule}
    {first second : String} {value : UInt64} (inputs : rule.inputs = [first, second])
    (evaluated : rule.evaluate parameters derived = .ok value)
    (firstUnderived : derived.get? first = none) (secondUnderived : derived.get? second = none) :
    ∃ a b, parameters.get? first = some (.uint a) ∧ parameters.get? second = some (.uint b) ∧
      rule.compute ⟨rule.output, [(first, a), (second, b)]⟩ = .ok value := by
  -- The rule is computed only after both of its inputs were found.
  unfold Rule.evaluate at evaluated
  rw [inputs] at evaluated
  simp only [inputValues] at evaluated
  cases a : inputValue parameters derived rule.output first with
  | error e => simp [a] at evaluated
  | ok a' =>
    cases b : inputValue parameters derived rule.output second with
    | error e => simp [a, b] at evaluated
    | ok b' =>
      simp only [a, b] at evaluated
      exact ⟨a', b', inputValue_ok a firstUnderived, inputValue_ok b secondUnderived, evaluated⟩

/-- The derived end of memory is two to the power of the address width and the addressing mode. -/
theorem evaluate_memoryEnd {parameters : ParameterSet} {derived : DerivedValues}
    (evaluated : evaluate standardRules parameters = .ok derived) :
    ∃ width mode value, parameters.get? "RAM_ADDRESS_BITWIDTH" = some (.uint width) ∧
      parameters.get? "RAM_ADDRESSING_MODE" = some (.uint mode) ∧
      derived.get? "memory_end_address" = some value ∧
      value.toNat = 2 ^ (width.toNat + mode.toNat) := by
  -- The end of memory is derived second, so evaluation is followed up to there.
  have inOrder : evaluateInOrder parameters standardRules .empty = .ok derived := by
    unfold evaluate at evaluated
    rw [evaluationOrder_standardRules] at evaluated
    exact evaluated
  -- The first rule derives another name, and the second one is the rule in question.
  obtain ⟨word, _, afterWord⟩ := evaluateInOrder_cons_ok inOrder
  obtain ⟨value, computed, afterEnd⟩ := evaluateInOrder_cons_ok afterWord
  obtain ⟨width, mode, widthBound, modeBound, computes⟩ := evaluate_two_ok rfl computed
    (by rw [SortedMap.get?_insert]; rfl) (by rw [SortedMap.get?_insert]; rfl)
  refine ⟨width, mode, value, widthBound, modeBound, ?_, memoryEndAddress_ok computes⟩
  -- The rules behind it derive other names and leave the value alone.
  rw [get?_evaluateInOrder afterEnd (by decide), SortedMap.get?_insert]
  rfl

end BoardConfig
