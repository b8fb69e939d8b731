import BoardConfig.Derivation.Schedule

/-! Evaluating every rule once. -/

namespace BoardConfig

/-- The value of a rule's input: the derived value of that name, else the parameter. -/
def inputValue (parameters : ParameterSet) (derived : DerivedValues) (rule name : String) :
    Except DerivationError UInt64 :=
  match derived.get? name with
  | some value => .ok value
  -- A derived value hides a parameter of the same name.
  | none =>
    match parameters.get? name with
    | some (.uint value) => .ok value
    -- Only integers can be computed with.
    | some other => .error (.typeMismatch rule name other.typeName)
    | none => .error (.missing rule name)

/-- The values of a rule's inputs in declared order, or the error of the first that has none. -/
def inputValues (parameters : ParameterSet) (derived : DerivedValues) (rule : String) :
    List String → Except DerivationError (List (String × UInt64))
  | [] => .ok []
  | name :: rest =>
    match inputValue parameters derived rule name with
    | .error e => .error e
    | .ok value =>
      match inputValues parameters derived rule rest with
      | .error e => .error e
      | .ok values => .ok ((name, value) :: values)

/-- The output of a rule over parameters and the values derived so far. -/
def Rule.evaluate (rule : Rule) (parameters : ParameterSet) (derived : DerivedValues) :
    Except DerivationError UInt64 :=
  match inputValues parameters derived rule.output rule.inputs with
  | .error e => .error e
  | .ok values => rule.compute ⟨rule.output, values⟩

/-- Adds the outputs of rules, evaluated one after the other, to derived values. -/
def evaluateInOrder (parameters : ParameterSet) :
    List Rule → DerivedValues → Except DerivationError DerivedValues
  | [], derived => .ok derived
  | rule :: rest, derived =>
    match rule.evaluate parameters derived with
    | .error e => .error e
    | .ok value => evaluateInOrder parameters rest (derived.insert rule.output value)

/-- Evaluates every rule once, in dependency order. -/
def evaluate (rules : List Rule) (parameters : ParameterSet) :
    Except DerivationError DerivedValues :=
  match evaluationOrder rules with
  -- Without an order no rule is evaluated.
  | .error e => .error e
  | .ok order =>
    evaluateInOrder parameters (order.filterMap fun position => rules[position]?) .empty

end BoardConfig
