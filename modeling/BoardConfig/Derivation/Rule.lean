import BoardConfig.ParameterSet

/-! Rules that compute one derived value each from parameters and other derived values. -/

namespace BoardConfig

/-- Why derived values cannot be computed. -/
inductive DerivationError
  /-- Rules depend on one another; their outputs, with those of rules that depend on them. -/
  | cycle (outputs : List String)
  /-- A rule's input is neither derived nor a parameter. -/
  | missing (rule name : String)
  /-- A rule's input is a parameter that is no integer. -/
  | typeMismatch (rule name found : String)
  /-- A rule refuses its inputs. -/
  | domain (rule detail : String)
  /-- Two rules have one output. -/
  | duplicate (name : String)
  deriving DecidableEq, Repr

/-- The wording of a derivation error. -/
def DerivationError.message : DerivationError → String
  | .cycle outputs => "derivation cycle among rules: " ++ ", ".intercalate outputs
  | .missing rule name => s!"rule {rule} requires {name}, which is missing from the profile"
  | .typeMismatch rule name found =>
    s!"rule {rule}: input {name} has type {found}, expected an unsigned integer"
  | .domain rule detail => s!"rule {rule}: {detail}"
  | .duplicate name => s!"derived value {name} is produced by more than one rule"

/-- The width of an address, which address-like derived values must fit. -/
def addressBits : Nat := 32

/-- The values of a rule's inputs. -/
structure RuleInputs where
  /-- The output of the rule, for messages. -/
  rule : String
  /-- The inputs with their values, in declared order. -/
  values : List (String × UInt64)
  deriving DecidableEq, Repr

namespace RuleInputs

/-- The value of a declared input. -/
def get (inputs : RuleInputs) (name : String) : Except DerivationError UInt64 :=
  match findEntry name inputs.values with
  | some value => .ok value
  | none => .error (.missing inputs.rule name)

/-- The refusal of these inputs. -/
def refuse (inputs : RuleInputs) (detail : String) : DerivationError :=
  .domain inputs.rule detail

/-- Two to an exponent, which must fit in an address. -/
def powerOfTwo (inputs : RuleInputs) (exponent : UInt64) : Except DerivationError UInt64 :=
  if exponent.toNat < addressBits then .ok (UInt64.ofNat (Nat.pow 2 exponent.toNat))
  else
    .error (inputs.refuse s!"2^{exponent.toNat} does not fit in a {addressBits}-bit address")

end RuleInputs

/-- One rule: a name for its output, the names it consumes, and how it computes. -/
structure Rule where
  /-- The name of the derived value. -/
  output : String
  /-- The parameters and derived values consumed, possibly with repetitions. -/
  inputs : List String
  /-- The derived value as a function of the inputs alone. -/
  compute : RuleInputs → Except DerivationError UInt64

/-- The derived values of one evaluation, by name. -/
abbrev DerivedValues := SortedMap UInt64

end BoardConfig
