import BoardConfig.Derivation.Rule
import BoardConfig.NameOrder

/-! The order in which rules are evaluated: each after the rules whose outputs it consumes. -/

namespace BoardConfig

/-- The outputs of rules, in declared order. -/
def outputs (rules : List Rule) : List String :=
  rules.map (·.output)

/-- The first output that an earlier rule has already. -/
def repeatedOutput? : List String → List String → Option String
  | _, [] => none
  | earlier, output :: rest =>
    if output ∈ earlier then some output else repeatedOutput? (output :: earlier) rest

/-- The rules that consume an output, by position, each as often as it names that output. -/
def consumers (rules : List Rule) (output : String) : List Nat :=
  rules.zipIdx.flatMap fun (rule, position) => List.replicate (rule.inputs.count output) position

/-- Puts a position among increasing positions, unless it is there. -/
def insertPosition (position : Nat) : List Nat → List Nat
  | [] => [position]
  | other :: rest =>
    -- The list stays in increasing order.
    if position < other then position :: other :: rest
    else if position = other then other :: rest
    else other :: insertPosition position rest

/-- Rules on their way into an order; rules are named by their position in the declaration. -/
structure Schedule where
  /-- For each rule, the number of its inputs that rules outside the order produce. -/
  pending : List Nat
  /-- The rules outside the order that wait for no other, in increasing order. -/
  ready : List Nat
  /-- The rules placed so far, first to last. -/
  order : List Nat
  deriving DecidableEq, Repr

namespace Schedule

/-- No rule is placed, and those without produced inputs are ready. -/
def start (rules : List Rule) : Schedule :=
  -- Parameters are there from the beginning, so only derived inputs are waited for.
  let pending := rules.map fun rule => rule.inputs.countP (· ∈ outputs rules)
  { pending
    ready := (List.range rules.length).filter fun position => pending[position]? = some 0
    order := [] }

/-- One input of a rule has been produced; the rule is ready once that was the last. -/
def release (schedule : Schedule) (position : Nat) : Schedule :=
  -- An input that is named twice is also produced twice.
  let left := (schedule.pending[position]?).getD 0 - 1
  { schedule with
    pending := schedule.pending.set position left
    ready := if left = 0 then insertPosition position schedule.ready else schedule.ready }

/-- Places the first ready rule and releases the rules that consume its output. -/
def step (rules : List Rule) (schedule : Schedule) : Schedule :=
  match schedule.ready with
  -- Nothing is ready, at the end or in a cycle.
  | [] => schedule
  | position :: ready =>
    let placed := { schedule with ready, order := schedule.order ++ [position] }
    match rules[position]? with
    | some rule => (consumers rules rule.output).foldl release placed
    | none => placed

/-- The schedule after a number of steps. -/
def run (rules : List Rule) : Nat → Schedule → Schedule
  | 0, schedule => schedule
  | steps + 1, schedule => run rules steps (step rules schedule)

end Schedule

/-- The positions of rules in dependency order, where of several ready rules the first declared goes first. -/
def evaluationOrder (rules : List Rule) : Except DerivationError (List Nat) :=
  match repeatedOutput? [] (outputs rules) with
  | some name => .error (.duplicate name)
  | none =>
    -- Each step places one rule, so there are as many steps as rules.
    let final := Schedule.run rules rules.length (Schedule.start rules)
    if final.order.length < rules.length then
      -- Rules that still wait are on a cycle or behind one.
      let stuck := rules.zipIdx.filter fun (_, position) => 0 < (final.pending[position]?).getD 0
      .error (.cycle (sortNames (outputs (stuck.map (·.1)))))
    else .ok final.order

end BoardConfig
