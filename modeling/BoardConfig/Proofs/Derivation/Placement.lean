import BoardConfig.Proofs.Derivation.Dependence

/-! Rules placed one after the other: what every step of a schedule keeps, and what is left in the end. -/

namespace BoardConfig

/-- The outputs of the rules outside an order. -/
def unplacedOutputs (rules : List Rule) (order : List Nat) : List String :=
  (rules.zipIdx.filter fun (_, position) => position ∉ order).map (·.1.output)

/-- The number of a rule's inputs that rules outside an order produce. -/
def pendingInputs (rules : List Rule) (order : List Nat) (rule : Rule) : Nat :=
  -- An input that is named twice is waited for twice.
  rule.inputs.countP (· ∈ unplacedOutputs rules order)

section

variable {rules : List Rule} {order : List Nat} {position : Nat} {rule placed : Rule}

/-- An output is unplaced as long as a rule that produces it is. -/
theorem mem_unplacedOutputs {name : String} :
    name ∈ unplacedOutputs rules order ↔
      ∃ position rule, rules[position]? = some rule ∧ rule.output = name ∧ position ∉ order := by
  -- The unplaced outputs are those of the rules whose positions are not in the order.
  simp only [unplacedOutputs, List.mem_map, List.mem_filter, Prod.exists, decide_eq_true_eq,
    List.mem_zipIdx_iff_getElem?]
  constructor
  · rintro ⟨rule, position, ⟨declared, unplaced⟩, produces⟩
    exact ⟨position, rule, declared, produces, unplaced⟩
  · rintro ⟨position, rule, declared, produces, unplaced⟩
    exact ⟨rule, position, ⟨declared, unplaced⟩, produces⟩

/-- Before any rule is placed all outputs are unplaced. -/
theorem unplacedOutputs_nil (rules : List Rule) : unplacedOutputs rules [] = outputs rules := by
  -- No position is left out, so the rules are all there.
  have all : rules.zipIdx.filter (fun (_, position) => position ∉ ([] : List Nat)) = rules.zipIdx :=
    List.filter_eq_self.2 (by simp)
  have named := congrArg (List.map Rule.output) (List.zipIdx_map_fst 0 rules)
  rw [List.map_map] at named
  rw [unplacedOutputs, all]
  exact named

/-- Rules of different outputs are told apart by them. -/
theorem eq_of_output_eq (distinct : (outputs rules).Nodup) {other : Nat}
    (first : rules[position]? = some rule) (second : rules[other]? = some placed)
    (same : rule.output = placed.output) : position = other := by
  -- The outputs stand at the positions of their rules, and each of them stands there once.
  obtain ⟨inside, rfl⟩ := List.getElem?_eq_some_iff.1 first
  obtain ⟨otherInside, rfl⟩ := List.getElem?_eq_some_iff.1 second
  have inOutputs : position < (outputs rules).length := by simpa [outputs] using inside
  have otherInOutputs : other < (outputs rules).length := by simpa [outputs] using otherInside
  have sameOutput : (outputs rules)[position] = (outputs rules)[other] := by
    simpa [outputs] using same
  exact distinct.getElem_inj_iff.1 sameOutput

/-- A rule waits for nothing once all rules that it depends on are placed. -/
theorem pendingInputs_eq_zero_iff (declared : rules[position]? = some rule) :
    pendingInputs rules order rule = 0 ↔
      ∀ producer, DependsOn rules position producer → producer ∈ order := by
  -- Each input that is counted has an unplaced producer, which the rule depends on.
  simp only [pendingInputs, List.countP_eq_zero, decide_eq_true_eq, mem_unplacedOutputs]
  constructor
  · rintro settled producer ⟨consumer, other, found, produces, consumes⟩
    rw [declared, Option.some.injEq] at found
    subst found
    by_contra unplaced
    exact settled _ consumes ⟨producer, other, produces, rfl, unplaced⟩
  · rintro settled name consumes ⟨producer, other, produces, rfl, unplaced⟩
    exact unplaced (settled producer ⟨rule, other, declared, produces, consumes⟩)

/-- A rule is available once it is the only thing that is missing. -/
theorem isAvailable_iff (declared : rules[position]? = some rule) :
    IsAvailable rules order position ↔
      position ∉ order ∧ pendingInputs rules order rule = 0 := by
  -- Available is what is declared, unplaced, and behind all of its producers.
  rw [pendingInputs_eq_zero_iff declared]
  constructor
  · intro available
    exact ⟨available.unplaced, available.producers⟩
  · rintro ⟨unplaced, producers⟩
    exact ⟨(List.getElem?_eq_some_iff.1 declared).1, unplaced, producers⟩

/-- Placing a rule settles the inputs that name its output, and no others. -/
theorem pendingInputs_append (distinct : (outputs rules).Nodup)
    (declared : rules[position]? = some placed) (unplaced : position ∉ order) (rule : Rule) :
    pendingInputs rules order rule =
      pendingInputs rules (order ++ [position]) rule + rule.inputs.count placed.output := by
  -- Another rule has another output, so only this one is settled.
  have others (name : String) : name ∈ unplacedOutputs rules order ↔
      name ∈ unplacedOutputs rules (order ++ [position]) ∨ name = placed.output := by
    simp only [mem_unplacedOutputs, List.mem_append, List.mem_singleton, not_or]
    constructor
    · rintro ⟨other, producer, found, rfl, outside⟩
      by_cases same : other = position
      · subst same
        rw [declared, Option.some.injEq] at found
        exact .inr (found ▸ rfl)
      · exact .inl ⟨other, producer, found, rfl, outside, same⟩
    · rintro (⟨other, producer, found, produces, outside, -⟩ | rfl)
      · exact ⟨other, producer, found, produces, outside⟩
      · exact ⟨position, placed, declared, rfl, unplaced⟩
  have apart : placed.output ∉ unplacedOutputs rules (order ++ [position]) := by
    rw [mem_unplacedOutputs]
    rintro ⟨other, producer, found, same, outside⟩
    exact outside (by simp [eq_of_output_eq distinct found declared same])
  unfold pendingInputs
  induction rule.inputs with
  | nil => rfl
  | cons name rest ih =>
    rw [List.countP_cons, List.countP_cons, List.count_cons, ih]
    by_cases same : name = placed.output
    · subst same
      simp [others, apart, Nat.add_assoc]
    · simp [others, same]
      omega

/-- A rule consumes an output as often as it names it. -/
theorem count_consumers (rules : List Rule) (output : String) (position : Nat) :
    (consumers rules output).count position =
      (rules[position]?.map (·.inputs.count output)).getD 0 := by
  -- Counted from any number on, the rule at a position is the one that many places behind.
  have counted (rules : List Rule) (start : Nat) :
      ((rules.zipIdx start).flatMap fun (rule, position) =>
        List.replicate (rule.inputs.count output) position).count position =
      if start ≤ position then (rules[position - start]?.map (·.inputs.count output)).getD 0
        else 0 := by
    induction rules generalizing start with
    | nil => simp
    | cons rule rest ih =>
      rw [List.zipIdx_cons, List.flatMap_cons, List.count_append, ih, List.count_replicate]
      rcases Nat.lt_trichotomy position start with before | rfl | behind
      · have different : ¬ start = position := by omega
        have outside : ¬ start ≤ position ∧ ¬ start + 1 ≤ position := by omega
        simp [different, outside.1, outside.2]
      · have outside : ¬ position + 1 ≤ position := by omega
        simp [outside]
      · have different : ¬ start = position := by omega
        have inside : start ≤ position ∧ start + 1 ≤ position := by omega
        have shifted : position - start = position - (start + 1) + 1 := by omega
        simp [different, inside.1, inside.2, shifted]
  simpa [consumers] using counted rules 0

/-- The consumers of a rule's output are the rules that depend on it. -/
theorem mem_consumers (declared : rules[position]? = some placed) {consumer : Nat} :
    consumer ∈ consumers rules placed.output ↔ DependsOn rules consumer position := by
  -- A consumer is listed as often as it names the output, so at least once.
  rw [← List.count_pos_iff, count_consumers]
  constructor
  · intro named
    cases found : rules[consumer]? with
    | none => simp [found] at named
    | some rule =>
      rw [found, Option.map_some, Option.getD_some, List.count_pos_iff] at named
      exact ⟨rule, placed, found, declared, named⟩
  · rintro ⟨rule, other, found, produces, consumes⟩
    rw [declared, Option.some.injEq] at produces
    subst produces
    simpa [found] using consumes

end

/-- A position that is put among others is there, and nothing else is new. -/
theorem mem_insertPosition {position other : Nat} {positions : List Nat} :
    other ∈ insertPosition position positions ↔ other = position ∨ other ∈ positions := by
  -- Induction on the positions before the place of the new one.
  induction positions with
  | nil => simp [insertPosition]
  | cons first rest ih =>
    simp only [insertPosition]
    split
    · simp
    · split
      · rename_i same
        subst same
        simp
      · simp only [List.mem_cons, ih]
        tauto

/-- Positions in increasing order stay so with one more. -/
theorem sorted_insertPosition {position : Nat} {positions : List Nat}
    (sorted : positions.Pairwise (· < ·)) : (insertPosition position positions).Pairwise (· < ·) := by
  -- Induction on the positions: the new one is put before the first larger one.
  induction positions with
  | nil => simp [insertPosition]
  | cons first rest ih =>
    obtain ⟨after, restSorted⟩ := List.pairwise_cons.1 sorted
    simp only [insertPosition]
    split
    · -- Before the first position, it is below all of them.
      rename_i before
      refine List.pairwise_cons.2 ⟨fun other among => ?_, sorted⟩
      rcases List.mem_cons.1 among with rfl | later
      · exact before
      · exact before.trans (after other later)
    · split
      · exact sorted
      · refine List.pairwise_cons.2 ⟨fun other among => ?_, ih restSorted⟩
        rcases mem_insertPosition.1 among with rfl | old
        · omega
        · exact after other old

namespace Schedule

variable {rules : List Rule} {schedule : Schedule} {position : Nat}

/-- Releasing rules places none. -/
@[simp]
theorem order_foldl_release (positions : List Nat) (schedule : Schedule) :
    (positions.foldl release schedule).order = schedule.order := by
  induction positions generalizing schedule with
  | nil => rfl
  | cons first rest ih => exact ih (schedule.release first)

/-- Each release of a rule takes one from the inputs that it waits for. -/
theorem getElem?_pending_foldl_release (positions : List Nat) (schedule : Schedule)
    (position : Nat) :
    (positions.foldl release schedule).pending[position]? =
      schedule.pending[position]?.map (· - positions.count position) := by
  -- Induction on the releases, of which each one takes one off at its own position.
  induction positions generalizing schedule with
  | nil => simp
  | cons first rest ih =>
    rw [List.foldl_cons, ih]
    by_cases same : first = position
    · subst same
      cases found : schedule.pending[first]? with
      | none =>
        have outside := List.getElem?_eq_none_iff.1 found
        simp [release, outside]
      | some left =>
        obtain ⟨inside, rfl⟩ := List.getElem?_eq_some_iff.1 found
        simp [release, inside, Nat.sub_sub, Nat.add_comm]
    · -- A release of another rule leaves the count alone.
      simp [release, same]

/-- Rules become ready by the release that leaves them nothing to wait for. -/
theorem mem_ready_foldl_release (positions : List Nat) (schedule : Schedule) (position : Nat) :
    position ∈ (positions.foldl release schedule).ready ↔
      position ∈ schedule.ready ∨ (position ∈ positions ∧
        (schedule.pending[position]?).getD 0 - positions.count position = 0) := by
  -- Induction on the releases: a rule enters with the one that brings its count to zero.
  induction positions generalizing schedule with
  | nil => simp
  | cons first rest ih =>
    have pending := getElem?_pending_foldl_release [first] schedule position
    simp only [List.foldl_cons, List.foldl_nil] at pending
    rw [List.foldl_cons, ih, pending]
    -- The first release puts a rule among the ready ones if it was its last.
    have ready : position ∈ (schedule.release first).ready ↔ position ∈ schedule.ready ∨
        (position = first ∧ (schedule.pending[first]?).getD 0 - 1 = 0) := by
      simp only [release]
      split
      · rename_i last
        rw [mem_insertPosition]
        tauto
      · rename_i more
        tauto
    have left : ((schedule.pending[position]?.map (· - [first].count position)).getD 0) =
        (schedule.pending[position]?).getD 0 - [first].count position := by
      cases schedule.pending[position]? <;> simp
    rw [ready, left]
    by_cases same : first = position
    · -- The rule is ready after this release, or after a later one of the same rule.
      subst same
      have one : [first].count first = 1 := by simp
      rw [one, List.count_cons_self]
      by_cases later : first ∈ rest
      · have settled : (schedule.pending[first]?).getD 0 - 1 = 0 →
            (schedule.pending[first]?).getD 0 - 1 - rest.count first = 0 := by omega
        simp only [later, List.mem_cons, true_and, or_true, Nat.sub_sub, Nat.add_comm] at settled ⊢
        tauto
      · simp [later, List.count_eq_zero_of_not_mem later]
    · simp [same, Ne.symm same]

/-- Rules that become ready are put where they belong. -/
theorem sorted_foldl_release (positions : List Nat) {schedule : Schedule}
    (sorted : schedule.ready.Pairwise (· < ·)) :
    (positions.foldl release schedule).ready.Pairwise (· < ·) := by
  -- Each release leaves the ready rules alone or puts one where it belongs.
  induction positions generalizing schedule with
  | nil => exact sorted
  | cons first rest ih =>
    refine ih ?_
    simp only [release]
    split
    · exact sorted_insertPosition sorted
    · exact sorted

/-- What holds of a schedule before and after every step. -/
structure Invariant (rules : List Rule) (schedule : Schedule) : Prop where
  /-- Each rule waits for its inputs that are not produced yet. -/
  pending : schedule.pending = rules.map (pendingInputs rules schedule.order)
  /-- Ready rules stand in declared order. -/
  sorted : schedule.ready.Pairwise (· < ·)
  /-- The ready rules are those that are available. -/
  ready : ∀ position, position ∈ schedule.ready ↔ IsAvailable rules schedule.order position
  /-- Each rule placed so far was the next one. -/
  greedy : IsGreedy rules schedule.order

/-- The invariant holds before any rule is placed. -/
theorem invariant_start (rules : List Rule) : Invariant rules (start rules) where
  pending := by simp [start, pendingInputs, unplacedOutputs_nil]
  sorted := List.pairwise_lt_range.sublist List.filter_sublist
  ready position := by
    -- A rule is ready at first if it names no output, for none is produced yet.
    cases declared : rules[position]? with
    | none =>
      have outside : rules.length ≤ position := List.getElem?_eq_none_iff.1 declared
      constructor
      · intro ready
        have inside := List.mem_range.1 (List.mem_filter.1 ready).1
        omega
      · intro available
        have inside := available.declared
        omega
    | some rule =>
      rw [isAvailable_iff declared]
      obtain ⟨inside, rfl⟩ := List.getElem?_eq_some_iff.1 declared
      simp [start, inside, pendingInputs, unplacedOutputs_nil]
  greedy := .nil

namespace Invariant

/-- The first ready rule comes next. -/
theorem isNext (inv : Invariant rules schedule) {ready : List Nat}
    (first : schedule.ready = position :: ready) : IsNext rules schedule.order position where
  available := (inv.ready position).1 (by simp [first])
  least other available := by
    -- The ready rules stand in increasing order, and everything available is among them.
    have sorted := inv.sorted
    have among := (inv.ready other).2 available
    rw [first] at sorted among
    rcases List.mem_cons.1 among with rfl | later
    · exact Nat.le_refl _
    · exact Nat.le_of_lt ((List.pairwise_cons.1 sorted).1 other later)

/-- Before a rule is placed, each rule waits for its output and for what is not produced then either. -/
theorem pending_before_release (distinct : (outputs rules).Nodup) (inv : Invariant rules schedule)
    {rule : Rule} (declared : rules[position]? = some rule) (unplaced : position ∉ schedule.order)
    {other : Nat} {consumer : Rule} (found : rules[other]? = some consumer) :
    schedule.pending[other]? = some (pendingInputs rules (schedule.order ++ [position]) consumer +
      (consumers rules rule.output).count other) := by
  -- Placing a rule produces its output, which each consumer counts as often as it names it.
  have before := pendingInputs_append distinct declared unplaced consumer
  simp only [inv.pending, List.getElem?_map, found, count_consumers, Option.map_some,
    Option.getD_some, before]

/-- Releasing the consumers of a placed rule leaves them the inputs that it has not produced. -/
theorem pending_release (distinct : (outputs rules).Nodup) (inv : Invariant rules schedule)
    {rule : Rule} (declared : rules[position]? = some rule) (unplaced : position ∉ schedule.order)
    {other : Nat} {consumer : Rule} (found : rules[other]? = some consumer) :
    (schedule.pending[other]?).getD 0 - (consumers rules rule.output).count other =
      pendingInputs rules (schedule.order ++ [position]) consumer := by
  -- What the releases take off is what was counted for the placed rule's output.
  rw [inv.pending_before_release distinct declared unplaced found, Option.getD_some,
    Nat.add_sub_cancel]

/-- A rule is placed neither before the next one, which it depends on, nor as that one itself. -/
theorem unplaced_of_dependsOn (inv : Invariant rules schedule)
    (next : IsNext rules schedule.order position) {other : Nat}
    (depends : DependsOn rules other position) : other ∉ schedule.order ++ [position] := by
  -- A rule behind the next one cannot have come before it.
  simp only [List.mem_append, List.mem_singleton, not_or]
  constructor
  · intro earlier
    obtain ⟨before, after, split⟩ := List.append_of_mem earlier
    have produced := inv.greedy.producersFirst before other after split position depends
    exact next.available.unplaced (by simp [split, produced])
  · -- A rule that depends on itself waits for itself.
    rintro rfl
    exact next.available.unplaced (next.available.producers other depends)

/-- Once a ready rule is placed, the others that are ready and some that depend on it are available. -/
theorem ready_release (distinct : (outputs rules).Nodup) (inv : Invariant rules schedule)
    {ready : List Nat} (first : schedule.ready = position :: ready) {rule : Rule}
    (declared : rules[position]? = some rule) (other : Nat) :
    other ∈ ready ∨ (DependsOn rules other position ∧
        (schedule.pending[other]?).getD 0 - (consumers rules rule.output).count other = 0) ↔
      IsAvailable rules (schedule.order ++ [position]) other := by
  -- A rule becomes available with the placed one only if it depended on it.
  have next := inv.isNext first
  have unplaced := next.available.unplaced
  constructor
  · rintro (old | ⟨depends, settled⟩)
    · -- A rule that was ready before is not the one just placed.
      have available := (inv.ready other).1 (first ▸ List.mem_cons_of_mem position old)
      have sorted : (position :: ready).Pairwise (· < ·) := first ▸ inv.sorted
      have different : position < other := (List.pairwise_cons.1 sorted).1 other old
      refine ⟨available.declared, ?_, fun producer depends => ?_⟩
      · simp only [List.mem_append, List.mem_singleton, not_or]
        exact ⟨available.unplaced, by omega⟩
      · exact List.mem_append_left _ (available.producers producer depends)
    · -- A rule that depends on the placed one is available once its count is zero.
      obtain ⟨consumer, _, found, _, _⟩ := id depends
      rw [inv.pending_release distinct declared unplaced found] at settled
      exact (isAvailable_iff found).2 ⟨inv.unplaced_of_dependsOn next depends, settled⟩
  · intro available
    have outside := available.unplaced
    simp only [List.mem_append, List.mem_singleton, not_or] at outside
    by_cases depends : DependsOn rules other position
    · obtain ⟨consumer, _, found, _, _⟩ := id depends
      refine .inr ⟨depends, ?_⟩
      rw [inv.pending_release distinct declared unplaced found]
      exact ((isAvailable_iff found).1 available).2
    · -- Without the placed rule the others were available before.
      have before : IsAvailable rules schedule.order other := by
        refine ⟨available.declared, outside.1, fun producer needed => ?_⟩
        rcases List.mem_append.1 (available.producers producer needed) with old | new
        · exact old
        · rw [List.mem_singleton.1 new] at needed
          exact absurd needed depends
      have among := (inv.ready other).2 before
      rw [first] at among
      exact .inl ((List.mem_cons.1 among).resolve_left outside.2)

/-- Placing the first ready rule and releasing the consumers of its output keeps the invariant. -/
theorem step (distinct : (outputs rules).Nodup) (inv : Invariant rules schedule) :
    Invariant rules (schedule.step rules) := by
  -- Without a ready rule nothing changes; otherwise the four parts of the invariant are kept.
  cases first : schedule.ready with
  | nil => simpa [Schedule.step, first] using inv
  | cons position ready =>
    have next := inv.isNext first
    have unplaced := next.available.unplaced
    obtain ⟨rule, declared⟩ : ∃ rule, rules[position]? = some rule :=
      ⟨_, List.getElem?_eq_getElem next.available.declared⟩
    let placed : Schedule := { schedule with ready, order := schedule.order ++ [position] }
    have stepped : schedule.step rules = (consumers rules rule.output).foldl release placed := by
      simp [Schedule.step, first, declared, placed]
    rw [stepped]
    constructor
    · -- The counts are those of the inputs that are still unproduced.
      apply List.ext_getElem?
      intro other
      rw [getElem?_pending_foldl_release, order_foldl_release, List.getElem?_map]
      cases found : rules[other]? with
      | none => simp [placed, inv.pending, found]
      | some consumer =>
        have settled := inv.pending_release distinct declared unplaced found
        simp only [placed, inv.pending, List.getElem?_map, found, Option.map_some,
          Option.getD_some] at settled ⊢
        rw [settled]
    · -- What is released is put in order among the rest.
      have sorted : (position :: ready).Pairwise (· < ·) := first ▸ inv.sorted
      exact sorted_foldl_release _ (List.pairwise_cons.1 sorted).2
    · intro other
      rw [mem_ready_foldl_release, order_foldl_release, mem_consumers declared]
      exact inv.ready_release distinct first declared other
    · -- Releasing places nothing, and the rule that was placed came next.
      rw [order_foldl_release]
      exact inv.greedy.append_singleton next

/-- Any number of steps keeps the invariant. -/
theorem run (distinct : (outputs rules).Nodup) (steps : Nat) (inv : Invariant rules schedule) :
    Invariant rules (Schedule.run rules steps schedule) := by
  -- Induction on the steps, each of which keeps the invariant.
  induction steps generalizing schedule with
  | zero => exact inv
  | succ steps ih => exact ih (inv.step distinct)

end Invariant

/-- A step places one rule, as long as one is ready. -/
theorem length_order_step {ready : List Nat} (first : schedule.ready = position :: ready) :
    (schedule.step rules).order.length = schedule.order.length + 1 := by
  -- The ready rule is put at the end, and releases place nothing.
  simp only [step, first]
  split <;> simp

/-- Without a ready rule all further steps do nothing. -/
theorem run_of_ready_nil (done : schedule.ready = []) (steps : Nat) :
    run rules steps schedule = schedule := by
  -- Without a ready rule a step changes nothing, so no number of steps does.
  have still : schedule.step rules = schedule := by simp [step, done]
  induction steps with
  | zero => rfl
  | succ steps ih => rw [run, still, ih]

/-- Steps place one rule each, until none is ready. -/
theorem run_progress (rules : List Rule) (steps : Nat) (schedule : Schedule) :
    (run rules steps schedule).ready = [] ∨
      (run rules steps schedule).order.length = schedule.order.length + steps := by
  -- Induction on the steps, of which each places a rule or finds none ready.
  induction steps generalizing schedule with
  | zero => exact .inr rfl
  | succ steps ih =>
    cases first : schedule.ready with
    -- Once none is ready, the other steps do nothing.
    | nil =>
      rw [run_of_ready_nil first]
      exact .inl first
    | cons position ready =>
      rcases ih (schedule.step rules) with done | placed
      · exact .inl done
      · rw [length_order_step first] at placed
        exact .inr (by rw [run, placed]; omega)

/-- The schedule after as many steps as there are rules. -/
def final (rules : List Rule) : Schedule :=
  run rules rules.length (start rules)

/-- The invariant holds in the end. -/
theorem invariant_final (distinct : (outputs rules).Nodup) : Invariant rules (final rules) :=
  -- The final schedule is that of as many steps as there are rules.
  (invariant_start rules).run distinct rules.length

/-- In the end no rule is ready. -/
theorem ready_final (distinct : (outputs rules).Nodup) : (final rules).ready = [] := by
  -- As many steps as rules leave none that could be ready.
  have inv := invariant_final distinct
  rcases run_progress rules rules.length (start rules) with done | placed
  · exact done
  · -- All rules are placed, and a ready one would be one more.
    have full : (final rules).order.length = rules.length := by simpa [final, start] using placed
    refine List.eq_nil_iff_forall_not_mem.2 fun position ready => ?_
    have available := (inv.ready position).1 ready
    exact available.unplaced ((inv.greedy.perm full).mem_iff.2 (List.mem_range.2 available.declared))

/-- In the end the rules outside the order are the stuck ones. -/
theorem mem_final_iff (distinct : (outputs rules).Nodup) (declared : position < rules.length) :
    position ∈ (final rules).order ↔ ¬ IsStuck rules position := by
  -- A stuck rule waits for another one forever, and a rule that waits forever is stuck.
  have inv := invariant_final distinct
  constructor
  · intro placed
    exact inv.greedy.producersFirst.not_isStuck placed
  · intro free
    by_contra unplaced
    -- A rule outside the order is not available, so it depends on another one outside.
    refine free (isStuck_of_blocked (fun rule => rule < rules.length ∧ rule ∉ (final rules).order)
      (fun rule blocked => blocked.1) (fun rule blocked => ?_) ⟨declared, unplaced⟩)
    by_contra settled
    have available : IsAvailable rules (final rules).order rule := by
      refine ⟨blocked.1, blocked.2, fun producer depends => ?_⟩
      by_contra outside
      exact settled ⟨producer, depends, depends.declared, outside⟩
    have ready := (inv.ready rule).2 available
    simp [ready_final distinct] at ready

/-- In the end the rules that still wait for an input are the stuck ones. -/
theorem pending_final_pos_iff (distinct : (outputs rules).Nodup)
    (declared : position < rules.length) :
    0 < ((final rules).pending[position]?).getD 0 ↔ IsStuck rules position := by
  -- The count is that of the inputs whose producers are not in the final order.
  have inv := invariant_final distinct
  have found := List.getElem?_eq_getElem declared
  have pending : ((final rules).pending[position]?).getD 0 =
      pendingInputs rules (final rules).order rules[position] := by
    simp [inv.pending, found]
  rw [pending, ← not_iff_not, Nat.not_lt, Nat.le_zero, ← mem_final_iff distinct declared]
  constructor
  · -- A rule that waits for nothing would be ready in the end, which none is.
    intro settled
    by_contra unplaced
    have ready := (inv.ready position).2 ((isAvailable_iff found).2 ⟨unplaced, settled⟩)
    simp [ready_final distinct] at ready
  · -- A placed rule came behind all of its producers.
    intro placed
    obtain ⟨before, after, split⟩ := List.append_of_mem placed
    refine (pendingInputs_eq_zero_iff found).2 fun producer depends => ?_
    have produced := inv.greedy.producersFirst before position after split producer depends
    simp [split, produced]

end Schedule

end BoardConfig
