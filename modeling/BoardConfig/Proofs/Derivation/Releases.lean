import BoardConfig.Proofs.Derivation.Order

/-!
The releases of a run, one by one: each finds a rule that still waits, and each rule becomes ready once.
-/

namespace BoardConfig

namespace Schedule

/-- The first ready rule is placed, and no rule is released yet. -/
def place (schedule : Schedule) : Schedule :=
  match schedule.ready with
  | [] => schedule
  | position :: ready => { schedule with ready, order := schedule.order ++ [position] }

/-- The rules that consume the output of the first ready rule, each as often as it names it. -/
def awaiting (rules : List Rule) (schedule : Schedule) : List Nat :=
  match schedule.ready with
  | [] => []
  | position :: _ => ((rules[position]?).map (consumers rules ·.output)).getD []

/-- Rules released one after the other, each with the schedule that its release finds. -/
def releases : Schedule → List Nat → List (Schedule × Nat)
  | _, [] => []
  | schedule, position :: rest =>
    (schedule, position) :: releases (schedule.release position) rest

/-- The releases in a number of steps from the start, first to last. -/
def releasesOfRun (rules : List Rule) (steps : Nat) : List (Schedule × Nat) :=
  (List.range steps).flatMap fun earlier =>
    -- Each step starts where the steps before it have led.
    let schedule := run rules earlier (start rules)
    releases schedule.place (schedule.awaiting rules)

/-- The rules that releases leave nothing to wait for, as often as that happens. -/
def readied (released : List (Schedule × Nat)) : List Nat :=
  -- Of several releases of one rule in a row only the last one makes it ready.
  (released.filter fun (found, position) =>
    (found.release position).pending[position]? = some 0).map (·.2)

/-- Whether a rule can be released: it waits for an input, and is neither ready nor placed. -/
structure IsWaiting (schedule : Schedule) (position : Nat) : Prop where
  /-- One can be taken from the inputs that the rule waits for. -/
  pending : ∃ left, schedule.pending[position]? = some (left + 1)
  unready : position ∉ schedule.ready
  unplaced : position ∉ schedule.order

/-- Whether a schedule tells what is placed, what is ready, and what each rule waits for. -/
structure IsAccurate (rules : List Rule) (schedule : Schedule) : Prop where
  /-- Each rule waits for its inputs that rules outside the order produce. -/
  pending : schedule.pending = rules.map (pendingInputs rules schedule.order)
  /-- The ready rules are those outside the order that wait for nothing. -/
  ready : ∀ position, position ∈ schedule.ready ↔
    position ∉ schedule.order ∧ schedule.pending[position]? = some 0
  /-- Only declared rules are placed. -/
  declared : ∀ position ∈ schedule.order, position < rules.length
  /-- No rule is placed twice, or ready twice, or ready after it has been placed. -/
  nodup : (schedule.order ++ schedule.ready).Nodup

variable {rules : List Rule} {schedule : Schedule} {position : Nat}

/-- A step places the first ready rule and then releases the rules that consume its output. -/
theorem step_eq (rules : List Rule) (schedule : Schedule) :
    schedule.step rules = (schedule.awaiting rules).foldl release schedule.place := by
  -- With no ready rule there is nothing to place, and nothing to release.
  cases first : schedule.ready with
  | nil => simp [step, place, awaiting, first]
  | cons position ready =>
    cases declared : rules[position]? <;> simp [step, place, awaiting, first, declared]

/-- A release is one of a rule in the list, and finds what the releases before it have left. -/
theorem mem_releases {released : List Nat} {found : Schedule} :
    (found, position) ∈ releases schedule released ↔
      ∃ before after, released = before ++ position :: after ∧
        found = before.foldl release schedule := by
  -- Induction on the releases, each of which meets what those before it have left.
  induction released generalizing schedule with
  | nil => simp [releases]
  | cons first rest ih =>
    rw [releases, List.mem_cons, ih, Prod.mk.injEq]
    constructor
    · rintro (⟨rfl, rfl⟩ | ⟨before, after, rfl, rfl⟩)
      · exact ⟨[], rest, rfl, rfl⟩
      · exact ⟨first :: before, after, rfl, rfl⟩
    · rintro ⟨before, after, split, rfl⟩
      cases before with
      | nil =>
        obtain ⟨rfl, rfl⟩ := List.cons.inj split
        exact .inl ⟨rfl, rfl⟩
      | cons other before =>
        obtain ⟨rfl, rfl⟩ := List.cons.inj split
        exact .inr ⟨before, after, rfl, rfl⟩

/-- Steps can be taken in two parts. -/
theorem run_add (rules : List Rule) (first second : Nat) (schedule : Schedule) :
    run rules (first + second) schedule = run rules second (run rules first schedule) := by
  -- Induction on the steps of the first part.
  induction first generalizing schedule with
  | zero => rw [Nat.zero_add, run]
  | succ first ih => rw [Nat.add_right_comm, run, ih, run]

/-- The last step of a run is taken from where the others have led. -/
theorem run_succ (rules : List Rule) (steps : Nat) (schedule : Schedule) :
    run rules (steps + 1) schedule = (run rules steps schedule).step rules := by
  -- A run of one more step is a run followed by a run of one step.
  rw [run_add, run, run]

namespace Invariant

/-- A schedule that keeps the invariant is accurate. -/
theorem isAccurate (inv : Invariant rules schedule) : IsAccurate rules schedule where
  -- The invariant tells of each rule what an accurate schedule must tell.
  pending := inv.pending
  ready position := by
    cases declared : rules[position]? with
    | none =>
      -- Behind the last rule there is neither a ready rule nor a number.
      have outside : rules.length ≤ position := List.getElem?_eq_none_iff.1 declared
      constructor
      · intro ready
        have inside := ((inv.ready position).1 ready).declared
        omega
      · rintro ⟨-, settled⟩
        simp [inv.pending, declared] at settled
    | some rule =>
      rw [inv.ready, isAvailable_iff declared]
      simp [inv.pending, declared]
  declared _ placed := inv.greedy.declared placed
  nodup := by
    have sorted : schedule.ready.Nodup := inv.sorted.imp Nat.ne_of_lt
    refine List.nodup_append.2 ⟨inv.greedy.nodup, sorted, ?_⟩
    rintro position placed _ ready rfl
    exact ((inv.ready position).1 ready).unplaced placed

/-- While rules are released, each waits for what is not produced and for the releases to come. -/
theorem pending_midway (distinct : (outputs rules).Nodup) (inv : Invariant rules schedule)
    {ready : List Nat} (first : schedule.ready = position :: ready) {rule : Rule}
    (declared : rules[position]? = some rule) {before after : List Nat}
    (split : consumers rules rule.output = before ++ after) {other : Nat} {consumer : Rule}
    (found : rules[other]? = some consumer) :
    (before.foldl release schedule.place).pending[other]? =
      some (pendingInputs rules (schedule.order ++ [position]) consumer + after.count other) := by
  -- The number falls by one a release, and it began with all releases of the rule on top.
  have unplaced := (inv.isNext first).available.unplaced
  have counted := inv.pending_before_release distinct declared unplaced found
  rw [split, List.count_append] at counted
  rw [getElem?_pending_foldl_release]
  simp only [place, first, counted, Option.map_some, Option.some.injEq]
  omega

/-- Whatever a step releases still waits when its turn comes, however often it is released. -/
theorem isWaiting_of_mem_releases (distinct : (outputs rules).Nodup) (inv : Invariant rules schedule)
    {met : Schedule × Nat} (released : met ∈ releases schedule.place (schedule.awaiting rules)) :
    IsWaiting met.1 met.2 := by
  -- A release meets the schedule in the middle of a step, with some releases still to come.
  obtain ⟨found, other⟩ := met
  obtain ⟨before, after, split, rfl⟩ := mem_releases.1 released
  show IsWaiting (before.foldl release schedule.place) other
  cases first : schedule.ready with
  | nil => simp [awaiting, first] at split
  | cons position ready =>
    have next := inv.isNext first
    obtain ⟨rule, declared⟩ : ∃ rule, rules[position]? = some rule :=
      ⟨_, List.getElem?_eq_getElem next.available.declared⟩
    simp only [awaiting, first, declared, Option.map_some, Option.getD_some] at split
    have depends : DependsOn rules other position := (mem_consumers declared).1 (by simp [split])
    obtain ⟨consumer, _, consumes, _, _⟩ := id depends
    -- This release is still to come, so it is one of those that the rule waits for.
    have pending := inv.pending_midway distinct first declared split consumes
    rw [List.count_cons_self, ← Nat.add_assoc] at pending
    refine ⟨⟨_, pending⟩, ?_, ?_⟩
    · rw [mem_ready_foldl_release]
      rw [getElem?_pending_foldl_release] at pending
      obtain ⟨count, counted, remaining⟩ := Option.map_eq_some_iff.1 pending
      rintro (old | ⟨-, settled⟩)
      · -- A rule that was ready before cannot depend on the one that is just placed.
        simp only [place, first] at old
        have available := (inv.ready other).1 (by simp [first, old])
        exact next.available.unplaced (available.producers position depends)
      · rw [counted, Option.getD_some] at settled
        omega
    · simpa only [order_foldl_release, place, first] using inv.unplaced_of_dependsOn next depends

end Invariant

/-- A position that is not among others yet is put among them once. -/
theorem insertPosition_perm {positions : List Nat} (new : position ∉ positions) :
    (insertPosition position positions).Perm (position :: positions) := by
  -- Induction on the positions, of which the new one is none.
  induction positions with
  | nil => exact .refl _
  | cons first rest ih =>
    obtain ⟨different, later⟩ := not_or.1 (mt List.mem_cons.2 new)
    simp only [insertPosition, if_neg different]
    split
    · exact .refl _
    · exact ((ih later).cons first).trans (.swap position first rest)

/-- Further releases leave nothing to wait for behind those before. -/
theorem readied_append (first second : List (Schedule × Nat)) :
    readied (first ++ second) = readied first ++ readied second := by
  -- Releases are looked at one by one.
  simp only [readied, List.filter_append, List.map_append]

/-- Releasing a rule that waits makes it ready once nothing is left to wait for. -/
theorem IsWaiting.ready_release_perm (waiting : IsWaiting schedule position) :
    (schedule.release position).ready.Perm (schedule.ready ++ readied [(schedule, position)]) := by
  -- The count behind the release decides whether the rule enters.
  obtain ⟨left, pending⟩ := waiting.pending
  have remaining : (schedule.release position).pending[position]? = some left := by
    have counted := getElem?_pending_foldl_release [position] schedule position
    simpa [pending] using counted
  have entered : readied [(schedule, position)] = if left = 0 then [position] else [] := by
    simp only [readied, List.filter_cons, List.filter_nil, remaining, Option.some.injEq,
      decide_eq_true_eq]
    split <;> rfl
  have ready : (schedule.release position).ready =
      if left = 0 then insertPosition position schedule.ready else schedule.ready := by
    simp [release, pending]
  rw [entered, ready]
  split
  · exact (insertPosition_perm waiting.unready).trans (List.perm_append_singleton _ _).symm
  · rw [List.append_nil]

/-- Releasing rules that wait makes those ready that are left nothing to wait for, and no others. -/
theorem ready_foldl_release_perm {released : List Nat}
    (waiting : ∀ met ∈ releases schedule released, IsWaiting met.1 met.2) :
    (released.foldl release schedule).ready.Perm
      (schedule.ready ++ readied (releases schedule released)) := by
  -- The schedule stays general, as the next release finds what this one has left.
  induction released generalizing schedule with
  | nil => simp [releases, readied]
  | cons first rest ih =>
    simp only [releases, List.forall_mem_cons] at waiting
    obtain ⟨now, later⟩ := waiting
    have apart : readied (releases schedule (first :: rest)) =
        readied [(schedule, first)] ++ readied (releases (schedule.release first) rest) :=
      readied_append [(schedule, first)] _
    rw [apart, ← List.append_assoc]
    exact (ih later).trans (now.ready_release_perm.append_right _)

/-- Placing a ready rule moves it from the ready ones to the order. -/
theorem order_append_ready_place (schedule : Schedule) :
    schedule.place.order ++ schedule.place.ready = schedule.order ++ schedule.ready := by
  -- The first ready rule is put at the end of the order, which is before the other ready ones.
  cases first : schedule.ready <;> simp [place, first]

/-- The releases of the last step come behind those of the steps before. -/
theorem releasesOfRun_succ (rules : List Rule) (steps : Nat) :
    releasesOfRun rules (steps + 1) = releasesOfRun rules steps ++
      releases (run rules steps (start rules)).place
        ((run rules steps (start rules)).awaiting rules) := by
  -- A run is followed step by step, and the last one comes last.
  simp [releasesOfRun, List.range_succ]

/-- Every release of a run finds a rule that waits. -/
theorem isWaiting_of_mem_releasesOfRun (distinct : (outputs rules).Nodup) {steps : Nat}
    {met : Schedule × Nat} (released : met ∈ releasesOfRun rules steps) : IsWaiting met.1 met.2 := by
  -- Each release belongs to a step, before which the invariant holds.
  obtain ⟨earlier, -, here⟩ := List.mem_flatMap.1 released
  exact ((invariant_start rules).run distinct earlier).isWaiting_of_mem_releases distinct here

/-- The rules that have become ready are those placed and those still ready, each as often. -/
theorem readied_perm (distinct : (outputs rules).Nodup) (steps : Nat) :
    ((start rules).ready ++ readied (releasesOfRun rules steps)).Perm
      ((run rules steps (start rules)).order ++ (run rules steps (start rules)).ready) := by
  -- A step is added at the end: its placement keeps the sum, and its releases add what they ready.
  induction steps with
  | zero => simp [releasesOfRun, readied, run, start]
  | succ steps ih =>
    let schedule := run rules steps (start rules)
    let released := releases schedule.place (schedule.awaiting rules)
    have inv : Invariant rules schedule := (invariant_start rules).run distinct steps
    have waiting : ∀ met ∈ released, IsWaiting met.1 met.2 :=
      fun _ among => inv.isWaiting_of_mem_releases distinct among
    have entered := ready_foldl_release_perm waiting
    rw [releasesOfRun_succ, readied_append, run_succ, step_eq, order_foldl_release,
      ← List.append_assoc]
    have kept := ih.append_right (readied released)
    rw [← order_append_ready_place schedule, List.append_assoc schedule.place.order] at kept
    exact kept.trans (entered.symm.append_left _)

/-- A run places one rule a step until none is ready, and from then on stays as it is. -/
theorem exists_end_of_run (done : (final rules).ready = []) :
    ∃ pops ≤ rules.length,
      (∀ steps < pops, (run rules steps (start rules)).ready ≠ []) ∧
      (∀ steps ≤ pops, (run rules steps (start rules)).order.length = steps) ∧
      ∀ steps ≥ pops, run rules steps (start rules) = final rules := by
  -- The run ends with the first schedule in which no rule is ready.
  have ends : ∃ steps, (run rules steps (start rules)).ready = [] := ⟨rules.length, done⟩
  have bounded : Nat.find ends ≤ rules.length := Nat.find_min' ends done
  refine ⟨Nat.find ends, bounded, fun steps before => Nat.find_min ends before, ?_, ?_⟩
  · intro steps
    induction steps with
    | zero => exact fun _ => rfl
    | succ steps ih =>
      intro before
      cases first : (run rules steps (start rules)).ready with
      | nil => exact absurd first (Nat.find_min ends before)
      | cons position ready =>
        rw [run_succ, length_order_step first, ih (Nat.le_of_succ_le before)]
  · have stopped (steps : Nat) (behind : Nat.find ends ≤ steps) :
        run rules steps (start rules) = run rules (Nat.find ends) (start rules) := by
      obtain ⟨more, rfl⟩ := Nat.exists_eq_add_of_le behind
      rw [run_add, run_of_ready_nil (Nat.find_spec ends)]
    intro steps behind
    rw [stopped steps behind, ← stopped rules.length bounded, final]

/--
What is kept account of while rules are placed, for every list of rules with different outputs.

Before each step the schedule is accurate. Whatever has been released until then was waiting for an
input and was not ready: no number goes below zero, no position is out of range, and no rule becomes
ready a second time. After at most as many steps as there are rules none is ready, and the rules that
still wait for an input are those that were never placed.
-/
theorem run_exact (distinct : (outputs rules).Nodup) :
    (∀ steps, IsAccurate rules (run rules steps (start rules)) ∧
      (∀ met ∈ releasesOfRun rules steps, IsWaiting met.1 met.2) ∧
      ((start rules).ready ++ readied (releasesOfRun rules steps)).Nodup ∧
      ((start rules).ready ++ readied (releasesOfRun rules steps)).Perm
        ((run rules steps (start rules)).order ++ (run rules steps (start rules)).ready)) ∧
    (∃ pops ≤ rules.length,
      (∀ steps < pops, (run rules steps (start rules)).ready ≠ []) ∧
      (∀ steps ≤ pops, (run rules steps (start rules)).order.length = steps) ∧
      ∀ steps ≥ pops, run rules steps (start rules) = final rules) ∧
    (final rules).ready = [] ∧
    ∀ position < rules.length, ∃ left, (final rules).pending[position]? = some left ∧
      (0 < left ↔ position ∉ (final rules).order) := by
  -- The invariant makes the schedule accurate; the order grows until no rule is ready.
  refine ⟨fun steps => ?_, exists_end_of_run (ready_final distinct), ready_final distinct, ?_⟩
  · have accurate := ((invariant_start rules).run distinct steps).isAccurate
    have entered := readied_perm distinct steps
    exact ⟨accurate, fun _ released => isWaiting_of_mem_releasesOfRun distinct released,
      entered.nodup_iff.2 accurate.nodup, entered⟩
  · -- What still waits is stuck, and only what is stuck is never placed.
    intro position declared
    have found : (final rules).pending[position]? =
        some (pendingInputs rules (final rules).order rules[position]) := by
      simp [(invariant_final distinct).pending, declared]
    have waits := pending_final_pos_iff distinct declared
    rw [found, Option.getD_some] at waits
    exact ⟨_, found, by rw [waits, mem_final_iff distinct declared, not_not]⟩

/-- A rule that names one output twice, and one that waits for two rules and for itself. -/
def tangledRules : List Rule :=
  [totalRule "b" ["a", "a"], totalRule "a" ["x"], totalRule "c" ["c", "b", "a"]]

/-- Two rules are placed, one of them after two releases in a row, and the third one never is. -/
theorem run_exact_sample :
    (outputs tangledRules).Nodup ∧
    (run tangledRules 1 (start tangledRules)).pending = [0, 0, 2] ∧
    IsAccurate tangledRules (run tangledRules 1 (start tangledRules)) ∧
    (releasesOfRun tangledRules 2).map (·.2) = [0, 0, 2, 2] ∧
    (∀ met ∈ releasesOfRun tangledRules 2, IsWaiting met.1 met.2) ∧
    (start tangledRules).ready ++ readied (releasesOfRun tangledRules 2) = [1, 0] ∧
    ∃ left, (final tangledRules).pending[2]? = some left ∧
      (0 < left ↔ 2 ∉ (final tangledRules).order) := by
  -- The rules are few, so the run is followed by evaluation and judged by the theorem.
  have distinct : (outputs tangledRules).Nodup := by decide
  obtain ⟨steps, -, -, left⟩ := run_exact distinct
  exact ⟨distinct, rfl, (steps 1).1, rfl, (steps 2).2.1, rfl, left 2 (by decide)⟩

end Schedule

end BoardConfig
