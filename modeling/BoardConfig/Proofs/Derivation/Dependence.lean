import BoardConfig.Derivation.Schedule
import Mathlib.Data.Fintype.Card
import Mathlib.Data.Fintype.EquivFin
import Mathlib.Logic.Relation

/-! Rules that depend on one another, and orders that put each of them behind those it depends on. -/

namespace BoardConfig

open Relation

/-- Whether a rule consumes the output of another one, both by position. -/
def DependsOn (rules : List Rule) (consumer producer : Nat) : Prop :=
  ∃ rule other, rules[consumer]? = some rule ∧ rules[producer]? = some other ∧
    other.output ∈ rule.inputs

/-- Whether no rule depends on itself, be it through others. -/
def Acyclic (rules : List Rule) : Prop :=
  ∀ position, ¬ TransGen (DependsOn rules) position position

/-- Whether a rule lies on a cycle, or depends on a rule that does. -/
def IsStuck (rules : List Rule) (position : Nat) : Prop :=
  ∃ other, ReflTransGen (DependsOn rules) position other ∧ TransGen (DependsOn rules) other other

/-- Whether a rule is not placed yet, while all rules that it depends on are. -/
structure IsAvailable (rules : List Rule) (placed : List Nat) (position : Nat) : Prop where
  declared : position < rules.length
  unplaced : position ∉ placed
  producers : ∀ producer, DependsOn rules position producer → producer ∈ placed

/-- Whether a rule is the first declared of those that are available. -/
structure IsNext (rules : List Rule) (placed : List Nat) (position : Nat) : Prop where
  available : IsAvailable rules placed position
  least : ∀ other, IsAvailable rules placed other → position ≤ other

/-- Whether every rule of an order comes next after the rules before it. -/
def IsGreedy (rules : List Rule) (order : List Nat) : Prop :=
  ∀ before position after, order = before ++ position :: after → IsNext rules before position

/-- Whether every rule of an order stands behind all rules that it depends on. -/
def ProducersFirst (rules : List Rule) (order : List Nat) : Prop :=
  ∀ before position after, order = before ++ position :: after →
    ∀ producer, DependsOn rules position producer → producer ∈ before

/-- Whether an order holds every rule once, behind all rules that it depends on. -/
structure IsTopological (rules : List Rule) (order : List Nat) : Prop where
  perm : order.Perm (List.range rules.length)
  producersFirst : ProducersFirst rules order

section

variable {rules : List Rule} {order other : List Nat} {position producer : Nat}

/-- A rule that is depended on is declared. -/
theorem DependsOn.declared (depends : DependsOn rules position producer) :
    producer < rules.length := by
  -- A rule that is depended on is found at its position.
  obtain ⟨_, _, _, found, _⟩ := depends
  exact (List.getElem?_eq_some_iff.1 found).1

/-- A stuck rule depends on a stuck one. -/
theorem IsStuck.exists_dependsOn (stuck : IsStuck rules position) :
    ∃ producer, DependsOn rules position producer ∧ IsStuck rules producer := by
  -- A stuck rule lies on a cycle, or on the way to one.
  obtain ⟨other, reached, cycle⟩ := stuck
  rcases reached.cases_head with rfl | ⟨next, depends, onwards⟩
  · -- On the cycle itself, the next rule of the cycle leads back to this one.
    obtain ⟨next, depends, back⟩ := TransGen.head'_iff.1 cycle
    exact ⟨next, depends, position, back, cycle⟩
  · exact ⟨next, depends, other, onwards, cycle⟩

/-- Where no rule depends on itself, none is stuck. -/
theorem acyclic_iff : Acyclic rules ↔ ∀ position, ¬ IsStuck rules position := by
  -- A rule on a cycle is stuck itself, and any stuck rule leads to one on a cycle.
  constructor
  · rintro acyclic position ⟨other, -, cycle⟩
    exact acyclic other cycle
  · intro free position cycle
    exact free position ⟨position, .refl, cycle⟩

/--
Rules that each depend on another one of them are stuck.

There are only finitely many rules, so the way from one to the next comes back to itself.
-/
theorem isStuck_of_blocked (blocked : Nat → Prop)
    (declared : ∀ position, blocked position → position < rules.length)
    (waits : ∀ position, blocked position →
      ∃ producer, DependsOn rules position producer ∧ blocked producer)
    (start : blocked position) : IsStuck rules position := by
  by_contra free
  -- Without a cycle, the rules on the way are well-founded, though each leads to a further one.
  let Reached := { rule : Nat // blocked rule ∧ ReflTransGen (DependsOn rules) position rule }
  let Behind (next rule : Reached) : Prop := TransGen (DependsOn rules) rule.1 next.1
  have finite : Finite Reached := by
    -- Positions below a bound are finitely many, so those among them are too.
    let bounded (rule : Reached) : Fin rules.length := ⟨rule.1, declared rule.1 rule.2.1⟩
    refine Finite.of_injective bounded fun first second same => Subtype.ext ?_
    exact congrArg Fin.val same
  have irreflexive : Std.Irrefl Behind := ⟨fun rule cycle => free ⟨rule.1, rule.2.2, cycle⟩⟩
  have transitive : IsTrans Reached Behind := ⟨fun _ _ _ first second => second.trans first⟩
  have wellFounded : WellFounded Behind := Finite.wellFounded_of_trans_of_irrefl Behind
  -- Each of them depends on a further one, for which this is known already.
  have none (rule : Reached) : False := by
    induction rule using wellFounded.induction with
    | _ rule ih =>
      obtain ⟨next, depends, still⟩ := waits rule.1 rule.2.1
      exact ih ⟨next, still, rule.2.2.tail depends⟩ (.single depends)
  exact none ⟨position, start, .refl⟩

/-- A place in a list with one more element behind it is that element's or a place in the list. -/
theorem split_of_append_singleton {list before after : List Nat} {last middle : Nat}
    (split : list ++ [last] = before ++ middle :: after) :
    (before = list ∧ middle = last) ∨ ∃ inner, list = before ++ middle :: inner := by
  -- Either nothing stands behind the place, or the last element does.
  rcases List.eq_nil_or_concat after with rfl | ⟨inner, final, rfl⟩
  · obtain ⟨same, single⟩ := List.append_inj' split rfl
    simp only [List.cons.injEq, and_true] at single
    exact .inl ⟨same.symm, single.symm⟩
  · have whole : list ++ [last] = (before ++ middle :: inner) ++ [final] := by simpa using split
    exact .inr ⟨inner, (List.append_inj' whole rfl).1⟩

namespace ProducersFirst

/-- The rules before the last one are in order as well. -/
theorem of_append_singleton (first : ProducersFirst rules (order ++ [position])) :
    ProducersFirst rules order := by
  -- What stands before a rule does so with one more rule at the end as well.
  rintro before rule after rfl
  exact first before rule (after ++ [position]) (by simp)

/-- No rule is stuck that stands behind all rules that it depends on. -/
theorem not_isStuck (first : ProducersFirst rules order) (placed : position ∈ order) :
    ¬ IsStuck rules position := by
  -- The induction adds rules at the end, where all that they depend on is placed before.
  induction order using List.reverseRecOn generalizing position with
  | nil => simp at placed
  | append_singleton before last ih =>
    have earlier {rule : Nat} (old : rule ∈ before) : ¬ IsStuck rules rule :=
      ih first.of_append_singleton old
    rcases List.mem_append.1 placed with old | new
    · exact earlier old
    · intro stuck
      obtain ⟨producer, depends, still⟩ := stuck.exists_dependsOn
      rw [List.mem_singleton.1 new] at depends
      exact earlier (first before last [] rfl producer depends) still

end ProducersFirst

namespace IsGreedy

/-- Nothing is placed at first. -/
theorem nil : IsGreedy rules [] := by
  -- An empty list has no place for a rule.
  intro before position after split
  simp at split

/-- An order goes on with the rule that comes next. -/
theorem append_singleton (greedy : IsGreedy rules order) (next : IsNext rules order position) :
    IsGreedy rules (order ++ [position]) := by
  -- The place is that of the new rule, or it is a place in the order before.
  intro before rule after split
  rcases split_of_append_singleton split with ⟨rfl, rfl⟩ | ⟨inner, within⟩
  · exact next
  · exact greedy before rule inner within

/-- A rule comes next only after all rules that it depends on. -/
theorem producersFirst (greedy : IsGreedy rules order) : ProducersFirst rules order :=
  -- Whatever comes next is available, which asks for its producers.
  fun before rule after split => (greedy before rule after split).available.producers

/-- Only declared rules are placed. -/
theorem declared (greedy : IsGreedy rules order) (placed : position ∈ order) :
    position < rules.length := by
  -- Each rule came next in its turn, and only declared rules are available.
  obtain ⟨before, after, split⟩ := List.append_of_mem placed
  exact (greedy before position after split).available.declared

/-- No rule is placed twice. -/
theorem nodup (greedy : IsGreedy rules order) : order.Nodup := by
  -- A rule that comes next is none of those placed before.
  induction order using List.reverseRecOn with
  | nil => exact List.nodup_nil
  | append_singleton before last ih =>
    have shorter : IsGreedy rules before := by
      rintro front rule after rfl
      exact greedy front rule (after ++ [last]) (by simp)
    refine List.nodup_append.2 ⟨ih shorter, by simp, fun rule placed new single => ?_⟩
    rintro rfl
    rw [List.mem_singleton.1 single] at placed
    exact (greedy before last [] rfl).available.unplaced placed

/-- There are no more rules in an order than declared. -/
theorem length_le (greedy : IsGreedy rules order) : order.length ≤ rules.length := by
  -- Positions below a bound that all differ are no more than the bound.
  have inside : order ⊆ List.range rules.length :=
    fun rule placed => List.mem_range.2 (greedy.declared placed)
  simpa using greedy.nodup.length_le_of_subset inside

/-- An order of as many rules as are declared holds every one of them. -/
theorem perm (greedy : IsGreedy rules order) (full : order.length = rules.length) :
    order.Perm (List.range rules.length) := by
  -- All positions differ and are below the bound, of which they are as many.
  have inside : order ⊆ List.range rules.length :=
    fun rule placed => List.mem_range.2 (greedy.declared placed)
  exact (List.subperm_of_subset greedy.nodup inside).perm_of_length_le (by simp [full])

/-- Of all orders that put producers first, the greedy one is the least from left to right. -/
theorem lex_of_isTopological (greedy : IsGreedy rules order)
    (perm : order.Perm (List.range rules.length)) (topological : IsTopological rules other) :
    order = other ∨ List.Lex (· < ·) order other := by
  -- Behind a common beginning the other order goes on with a rule that is available, too.
  have onwards (rest : List Nat) : ∀ before more, order = before ++ rest → other = before ++ more →
      rest = more ∨ List.Lex (· < ·) rest more := by
    induction rest with
    | nil =>
      intro before more split others
      have lengths := (perm.trans topological.perm.symm).length_eq
      rw [split, others, List.length_append, List.length_append, List.length_nil] at lengths
      exact .inl (List.eq_nil_of_length_eq_zero (by omega)).symm
    | cons position rest ih =>
      intro before more split others
      have lengths := (perm.trans topological.perm.symm).length_eq
      cases more with
      | nil =>
        rw [split, others] at lengths
        simp at lengths
      | cons next more =>
        have distinct : other.Nodup := topological.perm.nodup_iff.2 List.nodup_range
        have available : IsAvailable rules before next := by
          refine ⟨?_, ?_, topological.producersFirst before next more others⟩
          · exact List.mem_range.1 (topological.perm.subset (by simp [others]))
          · rw [others] at distinct
            exact fun placed => (List.nodup_append.1 distinct).2.2 next placed next (by simp) rfl
        have le := (greedy before position rest split).least next available
        rcases Nat.lt_or_eq_of_le le with less | rfl
        · exact .inr (.rel less)
        · rcases ih (before ++ [position]) more (by simp [split]) (by simp [others]) with
            rfl | later
          · exact .inl rfl
          · exact .inr (.cons later)
  exact onwards order [] other rfl rfl

end IsGreedy

end

end BoardConfig
