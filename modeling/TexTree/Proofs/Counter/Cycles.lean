import TexTree.Proofs.Counter.Chains

/-!
# The search for cycles

A counter that is made subordinate to another one would be subordinate to itself if the
chain of superiors of the other one leads back to it.  The search gives up after as many
steps as there are counters and then answers that there is a cycle.  A chain without an
end is found in this way, but not only such a chain: one that goes through all counters
and then to a name that is no counter has one name more than there are counters, and is
taken for a cycle although it ends (`cycle_found_iff`).

Counters of a document always have superiors that exist.  Among them the search is exact
(`Ordered.wouldCycle_iff`).
-/

namespace TexTree.Counters

variable {counters : Counters} {name superior : String}

/-- The chain of superiors goes through as many counters as there are, and ends with a name
that is no counter. -/
def RunsOut (counters : Counters) (name : String) : Prop :=
  ∃ missing, counters.above? counters.list.length name = some missing ∧
    counters.contains missing = false

/-- A chain of as many steps as there are counters runs out, or goes round. -/
theorem runsOut_or_endless
    (goesOn : counters.above? counters.list.length name ≠ none) :
    counters.RunsOut name ∨ counters.Endless name := by
  obtain ⟨last, isLast⟩ := Option.ne_none_iff_exists'.mp goesOn
  cases isCounter : counters.contains last with
  | false => exact .inl ⟨last, isLast, isCounter⟩
  | true =>
      -- All names up to this one are counters, one more than there are.
      have exist : ∀ steps ≤ counters.list.length, ∃ between,
          counters.above? steps name = some between ∧ counters.contains between = true := by
        intro steps within
        rcases Nat.lt_or_eq_of_le within with before | rfl
        · exact exists_counter_above? isLast before
        · exact ⟨last, isLast, isCounter⟩
      obtain ⟨first, second, before, within, same⟩ := exists_repeated exist
      refine .inr (endless_of_repeated before same ?_)
      obtain ⟨between, isBetween, -⟩ := exist first (before.le.trans within)
      rw [isBetween]
      exact Option.some_ne_none between

/-- A cycle is reported exactly if the chain of superiors leads to the counter, or never
ends, or runs out. -/
theorem cycle_found_iff (counters : Counters) (name superior : String) :
    counters.wouldCycle name superior = true ↔
      counters.Leads superior name ∨ counters.Endless superior ∨ counters.RunsOut superior := by
  rw [wouldCycle, meets_iff]
  constructor
  · rintro (⟨steps, -, leads⟩ | goesOn)
    · exact .inl ⟨steps, leads⟩
    · exact .inr (runsOut_or_endless goesOn).symm
  · rintro (leads | endless | ⟨missing, isMissing, -⟩)
    · exact .inl leads.within
    · exact .inr (endless _)
    · exact .inr (isMissing ▸ Option.some_ne_none missing)

/-- The only counter is subordinate to a name that is no counter.  Its chain ends after one
step, without leading to the other name, and is taken for a cycle. -/
example :
    let counters := (empty.create? "a" (some "ghost") 0).get rfl
    counters.wouldCycle "b" "a" = true ∧ counters.above? 1 "a" = some "ghost" ∧
      counters.above? 2 "a" = none := by
  decide +kernel

/-- No chain runs out if all superiors exist. -/
theorem Ordered.not_runsOut (ordered : counters.Ordered)
    (exist : counters.contains superior = true) : ¬counters.RunsOut superior := by
  rintro ⟨missing, isMissing, unknown⟩
  cases count : counters.list.length with
  | zero =>
      rw [count, above?_zero, Option.some.injEq] at isMissing
      rw [← isMissing, exist] at unknown
      cases unknown
  | succ steps =>
      rw [count, above?_add] at isMissing
      obtain ⟨last, -, isAbove⟩ := Option.bind_eq_some_iff.mp isMissing
      rw [above?_succ] at isAbove
      obtain ⟨above, isSuperior, same⟩ := Option.bind_eq_some_iff.mp isAbove
      obtain rfl := Option.some.inj same
      obtain ⟨counter, found, isReset⟩ := Option.bind_eq_some_iff.mp isSuperior
      have known := ordered.contains (List.mem_of_find?_eq_some found) isReset
      rw [known] at unknown
      cases unknown

/-- The search is exact if all superiors exist, the one that is asked for among them. -/
theorem Ordered.wouldCycle_iff (ordered : counters.Ordered)
    (exist : counters.contains superior = true) :
    counters.wouldCycle name superior = true ↔ counters.Leads superior name := by
  obtain ⟨steps, -, ends⟩ := ordered.above?_eq_none superior
  rw [cycle_found_iff]
  constructor
  · rintro (leads | endless | runsOut)
    · exact leads
    · exact absurd ends (endless steps)
    · exact absurd runsOut (ordered.not_runsOut exist)
  · exact .inl

end TexTree.Counters
