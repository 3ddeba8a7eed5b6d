import Mathlib.Data.Finset.Card
import Mathlib.Data.List.Dedup
import TexTree.Proofs.Counter.Superiors

/-!
# Chains of superiors

Any counter may be subordinate to any name, so that going from a counter to its superior
may lead in a circle, or to a name that is no counter.  A chain that leads to a name does
so within as many steps as there are counters (`Leads.within`), since otherwise it meets a
counter twice and can be cut short.  A chain on which a counter is met twice never ends
(`endless_of_repeated`).

These two facts say what the bounded searches of the counters find: `isBelow` whether a
counter is below another one, and `meets` whether a chain leads to a name or is longer
than the bound.
-/

namespace TexTree.Counters

variable {counters : Counters} {name target other : String} {steps : Nat}

/-- Going to the superior some number of times, or not at all, leads from one name to
another. -/
def Leads (counters : Counters) (name target : String) : Prop :=
  ∃ steps, counters.above? steps name = some target

/-- Going to the superior never ends. -/
def Endless (counters : Counters) (name : String) : Prop :=
  ∀ steps, counters.above? steps name ≠ none

@[simp] theorem above?_zero (counters : Counters) (name : String) :
    counters.above? 0 name = some name := rfl

theorem above?_succ (counters : Counters) (steps : Nat) (name : String) :
    counters.above? (steps + 1) name =
      (counters.superior? name).bind (counters.above? steps) := rfl

theorem above?_add (counters : Counters) (first second : Nat) (name : String) :
    counters.above? (first + second) name =
      (counters.above? first name).bind (counters.above? second) := by
  induction first generalizing name with
  | zero => rw [Nat.zero_add, above?_zero, Option.bind_some]
  | succ first ih =>
      rw [Nat.succ_add, above?_succ, above?_succ, Option.bind_assoc]
      exact congrArg _ (funext ih)

/-- A chain that has ended has ended ever after. -/
theorem above?_eq_none_of_le (ends : counters.above? steps name = none) {more : Nat}
    (later : steps ≤ more) : counters.above? more name = none := by
  rw [← Nat.add_sub_of_le later, above?_add, ends, Option.bind_none]

/-- Only a counter has a superior. -/
theorem contains_of_superior? (isAbove : counters.superior? name = some target) :
    counters.contains name = true := by
  obtain ⟨counter, found, -⟩ := Option.bind_eq_some_iff.mp isAbove
  rw [contains, found]
  rfl

/-- All names of a chain but the last one are counters. -/
theorem exists_counter_above? (isAbove : counters.above? steps name = some target)
    {fewer : Nat} (before : fewer < steps) :
    ∃ between, counters.above? fewer name = some between ∧
      counters.contains between = true := by
  obtain ⟨rest, rfl⟩ := Nat.exists_eq_add_of_lt before
  rw [Nat.add_assoc, above?_add] at isAbove
  obtain ⟨between, isBetween, goesOn⟩ := Option.bind_eq_some_iff.mp isAbove
  rw [above?_succ] at goesOn
  obtain ⟨superior, isSuperior, -⟩ := Option.bind_eq_some_iff.mp goesOn
  exact ⟨between, isBetween, contains_of_superior? isSuperior⟩

/-- A chain of more names than there are counters, all of them counters, meets one of
them twice. -/
theorem exists_repeated
    (exist : ∀ steps ≤ counters.list.length, ∃ between,
      counters.above? steps name = some between ∧ counters.contains between = true) :
    ∃ first second, first < second ∧ second ≤ counters.list.length ∧
      counters.above? first name = counters.above? second name := by
  let known : Finset (Option String) := (counters.list.map (some ∘ Counter.name)).toFinset
  have few : known.card < (Finset.range (counters.list.length + 1)).card := by
    rw [Finset.card_range, Nat.lt_succ_iff]
    exact (List.toFinset_card_le _).trans (List.length_map _).le
  have inside : Set.MapsTo (counters.above? · name)
      (Finset.range (counters.list.length + 1) : Set Nat) (known : Set (Option String)) := by
    intro steps member
    rw [Finset.mem_coe, Finset.mem_range, Nat.lt_succ_iff] at member
    obtain ⟨between, isBetween, isCounter⟩ := exist steps member
    have isKnown := contains_iff_mem.mp isCounter
    simpa [known, isBetween] using isKnown
  obtain ⟨first, memberFirst, second, memberSecond, apart, same⟩ :=
    Finset.exists_ne_map_eq_of_card_lt_of_maps_to few inside
  rw [Finset.mem_range, Nat.lt_succ_iff] at memberFirst memberSecond
  rcases Nat.lt_or_gt_of_ne apart with before | behind
  · exact ⟨first, second, before, memberSecond, same⟩
  · exact ⟨second, first, behind, memberFirst, same.symm⟩

/-- A chain that meets a counter twice never ends. -/
theorem endless_of_repeated {first second : Nat} (before : first < second)
    (same : counters.above? first name = counters.above? second name)
    (goesOn : counters.above? first name ≠ none) : counters.Endless name := by
  obtain ⟨round, rfl⟩ := Nat.exists_eq_add_of_lt before
  have rounds : ∀ count, counters.above? (first + count * (round + 1)) name =
      counters.above? first name := by
    intro count
    induction count with
    | zero => rw [Nat.zero_mul, Nat.add_zero]
    | succ count ih =>
        have once : first + (count + 1) * (round + 1) =
            first + round + 1 + count * (round + 1) := by
          rw [Nat.succ_mul]
          omega
        rw [once, above?_add, ← same, ← above?_add, ih]
  intro steps ends
  have later : steps ≤ first + steps * (round + 1) :=
    (Nat.le_mul_of_pos_right steps (Nat.succ_pos round)).trans (Nat.le_add_left _ _)
  exact goesOn (rounds steps ▸ above?_eq_none_of_le ends later)

/-- A chain leads to a name within as many steps as there are counters, if it leads to it
at all; at least one step is made. -/
theorem above?_within (isAbove : counters.above? (steps + 1) name = some target) :
    ∃ fewer < counters.list.length, counters.above? (fewer + 1) name = some target := by
  -- The shortest chain meets no counter twice.
  induction steps using Nat.strong_induction_on with
  | _ steps ih =>
      by_cases few : steps < counters.list.length
      · exact ⟨steps, few, isAbove⟩
      have exist : ∀ fewer ≤ counters.list.length, ∃ between,
          counters.above? fewer name = some between ∧ counters.contains between = true :=
        fun fewer within => exists_counter_above? isAbove (by omega)
      obtain ⟨first, second, before, within, same⟩ := exists_repeated exist
      obtain ⟨rest, isRest⟩ := Nat.exists_eq_add_of_le (show second ≤ steps by omega)
      have shortened : counters.above? (first + rest + 1) name = some target := by
        rw [Nat.add_assoc, above?_add, same, ← above?_add, ← Nat.add_assoc, ← isRest]
        exact isAbove
      exact ih (first + rest) (by omega) shortened

/-- A chain leads to a name within as many steps as there are counters. -/
theorem Leads.within (leads : counters.Leads name target) :
    ∃ steps ≤ counters.list.length, counters.above? steps name = some target := by
  obtain ⟨steps, isAbove⟩ := leads
  cases steps with
  | zero => exact ⟨0, Nat.zero_le _, isAbove⟩
  | succ steps =>
      obtain ⟨fewer, few, isAbove⟩ := above?_within isAbove
      exact ⟨fewer + 1, few, isAbove⟩

/-! ## The searches -/

theorem leadsTo_iff (counters : Counters) (target : String) (steps : Nat) (name : String) :
    counters.leadsTo target steps name = true ↔
      ∃ fewer < steps, counters.above? (fewer + 1) name = some target := by
  induction steps generalizing name with
  | zero => simp [leadsTo]
  | succ steps ih =>
      cases isAbove : counters.superior? name with
      | none => simp [leadsTo, above?_succ, isAbove]
      | some superior =>
          simp only [leadsTo, above?_succ, isAbove, Option.bind_some, Bool.or_eq_true,
            beq_iff_eq, ih]
          constructor
          · rintro (rfl | ⟨fewer, few, leads⟩)
            · exact ⟨0, Nat.succ_pos steps, rfl⟩
            · exact ⟨fewer + 1, Nat.succ_lt_succ few, leads⟩
          · rintro ⟨fewer, few, leads⟩
            cases fewer with
            | zero => exact .inl (Option.some.inj leads)
            | succ fewer => exact .inr ⟨fewer, Nat.lt_of_succ_lt_succ few, leads⟩

/-- A counter is below another one if a chain of at least one step leads there. -/
theorem isBelow_iff :
    counters.isBelow name target = true ↔
      ∃ steps, counters.above? (steps + 1) name = some target := by
  rw [isBelow, leadsTo_iff]
  constructor
  · rintro ⟨steps, -, isAbove⟩
    exact ⟨steps, isAbove⟩
  · rintro ⟨steps, isAbove⟩
    exact above?_within isAbove

theorem isBelow_iff_leads (apart : name ≠ target) :
    counters.isBelow name target = true ↔ counters.Leads name target := by
  rw [isBelow_iff]
  constructor
  · rintro ⟨steps, isAbove⟩
    exact ⟨steps + 1, isAbove⟩
  · rintro ⟨steps, isAbove⟩
    cases steps with
    | zero => exact absurd (Option.some.inj isAbove) apart
    | succ steps => exact ⟨steps, isAbove⟩

/-- The search for a name stops where it is found, and at the bound. -/
theorem meets_iff (counters : Counters) (target : String) (steps : Nat) (name : String) :
    counters.meets target steps name = true ↔
      (∃ fewer ≤ steps, counters.above? fewer name = some target) ∨
        counters.above? steps name ≠ none := by
  induction steps generalizing name with
  | zero => simp [meets]
  | succ steps ih =>
      rw [meets]
      cases isAbove : counters.superior? name with
      | none =>
          simp only [above?_succ, isAbove, Option.bind_none, ne_eq, not_true_eq_false, or_false,
            Bool.or_false, beq_iff_eq]
          constructor
          · rintro rfl
            exact ⟨0, Nat.zero_le _, rfl⟩
          · rintro ⟨fewer, -, leads⟩
            cases fewer with
            | zero => exact Option.some.inj leads
            | succ fewer => simp [above?_succ, isAbove] at leads
      | some superior =>
          simp only [Bool.or_eq_true, beq_iff_eq, ih, above?_succ counters steps, isAbove,
            Option.bind_some, ← or_assoc]
          refine or_congr_left ⟨?_, ?_⟩
          · rintro (rfl | ⟨fewer, few, leads⟩)
            · exact ⟨0, Nat.zero_le _, rfl⟩
            · exact ⟨fewer + 1, Nat.succ_le_succ few, by rw [above?_succ, isAbove]; exact leads⟩
          · rintro ⟨fewer, few, leads⟩
            cases fewer with
            | zero => exact .inl (Option.some.inj leads)
            | succ fewer =>
                rw [above?_succ, isAbove, Option.bind_some] at leads
                exact .inr ⟨fewer, Nat.le_of_succ_le_succ few, leads⟩

end TexTree.Counters
