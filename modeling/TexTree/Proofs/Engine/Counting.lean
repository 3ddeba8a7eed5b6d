import TexTree.Proofs.Language.Lists

/-!
# Lists count their items

A list that begins opens a scope, and an enumeration puts its counter and those of the
enumerations inside of it back to zero.  An item of an enumeration steps the counter of the
innermost one.  Neither changes the counters of the enumerations around, so that each of
them goes on counting where it was, whatever stands in its items (`Engine.Counts`).
-/

namespace TexTree

/-- The number of enumerations that are open. -/
def enumerationsIn (opened : List OpenScope) : Nat := opened.count (.environment "enumerate")

namespace ListKind

theorem enumerationsIn_cons (kind : ListKind) (opened : List OpenScope) :
    enumerationsIn (.environment kind.name :: opened) = kind.inside (enumerationsIn opened) := by
  cases kind <;> simp [enumerationsIn, inside, name]

/-- The values of the counters in a list, when so many of its items have begun. -/
def values (kind : ListKind) (around : Nat → Int) (level position : Nat) : Nat → Int :=
  if kind = .enumerate then Enumeration.update around level (Enumeration.numberAt position)
  else around

/-- In a list, the counters of the enumerations around it stay as they are. -/
theorem values_of_lt (kind : ListKind) (around : Nat → Int) {level other : Nat} (position : Nat)
    (outer : other < level) : kind.values around level position other = around other := by
  unfold values
  split
  · exact Enumeration.update_of_lt around _ outer
  · rfl

end ListKind

namespace Engine

open Enumeration

variable {opened : List OpenScope} {tokens behind : List Token} {engine after : Engine}
  {values : Nat → Int} {kind : ListKind}

/-- The scopes of enumerations are counted. -/
theorem Encloses.enumerationDepth (encloses : Encloses opened tokens engine) :
    engine.enumerationDepth = enumerationsIn opened := by
  have inner := encloses.inner
  have owner := encloses.owner
  rw [Engine.enumerationDepth, Scopes.owners, Scopes.frames]
  generalize engine.scopes.inner = frames at inner
  clear encloses
  induction inner with
  | nil => simp [owner, enumerationsIn]
  | @cons enclosed frame opened frames fits _ ih =>
      cases enclosed with
      | group =>
          rw [show frame = _ from fits]
          simpa [enumerationsIn, plainFrame, Frame.fresh] using ih
      | command id name =>
          rw [show frame = _ from fits]
          simpa [enumerationsIn, plainFrame, Frame.fresh, FrameOwner.ofCommand, opensEnvironment]
            using ih
      | environment name =>
          obtain ⟨id, rfl⟩ := fits
          rw [enumerationsIn] at ih
          rw [enumerationsIn, List.count_cons, ← ih, List.cons_append, List.filterMap_cons]
          simp [plainFrame, Frame.fresh, ownerOf, opensEnvironment, List.countP_cons]

/-- The templates are found from inside of lists. -/
theorem Encloses.template? (encloses : Encloses opened tokens engine) (templates : engine.Templates)
    {level : Nat} (small : level < 4) :
    engine.scopes.template? ("the" ++ counter level) = some (template level) := by
  have other : "the" ++ counter level ≠ "item" := by
    revert level
    decide
  rw [Scopes.template?, encloses.command?_of_ne_item other, templates level small]
  rfl

/-- What is open and ahead, and the values of the counters of the enumerations that are
open. -/
structure Counts (opened : List OpenScope) (values : Nat → Int) (tokens : List Token)
    (engine : Engine) : Prop where
  encloses : Encloses opened tokens engine
  templates : engine.Templates
  counters : ∃ now, engine.counters = Enumeration.counters now ∧
    ∀ level < enumerationsIn opened, now level = values level

namespace Counts

/-- Only the input, and what does not matter for counters, has changed. -/
theorem change (counts : Counts opened values tokens engine)
    (encloses : Encloses opened behind after) (base : after.scopes.base = engine.scopes.base)
    (counters : after.counters = engine.counters) : Counts opened values behind after where
  encloses := encloses
  templates level small := by rw [base, counts.templates level small]
  counters := counters ▸ counts.counters

/-- The nodes of the document do not matter. -/
theorem setDocument (counts : Counts opened values tokens engine) (document : Document) :
    Counts opened values tokens { engine with document } :=
  counts.change (counts.encloses.change counts.encloses.ahead counts.encloses.inner
    counts.encloses.known rfl rfl) rfl rfl

/-- A list begins. -/
theorem opens (counts : Counts opened values tokens engine)
    (few : kind.inside (enumerationsIn opened) ≤ 4) {position : Option Position}
    (comes : Comes (engine.opened kind.name position) (.environment kind.name :: opened) behind
      after) :
    Counts (.environment kind.name :: opened) (kind.values values (enumerationsIn opened) 0) behind
      after := by
  obtain ⟨now, isNow, agrees⟩ := counts.counters
  have depth := comes.encloses.enumerationDepth
  rw [kind.enumerationsIn_cons] at depth
  have isDepth : (engine.scopesInside kind.name).owners.countP (opensEnvironment "enumerate") =
      kind.inside (enumerationsIn opened) := by
    rw [← depth, comes.changes]
    rfl
  have isCounters : after.counters = (engine.opened kind.name position).counters := by
    rw [comes.changes]
  refine ⟨comes.encloses, ?_, ?_⟩
  · intro level small
    rw [comes.changes]
    simp only [Engine.opened, counts.encloses.scopesInside_eq]
    exact counts.templates level small
  · rw [isCounters, Engine.opened, isDepth, kind.enumerationsIn_cons]
    by_cases isEnumeration : kind = .enumerate
    · subst isEnumeration
      simp only [ListKind.inside, if_true] at few ⊢
      refine ⟨update now (enumerationsIn opened) 0, ?_, ?_⟩
      · rw [if_pos ListKind.name_enumerate, isNow]
        exact restart_counters now (by omega)
      · intro level inner
        simp only [ListKind.values, if_true, numberAt, update]
        grind
    · have other : kind.name ≠ "enumerate" := fun same =>
        isEnumeration (ListKind.name_eq_enumerate.mp same)
      simp only [if_neg other, ListKind.inside, ListKind.values, if_neg isEnumeration]
      exact ⟨now, isNow, agrees⟩

/-- An item of an enumeration steps the counter of the enumeration, which is printed as the
number that belongs to its position. -/
theorem stepped {position : Nat}
    (counts : Counts (.environment "enumerate" :: opened)
      (update values (enumerationsIn opened) (numberAt position)) tokens engine)
    (few : enumerationsIn opened < 4) :
    (∃ now, engine.stepped.counters = Enumeration.counters now ∧
        ∀ level ≤ enumerationsIn opened,
          now level = update values (enumerationsIn opened) (numberAt (position + 1)) level) ∧
      engine.stepped.printed? engine.itemCounter =
        some (label (enumerationsIn opened) (numberAt (position + 1)), []) := by
  obtain ⟨now, isNow, agrees⟩ := counts.counters
  have isCount : enumerationsIn (.environment "enumerate" :: opened) = enumerationsIn opened + 1 :=
    ListKind.enumerate.enumerationsIn_cons opened
  rw [isCount] at agrees
  have isCounter : engine.itemCounter = counter (enumerationsIn opened) := by
    rw [itemCounter, counts.encloses.enumerationDepth, isCount, Nat.add_sub_cancel,
      Nat.min_eq_left (by omega)]
    rfl
  have isValue : now (enumerationsIn opened) = numberAt position := by
    rw [agrees _ (Nat.lt_succ_self _), update_self]
  have isStepped : engine.stepped.counters =
      Enumeration.counters (update now (enumerationsIn opened) (numberAt (position + 1))) := by
    rw [Engine.stepped, isCounter, isNow, step?_counters now few isValue]
    rfl
  refine ⟨⟨_, isStepped, ?_⟩, ?_⟩
  · intro level inner
    have outer : level < enumerationsIn opened → now level = values level := fun outer =>
      (agrees level (by omega)).trans (update_of_lt values _ outer)
    grind [update]
  · have isTemplate : engine.stepped.scopes.template? ("the" ++ counter (enumerationsIn opened)) =
        some (template (enumerationsIn opened)) :=
      counts.encloses.template? counts.templates few
    rw [printed?, isCounter, isTemplate, isStepped, Option.map_some,
      render_template _ few (update_self _ _ _) (by simp [numberAt, maxNumber])]

/-- An item begins, and gets the number that belongs to its position. -/
theorem steps {position : Nat} {before : List Token}
    (counts : Counts (.environment kind.name :: opened)
      (kind.values values (enumerationsIn opened) position) before engine)
    (few : kind.inside (enumerationsIn opened) ≤ 4) {place : Option Position}
    (comes : Comes (engine.itemized kind.name place) (.environment kind.name :: opened) behind
      after) :
    Counts (.environment kind.name :: opened)
        (kind.values values (enumerationsIn opened) (position + 1)) behind after ∧
      after.document = (engine.document.create (itemNode place
        (kind.number? (enumerationsIn opened) (position + 1)) engine.scopes.depth)).2 := by
  obtain ⟨now, isNow, agrees⟩ := counts.counters
  have isDocument : after.document = (engine.itemized kind.name place).document := by
    rw [comes.changes]
  have isCounters : after.counters = (engine.itemized kind.name place).counters := by
    rw [comes.changes]
  have templates : after.Templates := by
    intro level small
    rw [comes.changes]
    rw [scopes_itemized]
    exact counts.templates level small
  by_cases isEnumeration : kind = .enumerate
  · subst isEnumeration
    simp only [ListKind.inside, ListKind.values, if_true] at few counts ⊢
    obtain ⟨⟨later, isLater, still⟩, isPrinted⟩ := counts.stepped (by omega)
    rw [itemized, if_pos ListKind.name_enumerate, numbered] at isDocument isCounters
    refine ⟨⟨comes.encloses, templates, later, isCounters.trans isLater, ?_⟩, ?_⟩
    · intro level inner
      rw [ListKind.enumerationsIn_cons] at inner
      exact still level (Nat.lt_succ_iff.mp inner)
    · rw [isDocument, isPrinted]
      rfl
  · have other : kind.name ≠ "enumerate" := fun same =>
      isEnumeration (ListKind.name_eq_enumerate.mp same)
    rw [itemized, if_neg other] at isDocument isCounters
    refine ⟨⟨comes.encloses, templates, now, isCounters.trans isNow, ?_⟩, ?_⟩
    · intro level inner
      rw [agrees level inner]
      simp only [ListKind.values, if_neg isEnumeration]
    · rw [isDocument, bulleted, ListKind.number?, if_neg isEnumeration]

/-- A list ends, and the counters around it are what they were. -/
theorem ends {position : Nat}
    (counts : Counts (.environment kind.name :: opened)
      (kind.values values (enumerationsIn opened) position) tokens engine)
    {place : Option Position}
    (comes : Comes (engine.closed kind.name place) opened behind after) :
    Counts opened values behind after := by
  obtain ⟨now, isNow, agrees⟩ := counts.counters
  refine ⟨comes.encloses, ?_, now, ?_, ?_⟩
  · intro level small
    rw [comes.changes]
    exact counts.templates level small
  · rw [comes.changes]
    exact isNow
  · intro level inner
    have outer : level < enumerationsIn (.environment kind.name :: opened) := by
      rw [kind.enumerationsIn_cons, ListKind.inside]
      split <;> omega
    rw [agrees level outer, kind.values_of_lt values position inner]

end Counts

end Engine

end TexTree
