import TexTree.Proofs.Engine.Scoping

/-!
# The bookkeeping of a session

Besides the scopes, an engine keeps the names of the open environments and the number of
open lists.  They should mirror the scopes: the names are those of the open scopes that
belong to an environment, and the number is that of the lists among them, up to the bound
of one byte (`Bookkeeping.Mirrored`).

What is closed together with something else is not taken off, however.  A group, an
environment, a formula, the document and a command with an argument close all that is open
inside of them, and all scopes there are if their own has been closed already.  But only the
end of an environment and that of a formula take a name off, and only one, and only the end
of a list counts down.  This module says for each event of a source when the bookkeeping
still mirrors what is open behind it (`Bookkeeping.Mirrored.record_iff`), and from it for all
events of a source (`Bookkeeping.Mirrored.forall_record_iff`).
-/

namespace TexTree

open Engine (around braced outside)

/-- The names of the open environments, the innermost first. -/
def environmentsIn (opened : List OpenScope) : List String :=
  opened.filterMap OpenScope.environment?

/-- How many lists are open. -/
def listsIn (opened : List OpenScope) : Nat :=
  (environmentsIn opened).countP (· ∈ Builtin.listNames)

/-- The environments that are open inside of the innermost scope of a kind. -/
def environmentsWithin (enclosed : OpenScope) (opened : List OpenScope) : List String :=
  environmentsIn (opened.takeWhile fun inner => !(inner == enclosed))

section Outside

variable {enclosed : OpenScope} {opened : List OpenScope}

theorem takeWhile_append_outside (isOpen : enclosed ∈ opened) :
    opened.takeWhile (fun inner => !(inner == enclosed)) ++ enclosed :: outside enclosed opened =
      opened := by
  induction opened with
  | nil => cases isOpen
  | cons inner rest ih =>
      by_cases same : inner = enclosed
      · simp [outside, same]
      · have isInner := ih (List.mem_of_ne_of_mem (Ne.symm same) isOpen)
        simpa [outside, same] using isInner

/-- If no scope of the kind is open, all are closed. -/
theorem outside_eq_nil (notOpen : enclosed ∉ opened) : outside enclosed opened = [] := by
  induction opened with
  | nil => rfl
  | cons inner rest ih =>
      obtain ⟨other, notInner⟩ := List.ne_and_not_mem_of_not_mem_cons notOpen
      simpa [outside, Ne.symm other] using ih notInner

/-- The open environments are those inside of a scope, its own, and those around. -/
theorem environmentsIn_eq (isOpen : enclosed ∈ opened) :
    environmentsIn opened = environmentsWithin enclosed opened ++
      (enclosed.environment?.toList ++ environmentsIn (outside enclosed opened)) := by
  conv_lhs => rw [← takeWhile_append_outside isOpen]
  rw [environmentsIn, List.filterMap_append, List.filterMap_cons]
  cases enclosed <;> rfl

/-- An environment is not open inside of the innermost one with its name. -/
theorem not_mem_environmentsWithin (opened : List OpenScope) (name : String) :
    name ∉ environmentsWithin (.environment name) opened := by
  intro inside
  obtain ⟨scope, member, isNamed⟩ := List.mem_filterMap.mp inside
  have other := List.mem_takeWhile_imp member
  cases scope with
  | group | command _ _ => cases isNamed
  | environment inner =>
      cases isNamed
      simp at other

end Outside

/-! ## Events -/

/-- What may stand in the argument of a command: characters, and environments and formulas
that begin. -/
inductive Event.Entry where
  | character (token : Token)
  | openEnvironment (name : String)
  | openFormula (kind : FormulaKind)

/-- What may stand in a source. -/
inductive Event where
  | entry (entry : Event.Entry)
  | paragraph
  | openGroup
  | closeGroup
  | closeEnvironment (name : String)
  | closeFormula (kind : FormulaKind)
  | beginDocument
  | endDocument
  /-- A command whose argument is its content. -/
  | command (name : String) (content : List Event.Entry)

namespace Event.Entry

def tokens : Event.Entry → List Token
  | .character token => [token]
  | .openEnvironment name => .control "begin" :: braced name []
  | .openFormula kind => [.control kind.opener]

/-- Whether an environment begins. -/
def opens : Event.Entry → Bool
  | .character _ => false
  | .openEnvironment _ | .openFormula _ => true

/-- The environments that begin are known, and the document is not one of them. -/
def Allowed : Event.Entry → Prop
  | .character token =>
      token.category = .letter ∨ token.category = .other ∨ token.category = .space
  | .openEnvironment name => name ∈ Builtin.enclosureNames ∧ name ≠ "document"
  | .openFormula _ => True

instance decidableAllowed : ∀ entry, Decidable (Allowed entry)
  | .character token => inferInstanceAs (Decidable (token.category = .letter ∨
      token.category = .other ∨ token.category = .space))
  | .openEnvironment name =>
      inferInstanceAs (Decidable (name ∈ Builtin.enclosureNames ∧ name ≠ "document"))
  | .openFormula _ => .isTrue trivial

end Event.Entry

/-- What is open, and what is recorded about it. -/
structure Bookkeeping where
  opened : List OpenScope
  /-- The formulas that a delimiter has opened and none has closed, the last one first. -/
  formulas : List String
  environments : List String
  listDepth : Nat

namespace Bookkeeping

/-- Nothing is open. -/
def initial : Bookkeeping := ⟨[], [], [], 0⟩

/-- What is recorded is what is open. -/
def Mirrored (book : Bookkeeping) : Prop :=
  book.environments = environmentsIn book.opened ∧
    book.listDepth = min (listsIn book.opened) Engine.maxListDepth

/-- What is recorded behind the beginning of an environment. -/
def begin (book : Bookkeeping) (name : String) : Bookkeeping :=
  { book with
    opened := .environment name :: around name book.opened
    environments := name :: book.environments
    listDepth :=
      if name ∈ Builtin.listNames then min (book.listDepth + 1) Engine.maxListDepth
      else book.listDepth }

/-- What is recorded behind the end of an environment. -/
def finish (book : Bookkeeping) (name : String) : Bookkeeping :=
  { book with
    opened := outside (.environment name) book.opened
    environments := book.environments.drop 1
    listDepth := if name ∈ Builtin.listNames then book.listDepth - 1 else book.listDepth }

/-- What is recorded behind an entry. -/
def enter (book : Bookkeeping) : Event.Entry → Bookkeeping
  | .character _ => book
  | .openEnvironment name => book.begin name
  | .openFormula kind => { book.begin kind.name with formulas := kind.name :: book.formulas }

/-- What is recorded behind an event.  The scope of a command is closed with all that was
opened in its argument. -/
def record (book : Bookkeeping) : Event → Bookkeeping
  | .entry entry => book.enter entry
  | .paragraph => book
  | .openGroup => { book with opened := .group :: book.opened }
  | .closeGroup => { book with opened := outside .group book.opened }
  | .closeEnvironment name => book.finish name
  | .closeFormula kind => { book.finish kind.name with formulas := book.formulas.drop 1 }
  | .beginDocument => book.begin "document"
  | .endDocument => book.finish "document"
  | .command _ content => { content.foldl enter book with opened := book.opened }

end Bookkeeping

namespace Event

def tokens : Event → List Token
  | .entry one => one.tokens
  | .paragraph => [.control "par"]
  | .openGroup => [.beginGroup]
  | .closeGroup => [.endGroup]
  | .closeEnvironment name => .control "end" :: braced name []
  | .closeFormula kind => [.control kind.closer]
  | .beginDocument => .control "begin" :: braced "document" []
  | .endDocument => .control "end" :: braced "document" []
  | .command name content =>
      .control name :: .beginGroup :: (content.flatMap Event.Entry.tokens ++ [.endGroup])

/-- An event does not fail.  Only what is open can be closed, and a formula only by the
delimiter that belongs to the one that has opened it. -/
def Allowed (book : Bookkeeping) : Event → Prop
  | .entry one => one.Allowed
  | .paragraph | .openGroup | .beginDocument => True
  | .closeGroup => .group ∈ book.opened
  | .closeEnvironment name => name ≠ "document" ∧ .environment name ∈ book.opened
  | .closeFormula kind => book.formulas.head? = some kind.name
  | .endDocument => .environment "document" ∈ book.opened
  | .command name content => name ∈ Builtin.fontNames ∧ ∀ entry ∈ content, entry.Allowed

/-- An event closes no environment but the one that it is named for.  A formula that has been
closed otherwise closes everything, but still takes one name off. -/
def Tidy (book : Bookkeeping) : Event → Prop
  | .entry _ | .paragraph | .openGroup => True
  | .closeGroup => environmentsWithin .group book.opened = []
  | .closeEnvironment name =>
      environmentsWithin (.environment name) book.opened = [] ∧
        (name ∈ Builtin.listNames → listsIn book.opened ≤ Engine.maxListDepth)
  | .closeFormula kind =>
      .environment kind.name ∈ book.opened ∧
          environmentsWithin (.environment kind.name) book.opened = [] ∨
        .environment kind.name ∉ book.opened ∧ (environmentsIn book.opened).length ≤ 1 ∧
          listsIn book.opened = 0
  | .beginDocument => environmentsIn book.opened = []
  | .endDocument => environmentsWithin (.environment "document") book.opened = []
  | .command _ content => ∀ entry ∈ content, entry.opens = false

/-- Whether nothing is read behind an event. -/
def endsInput : Event → Bool
  | .endDocument => true
  | _ => false

/-- How many tasks inside of each other an event takes: each environment in an argument takes up
what is behind it. -/
def nesting : Event → Nat
  | .command _ content => content.length + 1
  | _ => 0

instance decidableAllowed (book : Bookkeeping) : ∀ event, Decidable (Allowed book event)
  | .entry one => inferInstanceAs (Decidable one.Allowed)
  | .paragraph | .openGroup | .beginDocument => .isTrue trivial
  | .closeGroup => inferInstanceAs (Decidable (.group ∈ book.opened))
  | .closeEnvironment name =>
      inferInstanceAs (Decidable (name ≠ "document" ∧ .environment name ∈ book.opened))
  | .closeFormula kind => inferInstanceAs (Decidable (book.formulas.head? = some kind.name))
  | .endDocument => inferInstanceAs (Decidable (.environment "document" ∈ book.opened))
  | .command name content =>
      inferInstanceAs (Decidable (name ∈ Builtin.fontNames ∧ ∀ entry ∈ content, entry.Allowed))

instance decidableTidy (book : Bookkeeping) : ∀ event, Decidable (Tidy book event)
  | .entry _ | .paragraph | .openGroup => .isTrue trivial
  | .closeGroup => inferInstanceAs (Decidable (environmentsWithin .group book.opened = []))
  | .closeEnvironment name => inferInstanceAs (Decidable
      (environmentsWithin (.environment name) book.opened = [] ∧
        (name ∈ Builtin.listNames → listsIn book.opened ≤ Engine.maxListDepth)))
  | .closeFormula kind => inferInstanceAs (Decidable
      (.environment kind.name ∈ book.opened ∧
          environmentsWithin (.environment kind.name) book.opened = [] ∨
        .environment kind.name ∉ book.opened ∧ (environmentsIn book.opened).length ≤ 1 ∧
          listsIn book.opened = 0))
  | .beginDocument => inferInstanceAs (Decidable (environmentsIn book.opened = []))
  | .endDocument => inferInstanceAs (Decidable
      (environmentsWithin (.environment "document") book.opened = []))
  | .command _ content => inferInstanceAs (Decidable (∀ entry ∈ content, entry.opens = false))

/-- Events that do not fail, one after the other.  Nothing stands behind the end of the
document. -/
def Accepted : Bookkeeping → List Event → Prop
  | _, [] => True
  | book, event :: rest =>
      event.Allowed book ∧ (event.endsInput = true → rest = []) ∧
        Accepted (book.record event) rest

/-- Events that close no environment but the one that they are named for, one after the
other. -/
def Tidily : Bookkeeping → List Event → Prop
  | _, [] => True
  | book, event :: rest => event.Tidy book ∧ Tidily (book.record event) rest

instance decidableAccepted : ∀ book events, Decidable (Accepted book events)
  | _, [] => .isTrue trivial
  | book, event :: rest =>
      have := decidableAccepted (book.record event) rest
      have : Decidable (rest = []) := decidable_of_iff _ List.isEmpty_iff
      inferInstanceAs (Decidable (event.Allowed book ∧ (event.endsInput = true → rest = []) ∧
        Accepted (book.record event) rest))

instance decidableTidily : ∀ book events, Decidable (Tidily book events)
  | _, [] => .isTrue trivial
  | book, event :: rest =>
      have := decidableTidily (book.record event) rest
      inferInstanceAs (Decidable (event.Tidy book ∧ Tidily (book.record event) rest))

end Event

/-! ## When the bookkeeping mirrors what is open -/

namespace Bookkeeping

variable {book : Bookkeeping}

theorem enter_of_not_opens {entry : Event.Entry} (plain : entry.opens = false) :
    book.enter entry = book := by
  cases entry with
  | character token => rfl
  | openEnvironment name => cases plain
  | openFormula kind => cases plain

/-- Each environment that begins has its name recorded. -/
theorem length_environments_foldl (book : Bookkeeping) (content : List Event.Entry) :
    (content.foldl enter book).environments.length =
      book.environments.length + content.countP Event.Entry.opens := by
  induction content generalizing book with
  | nil => rfl
  | cons entry rest ih =>
      rw [List.foldl_cons, ih]
      cases entry with
      | character token => rfl
      | openEnvironment name | openFormula kind =>
          simp only [enter, begin, List.length_cons, Event.Entry.opens, List.countP_cons, if_true]
          omega

/-- What is open does not matter for what is recorded. -/
theorem foldl_enter_opened (book : Bookkeeping) (content : List Event.Entry)
    (opened opened' : List OpenScope) :
    { content.foldl enter { book with opened := opened' } with opened := opened } =
      { content.foldl enter book with opened := opened } := by
  induction content generalizing book opened' with
  | nil => rfl
  | cons entry rest ih =>
      rw [List.foldl_cons, List.foldl_cons]
      cases entry with
      | character token => exact ih book opened'
      | openEnvironment name =>
          exact ih (book.enter (.openEnvironment name)) (.environment name :: around name opened')
      | openFormula kind =>
          exact ih (book.enter (.openFormula kind))
            (.environment kind.name :: around kind.name opened')

namespace Mirrored

/-- The end of a group takes no name off, so that no environment may be closed with it. -/
theorem closeGroup_iff (mirrored : book.Mirrored) (isOpen : .group ∈ book.opened) :
    (book.record .closeGroup).Mirrored ↔ Event.closeGroup.Tidy book := by
  obtain ⟨isNames, isDepth⟩ := mirrored
  have names := environmentsIn_eq isOpen
  simp only [OpenScope.environment?, Option.toList_none, List.nil_append] at names
  simp only [Mirrored, record, Event.Tidy]
  rw [isNames, isDepth, listsIn, listsIn, names]
  constructor
  · rintro ⟨sameNames, _⟩
    exact List.append_left_eq_self.mp sameNames
  · intro isEmpty
    simp [isEmpty]

/-- The end of an environment takes one name off, so that only one environment may end, and
the bound on the number of lists must not have been passed. -/
theorem finish_iff (mirrored : book.Mirrored) {name : String}
    (isOpen : .environment name ∈ book.opened) :
    (book.finish name).Mirrored ↔ environmentsWithin (.environment name) book.opened = [] ∧
      (name ∈ Builtin.listNames → listsIn book.opened ≤ Engine.maxListDepth) := by
  obtain ⟨isNames, isDepth⟩ := mirrored
  have notInside := not_mem_environmentsWithin book.opened name
  have names := environmentsIn_eq isOpen
  simp only [OpenScope.environment?, Option.toList_some, List.singleton_append] at names
  simp only [Mirrored, finish]
  rw [isNames, isDepth, listsIn, listsIn, names, List.countP_append, List.countP_cons]
  generalize environmentsWithin (.environment name) book.opened = inside at notInside
  generalize environmentsIn (outside (.environment name) book.opened) = behind
  cases inside with
  | nil =>
      by_cases isList : name ∈ Builtin.listNames
      · simp [isList, Engine.maxListDepth]
        omega
      · simp [isList]
  | cons first rest =>
      -- The name that is taken off is another one.
      have longer : rest ++ name :: behind ≠ behind := by
        intro same
        have lengths := congrArg List.length same
        simp at lengths
        omega
      simp [longer]

/-- A formula that is not open any more takes a name off, and closes everything. -/
theorem finish_iff_of_not_mem (mirrored : book.Mirrored) {name : String}
    (notOpen : .environment name ∉ book.opened) (notList : name ∉ Builtin.listNames) :
    (book.finish name).Mirrored ↔
      (environmentsIn book.opened).length ≤ 1 ∧ listsIn book.opened = 0 := by
  obtain ⟨isNames, isDepth⟩ := mirrored
  simp only [Mirrored, finish, outside_eq_nil notOpen, isNames, isDepth, if_neg notList]
  have noNames : environmentsIn [] = [] := rfl
  have noLists : listsIn [] = 0 := rfl
  rw [noNames, noLists, List.drop_eq_nil_iff]
  simp [Engine.maxListDepth]

theorem closeFormula_iff (mirrored : book.Mirrored) (kind : FormulaKind) :
    (book.record (.closeFormula kind)).Mirrored ↔ (Event.closeFormula kind).Tidy book := by
  have notList : kind.name ∉ Builtin.listNames := by cases kind <;> decide
  change (book.finish kind.name).Mirrored ↔ _
  by_cases isOpen : .environment kind.name ∈ book.opened
  · rw [mirrored.finish_iff isOpen]
    simp [Event.Tidy, isOpen, notList]
  · rw [mirrored.finish_iff_of_not_mem isOpen notList]
    simp [Event.Tidy, isOpen]

/-- An environment that begins inside of the document is recorded. -/
theorem enter (mirrored : book.Mirrored) {entry : Event.Entry} (allowed : entry.Allowed) :
    (book.enter entry).Mirrored := by
  have begins : ∀ name, name ≠ "document" → (book.begin name).Mirrored := by
    intro name other
    obtain ⟨isNames, isDepth⟩ := mirrored
    simp only [Mirrored, begin, Engine.around_of_ne other, isNames, isDepth]
    refine ⟨rfl, ?_⟩
    simp only [listsIn, environmentsIn, List.filterMap_cons, OpenScope.environment?,
      List.countP_cons, decide_eq_true_eq]
    split <;> omega
  cases entry with
  | character token => exact mirrored
  | openEnvironment name => exact begins name allowed.2
  | openFormula kind => exact begins kind.name kind.name_ne_document

/-- The document closes all scopes when it begins, and takes no names off. -/
theorem beginDocument_iff (mirrored : book.Mirrored) :
    (book.record .beginDocument).Mirrored ↔ Event.beginDocument.Tidy book := by
  have notList : "document" ∉ Builtin.listNames := by decide
  have noLists : listsIn [.environment "document"] = 0 := by decide
  obtain ⟨isNames, isDepth⟩ := mirrored
  simp only [Mirrored, record, begin, around, if_true, Event.Tidy, isNames, isDepth,
    if_neg notList, noLists]
  constructor
  · rintro ⟨sameNames, _⟩
    exact (List.cons.inj sameNames).2
  · intro isEmpty
    rw [listsIn, isEmpty]
    exact ⟨rfl, rfl⟩

/-- What begins in the argument of a command is closed with the command, but its name stays. -/
theorem command_iff (mirrored : book.Mirrored) (name : String) (content : List Event.Entry) :
    (book.record (.command name content)).Mirrored ↔ (Event.command name content).Tidy book := by
  constructor
  · rintro ⟨sameNames, _⟩ entry member
    have lengths := length_environments_foldl book content
    rw [mirrored.1] at lengths
    have noneOpens : content.countP Event.Entry.opens = 0 := by
      have same := congrArg List.length sameNames
      simp only [record] at same
      omega
    simpa using List.countP_eq_zero.mp noneOpens entry member
  · intro plain
    have same : content.foldl Bookkeeping.enter book = book := by
      clear mirrored
      induction content with
      | nil => rfl
      | cons entry rest ih =>
          rw [List.foldl_cons, enter_of_not_opens (plain entry List.mem_cons_self)]
          exact ih fun other member => plain other (List.mem_cons_of_mem _ member)
    rw [record, same]
    exact mirrored

/-- The bookkeeping mirrors what is open behind an event if and only if the event is tidy. -/
theorem record_iff (mirrored : book.Mirrored) {event : Event} (allowed : event.Allowed book) :
    (book.record event).Mirrored ↔ event.Tidy book := by
  cases event with
  | entry entry => exact iff_of_true (mirrored.enter allowed) trivial
  | paragraph | openGroup => exact iff_of_true mirrored trivial
  | closeGroup => exact mirrored.closeGroup_iff allowed
  | closeEnvironment name => exact mirrored.finish_iff allowed.2
  | closeFormula kind => exact mirrored.closeFormula_iff kind
  | beginDocument => exact mirrored.beginDocument_iff
  | endDocument =>
      have notList : "document" ∉ Builtin.listNames := by decide
      refine (mirrored.finish_iff allowed).trans ?_
      simp [Event.Tidy, notList]
  | command name content => exact mirrored.command_iff name content

/-- The bookkeeping mirrors what is open all the time if and only if all events are tidy. -/
theorem forall_record_iff (mirrored : book.Mirrored) {events : List Event}
    (accepted : Event.Accepted book events) :
    (∀ count ≤ events.length, ((events.take count).foldl record book).Mirrored) ↔
      Event.Tidily book events := by
  induction events generalizing book with
  | nil => simpa [Event.Tidily] using mirrored
  | cons event rest ih =>
      obtain ⟨allowed, _, further⟩ := accepted
      constructor
      · intro always
        have next : (book.record event).Mirrored := by
          simpa using always 1 (by simp)
        refine ⟨(mirrored.record_iff allowed).mp next, (ih next further).mp ?_⟩
        intro count inside
        simpa using always (count + 1) (by simpa using inside)
      · rintro ⟨tidy, tidily⟩ count inside
        cases count with
        | zero => exact mirrored
        | succ count =>
            have next := (mirrored.record_iff allowed).mpr tidy
            exact (ih next further).mpr tidily count (by simpa using inside)

end Mirrored

end Bookkeeping

end TexTree
