import TexTree.Proofs.Counter.Interpreting

/-!
# Superiors of counters end

A counter is subordinate to none, or to one that was there when it was created.  Counters
are never removed and never get another superior, so in the order of their creation every
superior stands before the counters below it (`Counters.Ordered`).  Going from a counter
to its superior therefore leads to an earlier counter, and ends.

The order is kept by everything that changes counters, whatever commands are used with
whatever arguments, and also if they fail (`Reached.ordered`).
-/

namespace TexTree

namespace Counters

variable {counters : Counters}

/-- The superior of each counter was created before it. -/
def Ordered (counters : Counters) : Prop :=
  ∀ earlier counter later, counters.list = earlier ++ counter :: later →
    ∀ above ∈ counter.resetBy, above ∈ earlier.map Counter.name

theorem contains_iff_mem {name : String} :
    counters.contains name = true ↔ name ∈ counters.list.map Counter.name := by
  simp [contains, get?]

theorem ordered_empty : Ordered empty := by
  intro earlier counter later isList
  simp [empty] at isList

theorem Ordered.create {created : Counters} {name : String} {superior : Option String}
    (ordered : counters.Ordered) (exist : ∀ above ∈ superior, counters.contains above = true)
    (isCreated : counters.create? name superior 0 = some created) : created.Ordered := by
  unfold create? at isCreated
  split at isCreated
  · cases isCreated
  cases isCreated
  intro earlier counter later isList above isAbove
  rcases List.eq_nil_or_concat later with rfl | ⟨before, last, rfl⟩
  · -- The counter is the new one.
    obtain ⟨rfl, rfl⟩ := List.append_inj' isList rfl |>.imp_right List.head_eq_of_cons_eq
    exact contains_iff_mem.mp (exist above isAbove)
  · rw [List.concat_eq_append, ← List.cons_append, ← List.append_assoc] at isList
    exact ordered earlier counter before (List.append_inj' isList rfl).1 above isAbove

/-- Only the values of counters change when one of them is set. -/
theorem update_eq_map (counters : Counters) (name : String) (change : Int → Int) :
    ∃ changeOf : Counter → Counter,
      (∀ counter, (changeOf counter).name = counter.name ∧
        (changeOf counter).resetBy = counter.resetBy) ∧
      (counters.update name change).list = counters.list.map changeOf := by
  refine ⟨_, fun counter => ?_, rfl⟩
  split
  · exact ⟨rfl, rfl⟩
  · split <;> exact ⟨rfl, rfl⟩

theorem Ordered.update (ordered : counters.Ordered) (name : String) (change : Int → Int) :
    (counters.update name change).Ordered := by
  obtain ⟨changeOf, keeps, isMap⟩ := counters.update_eq_map name change
  intro earlier counter later isList above isAbove
  rw [isMap, List.map_eq_append_iff] at isList
  obtain ⟨before, rest, isList, rfl, isRest⟩ := isList
  obtain ⟨old, after, rfl, rfl, rfl⟩ := List.map_eq_cons_iff.mp isRest
  rw [(keeps old).2] at isAbove
  have member := ordered before old after isList above isAbove
  have names : Counter.name ∘ changeOf = Counter.name := funext fun counter => (keeps counter).1
  rwa [List.map_map, names]

theorem Ordered.update? {changed : Counters} {name : String} {change : Int → Int}
    (ordered : counters.Ordered) (isChanged : counters.update? name change = some changed) :
    changed.Ordered := by
  unfold Counters.update? at isChanged
  split at isChanged
  · cases isChanged
    exact ordered.update name change
  · cases isChanged

/-- The order of creation is upheld by all changes of counters. -/
theorem upheldFreely_ordered : UpheldFreely Ordered where
  create := Ordered.create
  add := Ordered.update?
  clear := Ordered.update?
  set := Ordered.update?

/-! ## Following superiors -/

/-- The counter that is reached from another one by going to the superior so many
times. -/
def above? (counters : Counters) : Nat → String → Option String
  | 0, name => some name
  | steps + 1, name => (counters.superior? name).bind (counters.above? steps)

/-- The superior of one of the first counters is one of those before it. -/
theorem Ordered.superior? (ordered : counters.Ordered) {earlier later : List Counter}
    (isList : counters.list = earlier ++ later) {name above : String}
    (member : name ∈ earlier.map Counter.name) (isAbove : counters.superior? name = some above) :
    ∃ before counter rest, earlier = before ++ counter :: rest ∧
      above ∈ before.map Counter.name := by
  obtain ⟨counter, found, isSuperior⟩ := Option.bind_eq_some_iff.mp isAbove
  obtain ⟨known, memberKnown, named⟩ := List.mem_map.mp member
  have isFirst : earlier.find? (fun counter => counter.name == name) = some counter := by
    unfold get? at found
    rw [isList, List.find?_append] at found
    cases first : earlier.find? fun counter => counter.name == name with
    | none => simpa [named] using List.find?_eq_none.mp first known memberKnown
    | some other => simpa [first] using found
  obtain ⟨-, before, rest, rfl, -⟩ := List.find?_eq_some_iff_append.mp isFirst
  refine ⟨before, counter, rest, rfl, ordered before counter (rest ++ later) ?_ above isSuperior⟩
  simpa using isList

/-- Going from one of the first counters to its superior leads to fewer and fewer
counters. -/
theorem Ordered.above?_of_mem (ordered : counters.Ordered) {earlier later : List Counter}
    (isList : counters.list = earlier ++ later) {name : String}
    (member : name ∈ earlier.map Counter.name) :
    ∃ steps ≤ earlier.length, counters.above? steps name = none := by
  induction size : earlier.length using Nat.strongRecOn
    generalizing earlier later name with
  | _ size ih =>
      subst size
      cases isAbove : counters.superior? name with
      | none =>
          have nonempty : 0 < earlier.length := by
            simpa using List.length_pos_of_mem member
          exact ⟨1, nonempty, by rw [above?, isAbove]; rfl⟩
      | some above =>
          obtain ⟨before, counter, rest, rfl, memberAbove⟩ :=
            ordered.superior? isList member isAbove
          rw [List.append_assoc] at isList
          obtain ⟨steps, few, ends⟩ := ih before.length (by simp) isList memberAbove rfl
          refine ⟨steps + 1, ?_, by rw [above?, isAbove]; exact ends⟩
          rw [List.length_append, List.length_cons]
          omega

/-- Going to the superior ends after at most as many steps as there are counters, or at
once for a name that is no counter. -/
theorem Ordered.above?_eq_none (ordered : counters.Ordered) (name : String) :
    ∃ steps ≤ counters.list.length + 1, counters.above? steps name = none := by
  by_cases member : name ∈ counters.list.map Counter.name
  · obtain ⟨steps, few, ends⟩ := ordered.above?_of_mem (List.append_nil _).symm member
    exact ⟨steps, by omega, ends⟩
  · have unknown : counters.get? name = none := by
      rw [← Option.not_isSome_iff_eq_none]
      exact fun exist => member (contains_iff_mem.mp exist)
    exact ⟨1, by omega, by simp [above?, Counters.superior?, unknown]⟩

/-- The superior of a counter exists. -/
theorem Ordered.contains (ordered : counters.Ordered) {counter : Counter}
    (member : counter ∈ counters.list) {above : String} (isAbove : above ∈ counter.resetBy) :
    counters.contains above = true := by
  obtain ⟨earlier, later, isList⟩ := List.append_of_mem member
  have memberAbove := ordered earlier counter later isList above isAbove
  rw [contains_iff_mem, isList, List.map_append]
  exact List.mem_append_left _ memberAbove

end Counters

namespace Engine

variable {engine : Engine}

/-- The engines that come about by commands with any arguments, also by commands that
fail: definitions of counters and theorems, the loading of classes, numbered elements,
and everything else that a source can ask for. -/
inductive Reached : Engine → Prop where
  | fresh (settings : Settings) (files : Files) (date : Date)
      (libraries : Table (List Element)) : Reached (fresh settings files date libraries)
  /-- There is something else to be read. -/
  | given {engine : Engine} (reached : Reached engine) (input : Input) :
      Reached { engine with input }
  | command {engine : Engine} (reached : Reached engine) (fuel : Nat) (token : Token)
      (action : Action) : Reached (left (perform (interpreter fuel) token action engine))
  | loaded {engine : Engine} (reached : Reached engine) (fuel : Nat) (kind : PackageKind)
      (options : List String) (name : String) :
      Reached (left (loadPackage (interpreter fuel) kind options name engine))
  | numbered {engine : Engine} (reached : Reached engine) (node : NodeId) (counter : String) :
      Reached (left (number node counter engine))
  | task {engine : Engine} (reached : Reached engine) (fuel : Nat) {α : Type} (task : Task α) :
      Reached (left (runTask fuel task engine))
  | text {engine : Engine} (reached : Reached engine) (fuel : Nat) (text : String) :
      Reached (left (parseTextWithin fuel text engine))
  | file {engine : Engine} (reached : Reached engine) (fuel : Nat) (path : String) :
      Reached (left (parseFileWithin fuel path engine))

theorem Reached.ordered (reached : Reached engine) : engine.counters.Ordered := by
  have upheld := Counters.upheldFreely_ordered
  induction reached with
  | fresh settings files date libraries =>
      exact counters_fresh upheld.toUpheld Counters.ordered_empty settings files date libraries
  | given _ _ ih => exact ih
  | command _ fuel token action ih =>
      exact upholds_perform upheld (upholds_interpreter upheld fuel) token action _ ih
  | loaded _ fuel kind options name ih =>
      exact upholds_loadPackage upheld.toUpheld (upholds_interpreter upheld fuel) kind options name
        _ ih
  | numbered _ node counter ih => exact upholds_number upheld.toUpheld node counter _ ih
  | task _ fuel task ih => exact upholds_interpreter upheld fuel task _ ih
  | text _ fuel text ih => exact upholds_parseText upheld fuel text _ ih
  | file _ fuel path ih => exact upholds_parseFile upheld fuel path _ ih

/-- In every state that an engine can be brought into, the superior of every counter
exists, and going from any counter to its superior ends. -/
theorem superiors_end (reached : Reached engine) :
    (∀ counter ∈ engine.counters.list, ∀ above ∈ counter.resetBy,
      engine.counters.contains above = true) ∧
    ∀ name, ∃ steps ≤ engine.counters.list.length + 1,
      engine.counters.above? steps name = none :=
  ⟨fun _ member _ isAbove => reached.ordered.contains member isAbove,
    reached.ordered.above?_eq_none⟩

/-- A theorem is to be numbered below a section, which fails as long as there is no counter
for sections, and succeeds when there is one.  The class that is loaded behind it leaves
this counter as it is, so that the counters below it end with it. -/
theorem superiors_end_classes :
    let perform (engine : Engine) (action : Action) (arguments : String) : Engine :=
      left (perform (interpreter 60) (.control "newtheorem") action
        { engine with input := Input.empty.pushText arguments "" })
    let fresh := fresh {} default ⟨2021, 3, 4⟩ .empty
    let failed := perform fresh .newTheorem "\x7bthm\x7d\x7bT\x7d[section]"
    let created := perform failed .newCounter "\x7bsection\x7d"
    let succeeded := perform created .newTheorem "\x7bthm\x7d\x7bT\x7d[section]"
    let engine := left (loadPackage (interpreter 60) .documentClass [] "book" succeeded)
    (engine.counters.list.drop 4).map (fun counter => (counter.name, counter.resetBy)) =
      [("section", none), ("thm", some "section"), ("part", none), ("chapter", none),
        ("figure", some "chapter"), ("table", some "chapter"), ("equation", some "chapter"),
        ("subsection", some "section"), ("subsubsection", some "subsection"),
        ("paragraph", some "subsubsection"), ("subparagraph", some "paragraph"),
        ("subsubparagraph", some "subparagraph"), ("footnote", some "chapter")] ∧
      (∀ counter ∈ engine.counters.list, ∀ above ∈ counter.resetBy,
        engine.counters.contains above = true) ∧
      ∀ name, ∃ steps ≤ engine.counters.list.length + 1,
        engine.counters.above? steps name = none := by
  intro perform fresh failed created succeeded engine
  have performed : ∀ {engine : Engine} (action : Action) (arguments : String),
      engine.Reached → (perform engine action arguments).Reached :=
    fun action arguments reached => .command (.given reached _) 60 _ action
  have reached : engine.Reached :=
    .loaded (performed _ _ (performed _ _ (performed _ _ (.fresh _ _ _ _)))) 60 .documentClass [] _
  exact ⟨by decide +kernel, superiors_end reached⟩

end Engine

end TexTree
