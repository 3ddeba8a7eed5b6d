import TexTree.Engine.Execution
import TexTree.Proofs.Counter.Upholding

/-!
# Commands that change counters

The commands for counters create one below a counter that has been found to exist, add to
one, or set one; numbered elements and enumerations create counters without a superior,
step them, and set them to zero.  `Counters.Upheld` collects what is needed for this to
keep a property true.
-/

namespace TexTree

/-- What holds of counters is upheld by creating a counter, if its superior exists, by
adding to a counter, and by setting one to zero. -/
structure Counters.Upheld (holds : Counters → Prop) : Prop where
  create : ∀ {counters created : Counters} {name : String} {superior : Option String},
    holds counters → (∀ above ∈ superior, counters.contains above = true) →
    counters.create? name superior 0 = some created → holds created
  add : ∀ {counters changed : Counters} {name : String} {amount : Int},
    holds counters → counters.add? name amount = some changed → holds changed
  clear : ∀ {counters changed : Counters} {name : String},
    holds counters → counters.set? name 0 = some changed → holds changed

/-- What holds of counters is upheld by all changes, whatever value a counter is set
to. -/
structure Counters.UpheldFreely (holds : Counters → Prop) : Prop extends Upheld holds where
  set : ∀ {counters changed : Counters} {name : String} {value : Int},
    holds counters → counters.set? name value = some changed → holds changed

namespace Counters

variable {holds : Counters → Prop} {counters : Counters}

/-- A counter whose superior exists is created, unless it is there already. -/
theorem Upheld.create_getD (upheld : Upheld holds) (kept : holds counters)
    {superior : Option String} (exist : ∀ above ∈ superior, counters.contains above = true)
    (name : String) : holds ((counters.create? name superior 0).getD counters) := by
  cases found : counters.create? name superior 0 with
  | none => exact kept
  | some created => exact upheld.create kept exist found

/-- Create counters with their superiors, one after the other. -/
def createAll (counters : Counters) (entries : List (String × Option String)) : Counters :=
  entries.foldl (fun counters entry => (counters.create? entry.1 entry.2 0).getD counters) counters

/-- Each superior is one of the known names, or stands before the counter below it. -/
def superiorsPrecede : List String → List (String × Option String) → Bool
  | _, [] => true
  | known, (name, superior) :: rest =>
      superior.all known.contains && superiorsPrecede (name :: known) rest

/-- A counter exists when it has been created, and those from before still do. -/
theorem contains_create_getD (counters : Counters) (name other : String)
    (superior : Option String) (value : Int)
    (known : name = other ∨ counters.contains other = true) :
    ((counters.create? name superior value).getD counters).contains other = true := by
  unfold create?
  split
  · next exist =>
      rcases known with rfl | exist'
      · exact exist
      · exact exist'
  · simp only [contains, get?, List.find?_isSome, Option.getD_some, List.mem_append] at known ⊢
    rcases known with rfl | ⟨counter, member, isOther⟩
    · exact ⟨_, .inr List.mem_cons_self, beq_self_eq_true _⟩
    · exact ⟨counter, .inl member, isOther⟩

theorem Upheld.createAll (upheld : Upheld holds) {entries : List (String × Option String)}
    {known : List String} (precede : superiorsPrecede known entries = true)
    (kept : holds counters) (exist : ∀ name ∈ known, counters.contains name = true) :
    holds (counters.createAll entries) := by
  induction entries generalizing counters known with
  | nil => exact kept
  | cons entry rest ih =>
      obtain ⟨name, superior⟩ := entry
      simp only [superiorsPrecede, Bool.and_eq_true, Option.all_eq_true, List.contains_iff_mem]
        at precede
      refine ih precede.2 (upheld.create_getD kept ?_ name) ?_
      · exact fun above isSuperior => exist above (precede.1 above isSuperior)
      · intro other member
        refine contains_create_getD counters name other superior 0 ?_
        exact (List.mem_cons.mp member).imp Eq.symm (exist other)

end Counters

namespace Engine

variable {holds : Counters → Prop} {interpreter : Interpreter}

/-! ## Counters -/

@[simp] theorem counters_createRegister (engine : Engine) (name : String) (value : Quantity) :
    (engine.createRegister name value).counters = engine.counters := rfl

@[simp, grind =] theorem counters_setTemplate (engine : Engine) (name : String)
    (template : Template) : (engine.setTemplate name template).counters = engine.counters := rfl

/-- Counters are changed if the change is possible, and else remain as they are. -/
theorem counters_changeCounters (change : Counters → Option Counters) (engine : Engine) :
    (left (changeCounters change engine)).counters =
      (change engine.counters).getD engine.counters := by
  simp only [changeCounters, modifyGet_run]
  cases change engine.counters <;> rfl

theorem upholds_changeCounters {change : Counters → Option Counters}
    (keeps : ∀ counters changed, holds counters → change counters = some changed →
      holds changed) :
    Upholds holds (changeCounters change) := by
  intro engine kept
  rw [withCounters_iff, counters_changeCounters]
  cases found : change engine.counters with
  | none => exact kept
  | some changed => exact keeps engine.counters changed kept found

theorem upholds_addCounter (upheld : Counters.Upheld holds) (name : String)
    (amount : Int) : Upholds holds (changeCounters (·.add? name amount)) :=
  upholds_changeCounters fun _ _ kept found => upheld.add kept found

theorem upholds_stepNamed (upheld : Counters.Upheld holds) (name : String) :
    Upholds holds (changeCounters (·.step? name)) := upholds_addCounter upheld name 1

@[simp] theorem counters_createCounter (engine : Engine) (name : String)
    (superior : Option String) (value : Int) :
    (engine.createCounter name superior value).counters =
      (engine.counters.create? name superior value).getD engine.counters := by
  unfold createCounter
  cases engine.counters.create? name superior value <;> rfl

/-- What comes behind the check of a superior can rely on it to exist. -/
theorem upholds_behind_checkSuperior {name : String} {superior : Option String}
    {second : PUnit → TexM PUnit}
    (upholds : ∀ engine, holds engine.counters →
      (∀ above ∈ superior, engine.counters.contains above = true) →
      holds (left (second ⟨⟩ engine)).counters) :
    Upholds holds (checkSuperior name superior >>= second) := by
  intro engine kept
  unfold checkSuperior
  cases superior with
  | none => exact upholds engine kept (by simp)
  | some above =>
      simp only [Bind.bind, EStateM.bind, get_run]
      cases contained : engine.counters.contains above with
      | false => exact kept
      | true =>
          cases cyclic : engine.counters.wouldCycle name above with
          | true => exact kept
          | false =>
              refine upholds engine kept fun other isAbove => ?_
              rw [← Option.some.inj isAbove]
              exact contained

theorem upholds_createNamedCounter (upheld : Counters.Upheld holds) :
    Upholds holds createNamedCounter := by
  unfold createNamedCounter
  refine retains_readName.bind fun name => retains_readBracketedText.bind fun superior => ?_
  refine retains_get.bind fun engine => ?_
  split
  · exact retains_warn _ _
  · refine upholds_behind_checkSuperior fun engine kept exist => ?_
    have created := upheld.create_getD kept exist name
    rwa [← counters_createCounter] at created

theorem upholds_stepCounter (upheld : Counters.Upheld holds) : Upholds holds stepCounter := by
  unfold stepCounter
  refine retains_readName.bind fun name => (upholds_stepNamed upheld name).bind fun found => ?_
  grind

theorem upholds_setCounter (upheld : Counters.UpheldFreely holds) (reads : interpreter.Reads holds)
    (token : Token) : Upholds holds (setCounter interpreter token) := by
  have changes : ∀ name value, Upholds holds (changeCounters fun counters =>
      if token.isNamed "addtocounter" then counters.add? name value
      else counters.set? name value) := by
    intro name value
    refine upholds_changeCounters fun counters changed kept found => ?_
    split at found
    · exact upheld.add kept found
    · exact upheld.set kept found
  unfold setCounter
  refine retains_readName.bind fun name => (retains_readArgumentFor _).bind fun tokens => ?_
  refine (retains_readingTokens tokens (retains_readInteger reads)).bind fun value => ?_
  refine (changes name value).bind fun found => ?_
  grind

/-! ## Numbered elements and enumerations -/

@[grind ←] theorem upholds_number (upheld : Counters.Upheld holds) (node : NodeId)
    (counter : String) : Upholds holds (number node counter) := by
  unfold number
  refine (retains_modify fun engine kept => ?_).bind fun _ => ?_
  · rw [withCounters_iff, counters_createCounter]
    exact upheld.create_getD kept (by simp) counter
  · exact (upholds_stepNamed upheld counter).bind fun _ => upholds_setCurrentLabel _

@[grind .] theorem upholds_numberByCounter (node : NodeId) (counter : String) :
    Upholds holds (numberByCounter node counter) := by
  grind [numberByCounter]

@[grind ←] theorem upholds_countList (upheld : Counters.Upheld holds) (node : NodeId)
    (mode : Mode) : Upholds holds (countList node mode) := by
  unfold countList
  split
  · refine (upholds_nodeOf _).bind fun list => ?_
    refine Retains.bind (retains_modify fun _ kept => kept) fun _ => ?_
    split
    · refine retains_get.bind fun engine => ?_
      refine Retains.bind (Retains.forIn fun counter _ => ?_) fun _ => retains_pure _
      exact (upholds_changeCounters fun _ _ kept found => upheld.clear kept found).bind fun _ =>
        retains_pure _
    · exact retains_pure _
  · exact retains_modify fun _ kept => kept
  · exact retains_pure _

@[grind ←] theorem upholds_numberItem (upheld : Counters.Upheld holds) (node : NodeId) :
    Upholds holds (numberItem node) := by
  unfold numberItem
  refine (upholds_nodeOf _).bind fun item => ?_
  dsimp only
  split
  · refine retains_get.bind fun engine => (upholds_stepNamed upheld _).bind fun _ => ?_
    exact upholds_numberByCounter _ _
  · exact retains_pure _

@[grind ←] theorem upholds_stepNamedCounter (upheld : Counters.Upheld holds) (node : NodeId) :
    Upholds holds (stepNamedCounter node) := by
  unfold stepNamedCounter
  refine (upholds_nodeOf _).bind fun element => ?_
  split
  · exact retains_pure _
  · next name _ =>
      refine (upholds_stepNamed upheld name).bind fun found => ?_
      grind

end Engine

end TexTree
