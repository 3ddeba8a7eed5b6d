import TexTree.Proofs.Counter.Changing
import TexTree.Session

/-!
# The interpreter upholds what holds of the counters

Arguments, elements, environments, formulas, packages and theorems are interpreted with
the tasks of the interpreter, and so is everything that is digested.  If the tasks inside
of them uphold a property of the counters, then they do so too, and by induction on the
number of tasks inside of each other, so does every task (`retains_runTask`).  Whole
sources uphold it as well, with those that fail.
-/

namespace TexTree

/-- An interpreter whose tasks uphold what holds of the counters. -/
def Interpreter.Upholds (holds : Counters → Prop) (interpreter : Interpreter) : Prop :=
  ∀ {α : Type} (task : Task α), Engine.Upholds holds (interpreter.run task)

@[grind →] theorem Interpreter.Upholds.reads {holds : Counters → Prop} {interpreter : Interpreter}
    (upholds : interpreter.Upholds holds) : interpreter.Reads holds :=
  fun token command => upholds (.expand token command)

namespace Engine

variable {holds : Counters → Prop} {interpreter : Interpreter}

@[grind ←] theorem upholds_run (upholds : interpreter.Upholds holds) {α : Type} (task : Task α) :
    Upholds holds (interpreter.run task) := upholds task

/-! ## Fragments and arguments -/

@[grind ←] theorem upholds_digestUntil (upholds : interpreter.Upholds holds) (parent : NodeId)
    (marker : String) : Upholds holds (digestUntil interpreter parent marker) := by
  suffices each : ∀ steps, Upholds holds (digestUntilWithin interpreter parent marker steps) from
    each _
  intro steps
  induction steps with
  | zero => exact retains_fail _
  | succ steps ih =>
      unfold digestUntilWithin
      refine (upholds .nextItem).bind fun item => ?_
      split <;> grind

@[grind ←] theorem upholds_toFragment (upholds : interpreter.Upholds holds) (tokens : List Token) :
    Upholds holds (toFragment interpreter tokens) := by
  refine upholds_createFragment.bind fun fragment => (retains_pushTokens _).bind fun _ => ?_
  refine retains_get.bind fun engine => Retains.bind (retains_modify fun _ kept => kept) ?_
  intro _
  refine Retains.bind ((upholds_digestUntil upholds fragment "arg").ensuring ?_) fun _ => ?_
  · exact fun _ kept => kept
  · exact retains_pure _

@[grind ←] theorem upholds_toText (upholds : interpreter.Upholds holds) (tokens : List Token) :
    Upholds holds (toText interpreter tokens) := by
  grind [toText]

@[grind .] theorem upholds_attachLabel (label : String) : Upholds holds (attachLabel label) := by
  grind [attachLabel]

@[grind .] theorem upholds_referTo (node : NodeId) (name label : String) :
    Upholds holds (referTo node name label) := by
  grind [referTo]

@[grind ←] theorem upholds_convertWithin (upholds : interpreter.Upholds holds) (node : NodeId)
    (argument : Argument) (steps : Nat) (type : ArgumentType) (tokens : List Token) :
    Upholds holds (convertWithin interpreter node argument steps type tokens) := by
  induction steps generalizing type tokens with
  | zero => exact retains_fail _
  | succ steps ih =>
      cases type
      case list =>
        rw [convertWithin]
        refine (Retains.mapM fun item _ => ih _ item).bind fun values => ?_
        exact retains_pure _
      case dictionary =>
        rw [convertWithin]
        refine (Retains.mapM fun item _ => ?_).bind fun entries => retains_pure _
        split
        · exact retains_pure _
        · exact retains_pure _
        · exact (ih _ _).bind fun value => retains_pure _
      case token => cases tokens <;> grind [convertWithin]
      all_goals grind [convertWithin]

@[grind ←] theorem upholds_convert (upholds : interpreter.Upholds holds) (node : NodeId)
    (argument : Argument) (tokens : List Token) :
    Upholds holds (convert interpreter node argument tokens) :=
  upholds_convertWithin upholds _ _ _ _ _

theorem upholds_readElementArgument (upheld : Counters.Upheld holds)
    (upholds : interpreter.Upholds holds) (element : Element) (node : NodeId) (isFirst : Bool)
    (argument : Argument) :
    Upholds holds (readElementArgument interpreter element node isFirst argument) := by
  unfold readElementArgument
  split <;> grind

theorem upholds_readElementArgumentsFrom (upheld : Counters.Upheld holds)
    (upholds : interpreter.Upholds holds) (element : Element) (node : NodeId) (isFirst : Bool)
    (arguments : List Argument) :
    Upholds holds (readElementArgumentsFrom interpreter element node isFirst arguments) := by
  induction arguments generalizing isFirst with
  | nil => exact retains_pure _
  | cons argument rest ih =>
      refine (upholds_readElementArgument upheld upholds _ _ _ _).bind fun read => ?_
      exact (ih false).bind fun others => retains_pure _

@[grind ←] theorem upholds_readElementArguments (upheld : Counters.Upheld holds)
    (upholds : interpreter.Upholds holds) (element : Element) (node : NodeId) :
    Upholds holds (readElementArguments interpreter element node) := by
  unfold readElementArguments
  extract_lets counter rest
  have upholdsRest : ∀ value, Upholds holds (rest value) := by
    intro value
    refine (upholds_readElementArgumentsFrom upheld upholds _ _ _ _).bind fun read => ?_
    grind
  cases counter with
  | some name => exact (upholds_number upheld _ _).bind upholdsRest
  | none => exact upholdsRest ()

/-! ## Elements and environments -/

@[grind .] theorem upholds_readVerbatimBody (node : NodeId) :
    Upholds holds (readVerbatimBody node) := by
  grind [readVerbatimBody]

@[grind ←] theorem upholds_runHook (upheld : Counters.Upheld holds) (node : NodeId) (mode : Mode)
    (hook : ElementHook) : Upholds holds (runHook node mode hook) := by
  cases hook <;> grind [runHook]

@[grind .] theorem upholds_closeEnvironment (name : String) :
    Upholds holds (closeEnvironment name) := by
  grind [closeEnvironment]

@[grind ←] theorem upholds_invokeElement (upheld : Counters.Upheld holds)
    (upholds : interpreter.Upholds holds) (element : Element) (token : Token) (mode : Mode) :
    Upholds holds (invokeElement interpreter element token mode) := by
  unfold invokeElement
  split
  · grind
  · refine (upholds_createElement _ _ _).bind fun node => ?_
    refine (upholds_modifyNode _ _).bind fun _ => ?_
    refine Retains.bind (Retains.forIn fun entry _ => ?_) fun _ => ?_
    · grind
    extract_lets owner ends hooks reads
    have upholdsEnds : ∀ value, Upholds holds (ends value) := by
      grind
    have upholdsHooks : ∀ value, Upholds holds (hooks value) := by
      intro value
      dsimp only [hooks]
      split
      · exact (upholds_popOwner _).bind upholdsEnds
      · exact upholdsEnds ()
    have upholdsReads : ∀ value, Upholds holds (reads value) := by
      intro value
      refine (upholds_readElementArguments upheld upholds _ _).bind fun _ => ?_
      split
      · exact (upholds_runHook upheld _ _ _).bind upholdsHooks
      · exact upholdsHooks ()
    refine (upholds_pushScope _ _).bind fun _ => ?_
    split
    · exact (upholds_pushEnvironment _).bind upholdsReads
    · exact upholdsReads ()

@[grind .] theorem upholds_beginUserEnvironment (name : String) (opening : Definition)
    (token : Token) : Upholds holds (beginUserEnvironment name opening token) := by
  unfold beginUserEnvironment
  refine (upholds_createElement _ _ _).bind fun node => (upholds_modifyNode _ _).bind fun _ => ?_
  refine (upholds_pushScope _ _).bind fun _ => (upholds_pushEnvironment _).bind fun _ => ?_
  refine (retains_readCall _ _).bind fun arguments => ?_
  grind

@[grind ←] theorem upholds_beginEnvironment (upheld : Counters.Upheld holds)
    (upholds : interpreter.Upholds holds) (token : Token) :
    Upholds holds (beginEnvironment interpreter token) := by
  unfold beginEnvironment
  refine retains_readName.bind fun name => ?_
  extract_lets own control rest
  have upholdsRest : ∀ value, Upholds holds (rest value) := by
    intro value
    refine (upholds_lookup _).bind fun command => ?_
    split <;> grind
  split
  · exact (retains_fail _).bind upholdsRest
  · exact upholdsRest ()

@[grind ←] theorem upholds_endEnvironment (upheld : Counters.Upheld holds)
    (upholds : interpreter.Upholds holds) (token : Token) :
    Upholds holds (endEnvironment interpreter token) := by
  unfold endEnvironment
  refine retains_readName.bind fun name => retains_get.bind fun engine => ?_
  grind

/-! ## Formulas -/

@[grind .] theorem upholds_openGroup (token : Token) : Upholds holds (openGroup token) := by
  grind [openGroup]

@[grind .] theorem upholds_closeGroup (token : Token) : Upholds holds (closeGroup token) := by
  grind [closeGroup]

@[grind ←] theorem upholds_openMath (upheld : Counters.Upheld holds)
    (upholds : interpreter.Upholds holds) (token : Token) (name delimiter : String) :
    Upholds holds (openMath interpreter token name delimiter) := by
  grind [openMath]

@[grind ←] theorem upholds_closeMath (upheld : Counters.Upheld holds)
    (upholds : interpreter.Upholds holds) (token : Token) (name : String) :
    Upholds holds (closeMath interpreter token name) := by
  grind [closeMath]

@[grind ←] theorem upholds_shiftMath (upheld : Counters.Upheld holds)
    (upholds : interpreter.Upholds holds) (token : Token) :
    Upholds holds (shiftMath interpreter token) := by
  unfold shiftMath
  refine retains_get.bind fun engine => ?_
  split
  · exact upholds_closeMath upheld upholds _ _
  · refine retains_nextRaw.bind fun next => ?_
    extract_lets opens
    have upholdsOpens : ∀ isDisplay, Upholds holds (opens isDisplay) := by
      intro isDisplay
      refine retains_get.bind fun engine => ?_
      grind
    split
    · exact upholdsOpens false
    · split
      · exact upholdsOpens true
      · exact (retains_putBack _).bind fun _ => upholdsOpens false

@[grind ←] theorem upholds_setScript (upholds : interpreter.Upholds holds) (token : Token) :
    Upholds holds (setScript interpreter token) := by
  unfold setScript
  extract_lets character
  refine retains_get.bind fun engine => ?_
  split
  · exact (retains_putBack _).bind fun _ => retains_pure _
  · refine retains_readArgument.bind fun argument => ?_
    split
    · exact retains_fail _
    · refine (upholds_createElement _ _ _).bind fun node => ?_
      refine (upholds_toFragment upholds _).bind fun fragment => ?_
      refine (upholds_appendNode _ _).bind fun _ => ?_
      grind

@[grind .] theorem upholds_takeVerbatim (token : Token) : Upholds holds (takeVerbatim token) := by
  unfold takeVerbatim
  refine (retains_readAnyChar _).bind fun first => ?_
  extract_lets isStarred rest
  have upholdsRest : ∀ value, Upholds holds (rest value) := by
    intro value
    refine (retains_reading _).bind fun text => ?_
    split <;> grind
  split
  · exact (retains_readAnyChar _).bind upholdsRest
  · exact upholdsRest first

/-! ## Packages and theorems -/

@[grind ←] theorem upholds_interpretPackage (upholds : interpreter.Upholds holds)
    (text file : String) : Upholds holds (interpretPackage interpreter text file) := by
  refine (retains_report _).bind fun _ => retains_get.bind fun engine => ?_
  refine (retains_categorize _ _ _).bind fun _ => (retains_pushTokens _).bind fun _ => ?_
  refine (retains_pushText _ _).bind fun _ => upholds_createFragment.bind fun fragment => ?_
  refine retains_get.bind fun opened => (upholds_digestUntil upholds _ _).ensuring ?_
  exact fun _ kept => kept

@[grind ←] theorem upholds_loadFromFile (upholds : interpreter.Upholds holds) (name : String)
    (kind : PackageKind) : Upholds holds (loadFromFile interpreter name kind) := by
  unfold loadFromFile
  refine retains_get.bind fun engine => ?_
  grind

/-- The counters of a standard class with their superiors, in the order of their
creation. -/
def classCounters (hasChapters : Bool) : List (String × Option String) :=
  let numbered := ["section", "figure", "table", "equation"]
  (("part", none) ::
    if hasChapters then ("chapter", none) :: numbered.map fun name => (name, some "chapter")
    else numbered.map fun name => (name, none)) ++
  sectionCounters.map (fun entry => (entry.1, some entry.2)) ++
  [("footnote", some (if hasChapters then "chapter" else "section"))]

theorem counters_createClassCounters (engine : Engine) (hasChapters : Bool) :
    (engine.createClassCounters hasChapters).counters =
      engine.counters.createAll (classCounters hasChapters) := by
  cases hasChapters <;>
    simp [createClassCounters, createCounterWithin, sectionCounters, classCounters,
      Counters.createAll]

/-- A built-in class creates its counters below counters that it has created before. -/
theorem counters_loadBuiltin (upheld : Counters.Upheld holds) {engine loaded : Engine}
    (kept : holds engine.counters) {name : String} {kind : PackageKind}
    (loads : engine.loadBuiltin? name kind = some loaded) : holds loaded.counters := by
  have classes : ∀ hasChapters, holds (engine.createClassCounters hasChapters).counters := by
    intro hasChapters
    have precede : Counters.superiorsPrecede [] (classCounters hasChapters) = true := by
      cases hasChapters <;> decide
    rw [counters_createClassCounters]
    exact upheld.createAll precede kept (by simp)
  unfold loadBuiltin? at loads
  split at loads
  · cases loads
    exact kept
  all_goals grind

theorem upholds_loadPackage (upheld : Counters.Upheld holds) (upholds : interpreter.Upholds holds)
    (kind : PackageKind) (options : List String) (name : String) :
    Upholds holds (loadPackage interpreter kind options name) := by
  unfold loadPackage
  extract_lets trimmed
  refine retains_get.bind fun engine => ?_
  split
  · exact retains_pure _
  · refine Retains.bind (retains_modify fun _ kept => kept) fun _ => ?_
    refine retains_get_bind fun engine kept => ?_
    cases loads : engine.loadBuiltin? trimmed kind with
    | some loaded => exact counters_loadBuiltin upheld kept loads
    | none => exact (show Upholds holds _ by grind) engine kept

theorem upholds_loadNamedPackages (upheld : Counters.Upheld holds)
    (upholds : interpreter.Upholds holds) (token : Token) :
    Upholds holds (loadNamedPackages interpreter token) := by
  refine (retains_readBracketed _ _).bind fun options => ?_
  refine (retains_readArgumentFor _).bind fun names => ?_
  refine (retains_readBracketed _ _).bind fun _ => ?_
  exact Retains.forM fun name _ => upholds_loadPackage upheld upholds _ _ name

theorem upholds_createTheorem (upheld : Counters.Upheld holds)
    (upholds : interpreter.Upholds holds) (token : Token) :
    Upholds holds (createTheorem interpreter token) := by
  unfold createTheorem
  refine retains_readStar.bind fun isStarred => retains_readName.bind fun name => ?_
  refine retains_readBracketedText.bind fun shared => ?_
  refine (retains_readArgumentFor _).bind fun tokens => ?_
  refine (upholds_toText upholds tokens).bind fun caption => ?_
  refine retains_readBracketedText.bind fun superior => ?_
  extract_lets title environment element rest
  have upholdsRest : ∀ value, Upholds holds (rest value) := fun _ => upholds_setCommand _ _ _
  split
  · refine upholds_behind_checkSuperior fun engine kept exist => ?_
    refine upholdsRest () _ ?_
    have created := upheld.create_getD kept exist name
    rw [← counters_createCounter] at created
    cases superior <;> exact created
  · exact upholdsRest ()

/-! ## Commands and items -/

theorem upholds_perform (upheld : Counters.UpheldFreely holds)
    (upholds : interpreter.Upholds holds) (token : Token) (action : Action) :
    Upholds holds (perform interpreter token action) := by
  cases action
  case newCounter => exact upholds_createNamedCounter upheld.toUpheld
  case setCounter => exact upholds_setCounter upheld upholds.reads token
  case stepCounter => exact upholds_stepCounter upheld.toUpheld
  case loadPackages => exact upholds_loadNamedPackages upheld.toUpheld upholds token
  case newTheorem => exact upholds_createTheorem upheld.toUpheld upholds token
  all_goals grind [perform]

theorem upholds_construct (upheld : Counters.Upheld holds)
    (upholds : interpreter.Upholds holds) (token : Token) (kind : Construction) :
    Upholds holds (construct interpreter token kind) := by
  cases kind <;> grind [construct]

theorem upholds_execute (upheld : Counters.UpheldFreely holds)
    (upholds : interpreter.Upholds holds) (token : Token) (command : Command) :
    Upholds holds (execute interpreter token command) := by
  have performs := upholds_perform upheld upholds token
  have constructs := upholds_construct upheld.toUpheld upholds token
  have invokes := upholds_invokeElement upheld.toUpheld upholds
  unfold execute
  split <;> grind

theorem upholds_itemOf (upheld : Counters.UpheldFreely holds)
    (upholds : interpreter.Upholds holds) (token : Token) (command : Command) :
    Upholds holds (itemOf interpreter token command) := by
  have executes := upholds_execute upheld upholds token command
  unfold itemOf invoke
  refine Retains.bind ?_ fun item => ?_
  · grind
  · cases item with
    | none => exact retains_pure _
    | some item => cases item <;> grind [recordOrigin]

theorem upholds_tokenItem (upheld : Counters.UpheldFreely holds)
    (upholds : interpreter.Upholds holds) (token : Token) :
    Upholds holds (tokenItem interpreter token) := by
  have items := upholds_itemOf upheld upholds
  unfold tokenItem
  split <;> grind

theorem upholds_nextItem (upheld : Counters.UpheldFreely holds)
    (upholds : interpreter.Upholds holds) : Upholds holds (nextItem interpreter) := by
  have items := upholds_tokenItem upheld upholds
  suffices each : ∀ steps, Upholds holds (nextItemWithin interpreter steps) from each _
  intro steps
  induction steps with
  | zero => exact retains_fail _
  | succ steps ih =>
      unfold nextItemWithin
      refine retains_get.bind fun engine => ?_
      split <;> grind

/-! ## Digestion -/

theorem upholds_digestWithin (upholds : interpreter.Upholds holds) (id : NodeId) (node : Node)
    (steps : Nat) (hasBreak : Bool) :
    Upholds holds (digestWithin interpreter id node steps hasBreak) := by
  induction steps generalizing hasBreak with
  | zero => exact retains_fail _
  | succ steps ih =>
      unfold digestWithin
      refine (upholds .nextItem).bind fun item => ?_
      split <;> grind [keepForParent]

theorem upholds_digest (upholds : interpreter.Upholds holds) (id : NodeId) :
    Upholds holds (digest interpreter id) := by
  have digests := upholds_digestWithin upholds
  unfold digest
  refine (upholds_nodeOf _).bind fun node => ?_
  split
  · exact retains_pure _
  · refine (digests id node _ _).bind fun hasBreak => ?_
    split <;> grind

/-- Every task of the interpreter upholds what holds of the counters. -/
theorem upholds_interpreter (upheld : Counters.UpheldFreely holds) (fuel : Nat) :
    (Engine.interpreter fuel).Upholds holds := by
  induction fuel with
  | zero => exact fun _ => retains_fail _
  | succ fuel ih =>
      intro α task
      cases task with
      | expand token command => exact retains_expandCommand ih.reads token command
      | nextItem => exact upholds_nextItem upheld ih
      | digest node => exact upholds_digest ih node

/-! ## Sources -/

/-- The counters of enumerations are created below each other. -/
theorem counters_fresh (upheld : Counters.Upheld holds) (empty : holds .empty)
    (settings : Settings) (files : Files) (date : Date) (libraries : Table (List Element)) :
    holds (Engine.fresh settings files date libraries).counters := by
  let entries := [("enumi", none), ("enumii", some "enumi"), ("enumiii", some "enumii"),
    ("enumiv", some "enumiii")]
  have created : (Engine.fresh settings files date libraries).counters =
      Counters.empty.createAll entries := by
    simp [Engine.fresh, createEnumerationCounters, createDateRegisters, Counters.createAll, entries]
  have precede : Counters.superiorsPrecede [] entries = true := by decide
  rw [created]
  exact upheld.createAll precede empty (by simp)

theorem upholds_digestRoot (upholds : interpreter.Upholds holds) :
    Upholds holds (digestRoot interpreter) := by
  suffices each : ∀ steps, Upholds holds (digestRootWithin interpreter steps) from each _
  intro steps
  induction steps with
  | zero => exact retains_fail _
  | succ steps ih =>
      unfold digestRootWithin
      refine (upholds .nextItem).bind fun item => ?_
      split <;> grind

theorem upholds_interpret (upheld : Counters.UpheldFreely holds) (fuel : Nat) :
    Upholds holds (interpret fuel) := by
  intro engine kept
  have digested := upholds_digestRoot (upholds_interpreter upheld fuel) engine kept
  unfold interpret
  cases run : digestRoot (interpreter fuel) engine with
  | ok value done =>
      rw [run] at digested
      exact digested
  | error error failed =>
      rw [run] at digested
      exact digested

theorem upholds_parseText (upheld : Counters.UpheldFreely holds) (fuel : Nat) (text : String) :
    Upholds holds (parseTextWithin fuel text) :=
  (retains_pushText _ _).bind fun _ => upholds_interpret upheld fuel

theorem upholds_parseFile (upheld : Counters.UpheldFreely holds) (fuel : Nat) (path : String) :
    Upholds holds (parseFileWithin fuel path) := by
  unfold parseFileWithin
  refine retains_get.bind fun engine => ?_
  split
  · exact retains_fail _
  · refine (retains_modify fun named kept => ?_).bind fun _ => ?_
    · grind
    · exact (retains_report _).bind fun _ => (retains_pushText _ _).bind fun _ =>
        upholds_interpret upheld fuel

end Engine

end TexTree
