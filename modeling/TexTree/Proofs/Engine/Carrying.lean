import TexTree.Proofs.Engine.Elements

/-!
# Carrying out commands

A command either works silently or produces an item.  Whatever it does, the nodes
that were there before stay as they are, and a node that it produces is new.
-/

namespace TexTree

/-- The node among items. -/
def Item.node? : Item → Option NodeId
  | .node id => some id
  | .token _ => none

namespace Engine

variable {interpreter : Interpreter}

/-- A computation whose result may hold a new node. -/
def Offering {α : Type} (held : α → Option NodeId) (computation : TexM α) : Prop :=
  ∀ engine : Engine, engine.Steady →
    Sat computation engine fun value after =>
      engine.Grown after ∧
        ∀ node, held value = some node → ∃ digest level, Making engine node digest level after

section Offering

variable {α β : Type} {held : α → Option NodeId}

theorem Offering.nothing {value : α} (empty : held value = none) :
    Offering held (pure value) := by
  intro engine steady
  refine sat_pure.mpr ⟨steady.refl, ?_⟩
  simp [empty]

theorem Offering.fail (fault : Fault) : Offering held (fail fault) :=
  fun _ steady => sat_fail.mpr steady.sane

theorem Growing.offering {first : TexM β} {second : β → TexM α} (growing : Growing first)
    (offering : ∀ value, Offering held (second value)) : Offering held (first >>= second) := by
  intro engine steady
  refine (growing engine steady).bind ?_
  intro value middle grown
  refine (offering value middle grown.steady).mono ?_
  rintro result after ⟨later, making⟩
  refine ⟨grown.trans steady later, ?_⟩
  intro node isHeld
  obtain ⟨digest, level, made⟩ := making node isHeld
  exact ⟨digest, level, made.since steady grown⟩

theorem Making.offered {engine after : Engine} {node : NodeId} {digest : Digest} {level : Level}
    (making : Making engine node digest level after) {value : α} (same : held value = some node) :
    engine.Grown after ∧
      ∀ other, held value = some other →
        ∃ digest level, Making engine other digest level after := by
  refine ⟨making.grown, ?_⟩
  intro other isHeld
  rw [same] at isHeld
  rw [← Option.some.inj isHeld]
  exact ⟨digest, level, making⟩

theorem Makes.offering {computation : TexM NodeId} (makes : Makes computation)
    {wrap : NodeId → α} (same : ∀ node, held (wrap node) = some node) :
    Offering held (wrap <$> computation) := by
  intro engine steady
  refine sat_map.mpr ((makes engine steady).mono ?_)
  rintro node after ⟨digest, level, making⟩
  exact making.offered (same node)

theorem Makes.item {computation : TexM NodeId} (makes : Makes computation) :
    Offering (fun item => item.bind Item.node?)
      (do return some (.node (← computation))) := by
  intro engine steady
  refine (makes engine steady).bind ?_
  rintro node after ⟨digest, level, making⟩
  exact sat_pure.mpr (making.offered rfl)

/-- The new node is passed on in another form. -/
theorem Offering.map {computation : TexM β} {inner : β → Option NodeId}
    (offering : Offering inner computation) {wrap : β → α}
    (same : ∀ value, held (wrap value) = inner value) : Offering held (wrap <$> computation) := by
  intro engine steady
  refine sat_map.mpr ((offering engine steady).mono ?_)
  rintro value after ⟨grown, making⟩
  refine ⟨grown, ?_⟩
  intro node isHeld
  exact making node ((same value).symm.trans isHeld)

end Offering

/-! ## Packages and theorems -/

section Counters

variable {before engine : Engine}

theorem Quiet.createCounterWithin (quiet : before.Quiet engine) (superior name : String) :
    before.Quiet (engine.createCounterWithin superior name) :=
  (quiet.createCounter name (some superior) 0).setTemplate name (.within superior name)

theorem Quiet.foldl {α : Type} (quiet : before.Quiet engine) {step : Engine → α → Engine}
    (each : ∀ engine item, before.Quiet engine → before.Quiet (step engine item))
    (items : List α) : before.Quiet (items.foldl step engine) := by
  induction items generalizing engine with
  | nil => exact quiet
  | cons item rest ih => exact ih (each engine item quiet)

theorem Quiet.createClassCounters (quiet : before.Quiet engine) (hasChapters : Bool) :
    before.Quiet (engine.createClassCounters hasChapters) := by
  have parts := (quiet.createCounter "part" none 0).setTemplate "part" ⟨"$\x7bpart.Roman\x7d"⟩
  unfold Engine.createClassCounters
  apply Quiet.createCounter
  apply Quiet.foldl
  · split
    · apply Quiet.foldl (parts.createCounter "chapter" none 0)
      intro engine name quiet
      exact quiet.createCounterWithin "chapter" name
    · apply Quiet.foldl parts
      intro engine name quiet
      exact quiet.createCounter name none 0
  · intro engine entry quiet
    exact quiet.createCounterWithin entry.2 entry.1

end Counters

/-- The elements of a package are bound in the outermost scope. -/
theorem Steady.loadBuiltin? {engine loaded : Engine} (steady : engine.Steady) {name : String}
    {kind : PackageKind} (found : engine.loadBuiltin? name kind = some loaded) :
    engine.Grown loaded := by
  unfold Engine.loadBuiltin? at found
  split at found
  · next elements known =>
      rw [← Option.some.inj found]
      refine steady.same rfl (fun regular => ?_) rfl rfl
      exact regular.bindElements (steady.sane.libraries _ elements known)
  · rw [← Option.some.inj found]
    exact steady.quiet (Quiet.createClassCounters (.refl engine) false)
  · rw [← Option.some.inj found]
    exact steady.quiet (Quiet.createClassCounters (.refl engine) true)
  · rw [← Option.some.inj found]
    exact steady.quiet (Quiet.createClassCounters (.refl engine) true)
  · simp at found

/-- What the file of a package produces goes into a fragment of its own. -/
theorem growing_interpretPackage (builds : interpreter.Builds) (text file : String) :
    Growing (interpretPackage interpreter text file) := by
  unfold interpretPackage
  apply Growing.bind (.quiet fun _ => retains_report _)
  intro _
  apply Growing.get.bind
  intro earlier
  apply Growing.bind (.quiet fun _ => retains_categorize '@' .letter false)
  intro _
  apply Growing.bind (.quiet fun _ => retains_pushTokens _)
  intro _
  apply Growing.bind (.quiet fun _ => retains_pushText text file)
  intro _ engine steady
  have filling := steady.fill.2
  refine sat_bind.mpr (sat_modifyGet.mpr ?_)
  refine sat_bind.mpr (sat_get.mpr (Sat.ensuring ?_ ?_))
  · refine (sat_digestUntilWithin builds "package" _ engine.idle_withFragment filling).mono ?_
    rintro _ after ⟨filled, done⟩
    have grown := (filled.finish steady done).1
    apply grown.trans steady
    refine done.same rfl (fun regular => ?_) rfl rfl
    exact regular.categorize '@' _ false
  · intro after sane
    exact ⟨sane.scopes.categorize '@' _ false, sane.libraries⟩

theorem growing_loadFromFile (builds : interpreter.Builds) (name : String)
    (kind : PackageKind) : Growing (loadFromFile interpreter name kind) := by
  unfold loadFromFile
  apply Growing.get.bind
  intro engine
  split
  · exact .quiet fun _ => retains_warn _ _
  · split
    · exact growing_interpretPackage builds _ _
    · exact .quiet fun _ => retains_warn _ _

theorem growing_loadPackage (builds : interpreter.Builds) (kind : PackageKind)
    (options : List String) (name : String) :
    Growing (loadPackage interpreter kind options name) := by
  unfold loadPackage
  apply Growing.get.bind
  intro earlier
  split
  · exact .pure _
  · apply Growing.bind
    · exact .modify (fun _ => rfl) (fun _ regular => regular) (fun _ => rfl) fun _ => rfl
    intro _ engine steady
    rw [sat_bind, sat_get]
    cases found : engine.loadBuiltin? (Text.trim name) kind with
    | some loaded =>
        have grown : engine.Grown loaded := steady.loadBuiltin? found
        exact sat_set.mpr grown
    | none =>
        dsimp only
        split
        · exact growing_loadFromFile builds (Text.trim name) kind engine steady
        · refine Sat.mono (Sat.quiet steady.sane (retains_report _)) ?_
          intro _ after quiet
          exact steady.quiet quiet

theorem growing_loadNamedPackages (builds : interpreter.Builds) (token : Token) :
    Growing (loadNamedPackages interpreter token) := by
  unfold loadNamedPackages
  apply Growing.bind (.quiet fun _ => retains_readBracketed '[' ']')
  intro options
  apply Growing.bind (.quiet fun _ => retains_readArgumentFor token.text)
  intro names
  apply Growing.bind (.quiet fun _ => retains_readBracketed '[' ']')
  intro _
  apply Growing.forM
  intro name _
  exact growing_loadPackage builds _ _ name

theorem growing_createTheorem (builds : interpreter.Builds) (token : Token) :
    Growing (createTheorem interpreter token) := by
  unfold createTheorem
  apply Growing.bind (.quiet fun _ => retains_readStar)
  intro isStarred
  apply Growing.bind (.quiet fun _ => retains_readName)
  intro name
  apply Growing.bind (.quiet fun _ => retains_readBracketedText)
  intro shared
  apply Growing.bind (.quiet fun _ => retains_readArgumentFor token.text)
  intro tokens
  apply (growing_toText builds tokens).bind
  intro caption
  apply Growing.bind (.quiet fun _ => retains_readBracketedText)
  intro superior
  dsimp only
  have binds : ∀ element : Element, Command.Regular (.element element) →
      Growing (setCommand name (.element element) true) := fun element regular =>
    .quiet fun _ => retains_setCommand name regular true
  split
  case' isTrue =>
    apply Growing.bind (.quiet fun _ => retains_checkSuperior name superior)
    intro _
    apply Growing.bind
    · apply Growing.quiet
      intro before
      apply retains_modify
      intro engine quiet
      have created := quiet.createCounter name superior 0
      cases superior with
      | none => exact created
      | some above => exact created.setTemplate name _
    intro _
  all_goals
    apply binds
    refine .element _ ⟨?_, ?_, ?_, ?_⟩ ?_
    all_goals simp [ElementOf.environment, Value.targets]

/-! ## Commands -/

/-- Actions are quiet, except for those that interpret token lists on their own. -/
theorem growing_perform (builds : interpreter.Builds) (token : Token) (action : Action) :
    Growing (perform interpreter token action) := by
  have calm := builds.calm
  cases action with
  | newTheorem => exact growing_createTheorem builds token
  | loadPackages => exact growing_loadNamedPackages builds token
  | define command expanded isGlobal =>
      exact .quiet fun _ => retains_define (calm _) command expanded isGlobal
  | letMeaning => exact .quiet fun _ => retains_letMeaning
  | letNextMeaning => exact .quiet fun _ => retains_letNextMeaning
  | makeGlobal =>
      exact .modify (fun _ => rfl) (fun _ regular => regular) (fun _ => rfl) fun _ => rfl
  | makeProtected =>
      exact .modify (fun _ => rfl) (fun _ regular => regular) (fun _ => rfl) fun _ => rfl
  | nothing => exact .pure _
  | defineCharacter => exact .quiet fun _ => retains_defineCharacter (calm _) token
  | character => exact .quiet fun _ => retains_putCharacter (calm _)
  | categoryCode => exact .quiet fun _ => retains_assignCategory (calm _)
  | strayNameEnd => exact .quiet fun _ => retains_warn _ _
  | readFile => exact .quiet fun _ => retains_readFile (calm _) token
  | endFile =>
      exact .modify (fun _ => rfl) (fun _ regular => regular) (fun _ => rfl) fun _ => rfl
  | showValue =>
      unfold perform
      apply Growing.bind (.quiet fun _ => retains_internalValue (calm _))
      intro found
      split
      · exact .quiet fun _ => retains_report _
      · exact .pure _
  | openStream => exact .quiet fun _ => retains_openStream (calm _)
  | writeStream => exact .quiet fun _ => retains_writeStream (calm _)
  | closeStream => exact .quiet fun _ => retains_closeStream (calm _)
  | newRegister => exact .quiet fun _ => retains_allocateRegister token
  | arithmetic => exact .quiet fun _ => retains_doArithmetic (calm _) token
  | setLength => exact .quiet fun _ => retains_setLength (calm _) token
  | newSwitch => exact .quiet fun _ => retains_createSwitch
  | newCommand => exact .quiet fun _ => retains_createCommand (calm _) token
  | newEnvironment => exact .quiet fun _ => retains_createEnvironment (calm _) token
  | categorizeAt category => exact .quiet fun _ => retains_categorize '@' category false
  | newCounter => exact .quiet fun _ => quiet_createNamedCounter
  | setCounter => exact .quiet fun _ => quiet_setCounter (calm _) token
  | stepCounter => exact .quiet fun _ => quiet_stepCounter
  | provides =>
      unfold perform
      apply Growing.bind (.quiet fun _ => retains_readName)
      intro _
      exact Growing.bind (.quiet fun _ => retains_readBracketed '[' ']') fun _ => .pure _

/-- An exponent or an index takes its argument as its content. -/
theorem offering_setScript (builds : interpreter.Builds) (token : Token) :
    Offering id (setScript interpreter token) := by
  unfold setScript
  apply Growing.get.offering
  intro engine
  dsimp only
  split
  · apply Growing.offering (.quiet fun _ => retains_putBack _)
    intro _
    exact .nothing rfl
  · apply Growing.offering (.quiet fun _ => retains_readArgument)
    intro found
    split
    · exact .fail _
    · next tokens isBraced =>
        intro engine steady
        refine (sat_createElement steady _ _ _).bind ?_
        rintro node after ⟨making, _⟩
        rw [← bind_assoc]
        refine (shaping_toFragment builds ⟨by decide, .inl rfl⟩ tokens engine after making).bind ?_
        intro _ after making
        split
        · refine Sat.bind (Shaping.modifyNode ?_ ?_ ?_ ?_ ?_ engine after making) ?_
          iterate 5
            intro inner
            rfl
          intro _ after making
          exact sat_pure.mpr (making.offered rfl)
        · exact sat_pure.mpr (making.offered rfl)

/-- Ending an environment produces its end, or the code of the user for it. -/
theorem offering_endEnvironment (builds : interpreter.Builds) (token : Token) :
    Offering id (endEnvironment interpreter token) := by
  unfold endEnvironment
  apply Growing.offering (.quiet fun _ => retains_readName)
  intro name engine steady
  have ends : ∀ closing, Offering id (do
      endUserEnvironment name closing
      return none) := by
    intro closing
    apply Growing.offering (.quiet fun _ => retains_endUserEnvironment name closing)
    intro _
    exact .nothing rfl
  refine sat_bind.mpr (sat_get.mpr ?_)
  dsimp only
  split
  · exact sat_bind.mpr (sat_fail.mpr steady.sane)
  · split
    · next element found =>
        have regular := steady.sane.scopes.command? found
        split
        · have closes : Offering id (do
              return some (← invokeElement interpreter element token .closing)) :=
            (makes_invokeElement builds regular token .closing).offering fun _ => rfl
          exact closes engine steady
        · exact ends none engine steady
    · exact ends _ engine steady
    · exact ends none engine steady

theorem offering_construct (builds : interpreter.Builds) (token : Token)
    (construction : Construction) :
    Offering id (construct interpreter token construction) := by
  cases construction with
  | openGroup => exact (makes_openGroup token).offering fun _ => rfl
  | closeGroup => exact (makes_closeGroup token).offering fun _ => rfl
  | beginEnvironment => exact (makes_beginEnvironment builds token).offering fun _ => rfl
  | endEnvironment => exact offering_endEnvironment builds token
  | mathShift => exact (makes_shiftMath builds token).offering fun _ => rfl
  | openMath name delimiter =>
      exact (makes_openMath builds token name delimiter).offering fun _ => rfl
  | closeMath name => exact (makes_closeMath builds token name).offering fun _ => rfl
  | script => exact offering_setScript builds token
  | alignmentTab => exact (makes_createElement _ _ _).offering fun _ => rfl
  | verbatimText => exact (makes_takeVerbatim token).offering fun _ => rfl

/-- Executing a regular command. -/
theorem offering_execute (builds : interpreter.Builds) (token : Token) {command : Command}
    (regular : command.Regular) :
    Offering (fun item => item.bind Item.node?) (execute interpreter token command) := by
  have calm := builds.calm
  unfold execute
  split
  · next effect =>
      apply (growing_perform builds token effect).offering
      intro _
      exact .nothing rfl
  · next kind =>
      apply Offering.map (offering_construct builds token kind)
      intro value
      cases value <;> rfl
  · exact (makes_invokeElement builds regular token .plain).item
  · apply Growing.offering (.quiet fun _ => retains_callDefinition _ token)
    intro tokens
    apply Growing.offering (.quiet fun _ => retains_pushTokens tokens)
    intro _
    exact .nothing rfl
  · apply Growing.offering (.quiet fun _ => retains_takeGlobal)
    intro isGlobal
    apply Growing.offering
    · exact .quiet fun _ => retains_setCommand _ (by simp) isGlobal
    intro _
    exact .nothing rfl
  · exact .nothing rfl
  · exact .nothing rfl
  · next name =>
      apply Growing.offering (.quiet fun _ => retains_assignRegister (calm _) name)
      intro _
      exact .nothing rfl
  · next name => exact (makes_createElement name Level.command .plain).item
  · exact .nothing rfl

/-- A command that is invoked is expanded or executed. -/
theorem offering_invoke (builds : interpreter.Builds) (token : Token) {command : Command}
    (regular : command.Regular) :
    Offering (fun item => item.bind Item.node?) (invoke interpreter token command) := by
  unfold invoke
  apply Growing.offering (.quiet fun _ => retains_expand (builds.calm _) token command)
  intro expanded
  split
  · exact .nothing rfl
  · exact offering_execute builds token regular

end Engine

end TexTree
