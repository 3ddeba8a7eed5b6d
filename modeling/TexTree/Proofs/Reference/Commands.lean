import TexTree.Proofs.Reference.Elements

/-!
# References and commands

No command but an element touches labels and references, but some of them make nodes, and
the files of packages may hold any source.
-/

namespace TexTree.Engine

variable {old : References} {interpreter : Interpreter} {bound : Nat}

/-! ## Environments and packages -/

/-- What is looked up is regular. -/
theorem confining_lookup (name : String) :
    Confining old bound (fun command _ => command.Regular) (lookup name) := by
  have binds : ∀ size, Confining old size (fun command _ => command.Regular) (do
      modify fun engine => { engine with scopes := engine.scopes.bindPlaceholder name }
      return Command.unrecognized name) := by
    intro size
    apply Confining.next
    · exact .modify (fun _ regular => regular.bindPlaceholder name) (fun _ => rfl) (fun _ => rfl)
        fun _ => rfl
    intro _ _ _
    exact .yields fun _ _ => by simp
  intro engine large confined
  unfold lookup
  refine sat_bind.mpr (sat_get.mpr ?_)
  split
  · next command found =>
      exact sat_pure.mpr ⟨Nat.le_refl _, confined, confined.sane.scopes.command? found⟩
  · dsimp only
    split
    · refine (Sat.quiet confined.sane (retains_warn _ _)).bind ?_
      intro _ after quiet
      have sameSize := congrArg Document.size quiet.document
      rw [← sameSize] at large ⊢
      exact binds _ after large (confined.quiet quiet)
    · exact binds _ engine large confined

theorem keeping_beginNamed (confines : interpreter.Confines old) (token : Token)
    (name : String) : Keeping old bound (beginNamed interpreter token name) := by
  have plain : ∀ size, Keeping old size
      (invokeElement interpreter (.environment name []) token .opening) := fun _ =>
    (locating_invokeElement confines (regular_unknownEnvironment name) token .opening).weaken
  unfold beginNamed
  apply (confining_lookup name).bind
  intro command _ _ regular
  split
  · dsimp only
    split
    · exact (locating_invokeElement confines regular token .opening).weaken
    · exact (locating_invokeElement confines (regular_of_environment regular) token
        .opening).weaken
  · exact (locating_beginUserEnvironment _ _ _).weaken
  · exact (locating_beginUserEnvironment _ _ _).weaken
  · exact plain _
  · apply (plain _).next
    intro node _ _
    exact Confining.next (.quiet fun _ => retains_putBack _) fun _ _ _ => .done _

theorem keeping_beginEnvironment (confines : interpreter.Confines old) (token : Token) :
    Keeping old bound (beginEnvironment interpreter token) := by
  unfold beginEnvironment
  apply Confining.next (.quiet fun _ => retains_readName)
  intro name _ _
  dsimp only
  split
  · exact Confining.next (.fail _) fun _ _ _ => keeping_beginNamed confines token name
  · exact keeping_beginNamed confines token name

theorem keeping_endEnvironment (confines : interpreter.Confines old) (token : Token) :
    Keeping old bound (endEnvironment interpreter token) := by
  unfold endEnvironment
  apply Confining.next (.quiet fun _ => retains_readName)
  intro name size _ engine large confined
  have ends : ∀ closing, Keeping old size (do
      endUserEnvironment name closing
      return (none : Option NodeId)) := fun closing =>
    Confining.next (.quiet fun _ => retains_endUserEnvironment name closing) fun _ _ _ => .done _
  refine sat_bind.mpr (sat_get.mpr ?_)
  dsimp only
  split
  · exact sat_bind.mpr (sat_fail.mpr confined.sane)
  · split
    · next element found =>
        have regular := confined.sane.scopes.command? found
        split
        · have closes : Keeping old size (do
              return some (← invokeElement interpreter element token .closing)) :=
            (locating_invokeElement confines regular token .closing).weaken.next
              fun _ _ _ => .done _
          exact closes engine large confined
        · exact ends none engine large confined
    · exact ends _ engine large confined
    · exact ends none engine large confined

/-- The elements of a package are bound in the outermost scope. -/
theorem Confined.loadBuiltin? {engine loaded : Engine} (confined : engine.Confined old)
    {name : String} {kind : PackageKind} (found : engine.loadBuiltin? name kind = some loaded) :
    loaded.Confined old ∧ loaded.document = engine.document := by
  have counters : ∀ hasChapters, (engine.createClassCounters hasChapters).Confined old ∧
      (engine.createClassCounters hasChapters).document = engine.document := by
    intro hasChapters
    have quiet := Quiet.createClassCounters (.refl engine) hasChapters
    exact ⟨confined.quiet quiet, quiet.document⟩
  unfold Engine.loadBuiltin? at found
  split at found
  · next elements known =>
      rw [← Option.some.inj found]
      refine ⟨confined.same (fun regular => ?_) rfl rfl rfl, rfl⟩
      exact Scopes.Regular.bindElements regular (confined.sane.libraries _ elements known)
  · rw [← Option.some.inj found]
    exact counters false
  · rw [← Option.some.inj found]
    exact counters true
  · rw [← Option.some.inj found]
    exact counters true
  · simp at found

/-- The file of a package leaves the node that labels are attached to as it was. -/
theorem keeping_interpretPackage (confines : interpreter.Confines old) (text file : String) :
    Keeping old bound (interpretPackage interpreter text file) := by
  unfold interpretPackage
  apply Confining.next (.quiet fun _ => retains_report _)
  intro _ _ _
  apply Confining.get.next
  intro earlier _ _
  apply Confining.next (.quiet fun _ => retains_categorize '@' .letter false)
  intro _ _ _
  apply Confining.next (.quiet fun _ => retains_pushTokens _)
  intro _ _ _
  apply Confining.next (.quiet fun _ => retains_pushText text file)
  intro _ _ _
  apply (keeping_createFragment _).next
  intro fragment _ _ engine large confined
  refine sat_bind.mpr (sat_get.mpr (Sat.ensuring ?_ ?_))
  · refine (keeping_digestUntilWithin confines fragment "package" _ engine large confined).mono ?_
    rintro _ after ⟨grown, later, _⟩
    refine ⟨grown, ⟨⟨?_, later.sane.libraries⟩, ⟨?_, ?_, ?_⟩, later.document⟩, trivial⟩
    · exact later.sane.scopes.categorize '@' _ false
    · exact later.references.labels
    · exact later.references.pending
    · intro target isCurrent
      exact Nat.lt_of_lt_of_le (confined.references.current target isCurrent) grown
  · intro after sane
    exact ⟨sane.scopes.categorize '@' _ false, sane.libraries⟩

theorem keeping_loadPackage (confines : interpreter.Confines old) (kind : PackageKind)
    (options : List String) (name : String) :
    Keeping old bound (loadPackage interpreter kind options name) := by
  have loads : ∀ size, Keeping old size
      (loadFromFile interpreter (Text.trim name) kind) := by
    intro size
    unfold loadFromFile
    apply Confining.get.next
    intro engine _ _
    split
    · exact .quiet fun _ => retains_warn _ _
    · split
      · exact keeping_interpretPackage confines _ _
      · exact .quiet fun _ => retains_warn _ _
  unfold loadPackage
  apply Confining.get.next
  intro earlier _ _
  split
  · exact .done _
  · apply Confining.next
    · exact .modify (fun _ regular => regular) (fun _ => rfl) (fun _ => rfl) fun _ => rfl
    intro _ size _ engine large confined
    rw [sat_bind, sat_get]
    cases found : engine.loadBuiltin? (Text.trim name) kind with
    | some loaded =>
        obtain ⟨stillConfined, document⟩ := confined.loadBuiltin? found
        exact sat_set.mpr ⟨by rw [document], stillConfined, trivial⟩
    | none =>
        have finishes : Keeping old size (do
            if engine.settings.readsPackages then
              loadFromFile interpreter (Text.trim name) kind
            else
              report (.info "packages" ("No implementation of " ++ kind.text ++ " " ++
                Text.trim name ++ "; skipping"))) := by
          split
          · exact loads size
          · exact .quiet fun _ => retains_report _
        exact finishes engine large confined

theorem keeping_loadNamedPackages (confines : interpreter.Confines old) (token : Token) :
    Keeping old bound (loadNamedPackages interpreter token) := by
  unfold loadNamedPackages
  apply Confining.next (.quiet fun _ => retains_readBracketed '[' ']')
  intro options _ _
  apply Confining.next (.quiet fun _ => retains_readArgumentFor token.text)
  intro names _ _
  apply Confining.next (.quiet fun _ => retains_readBracketed '[' ']')
  intro _ _ _
  exact Confining.forM fun name _ _ _ => keeping_loadPackage confines _ _ name

theorem keeping_createTheorem (confines : interpreter.Confines old) (token : Token) :
    Keeping old bound (createTheorem interpreter token) := by
  unfold createTheorem
  apply Confining.next (.quiet fun _ => retains_readStar)
  intro isStarred _ _
  apply Confining.next (.quiet fun _ => retains_readName)
  intro name _ _
  apply Confining.next (.quiet fun _ => retains_readBracketedText)
  intro shared _ _
  apply Confining.next (.quiet fun _ => retains_readArgumentFor token.text)
  intro tokens _ _
  apply (keeping_toText confines tokens).next
  intro caption _ _
  apply Confining.next (.quiet fun _ => retains_readBracketedText)
  intro superior _ _
  dsimp only
  have binds : ∀ (size : Nat) (element : Element), Command.Regular (.element element) →
      Keeping old size (setCommand name (.element element) true) := fun _ element regular =>
    .quiet fun _ => retains_setCommand name regular true
  split
  case' isTrue =>
    apply Confining.next (.quiet fun _ => retains_checkSuperior name superior)
    intro _ _ _
    apply Confining.next
    · apply Confining.quiet
      intro before
      apply retains_modify
      intro engine quiet
      have created := quiet.createCounter name superior 0
      cases superior with
      | none => exact created
      | some above => exact created.setTemplate name _
    intro _ _ _
  all_goals
    apply binds
    refine .element _ ⟨?_, ?_, ?_, ?_⟩ ?_
    all_goals simp [ElementOf.environment, Value.targets]

/-! ## Commands -/

/-- Actions are quiet, except for those that interpret token lists on their own. -/
theorem keeping_perform (confines : interpreter.Confines old) (token : Token)
    (action : Action) : Keeping old bound (perform interpreter token action) := by
  have calm := confines.calm
  cases action with
  | newTheorem => exact keeping_createTheorem confines token
  | loadPackages => exact keeping_loadNamedPackages confines token
  | define command expanded isGlobal =>
      exact .quiet fun _ => retains_define (calm _) command expanded isGlobal
  | letMeaning => exact .quiet fun _ => retains_letMeaning
  | letNextMeaning => exact .quiet fun _ => retains_letNextMeaning
  | makeGlobal =>
      exact .modify (fun _ regular => regular) (fun _ => rfl) (fun _ => rfl) fun _ => rfl
  | makeProtected =>
      exact .modify (fun _ regular => regular) (fun _ => rfl) (fun _ => rfl) fun _ => rfl
  | nothing => exact .done _
  | defineCharacter => exact .quiet fun _ => retains_defineCharacter (calm _) token
  | character => exact .quiet fun _ => retains_putCharacter (calm _)
  | categoryCode => exact .quiet fun _ => retains_assignCategory (calm _)
  | strayNameEnd => exact .quiet fun _ => retains_warn _ _
  | readFile => exact .quiet fun _ => retains_readFile (calm _) token
  | endFile =>
      exact .modify (fun _ regular => regular) (fun _ => rfl) (fun _ => rfl) fun _ => rfl
  | showValue =>
      apply Confining.next (.quiet fun _ => retains_internalValue (calm _))
      intro found _ _
      split
      · exact .quiet fun _ => retains_report _
      · exact .done _
  | openStream => exact .quiet fun _ => retains_openStream (calm _)
  | writeStream => exact .quiet fun _ => retains_writeStream (calm _)
  | closeStream => exact .quiet fun _ => retains_closeStream (calm _)
  | newRegister => exact .quiet fun _ => retains_allocateRegister token
  | arithmetic => exact .quiet fun _ => retains_doArithmetic (calm _) token
  | setLength => exact .quiet fun _ => retains_setLength (calm _) token
  | newSwitch => exact .quiet fun _ => retains_createSwitch
  | newCommand => exact .quiet fun _ => retains_createCommand (calm _) token
  | newEnvironment => exact .quiet fun _ => retains_createEnvironment (calm _) token
  | categorizeAt category => exact .quiet fun _ => retains_categorize '@' category false
  | newCounter => exact .quiet fun _ => quiet_createNamedCounter
  | setCounter => exact .quiet fun _ => quiet_setCounter (calm _) token
  | stepCounter => exact .quiet fun _ => quiet_stepCounter
  | provides =>
      apply Confining.next (.quiet fun _ => retains_readName)
      intro _ _ _
      exact Confining.next (.quiet fun _ => retains_readBracketed '[' ']') fun _ _ _ => .done _

theorem keeping_construct (confines : interpreter.Confines old) (token : Token)
    (construction : Construction) :
    Keeping old bound (construct interpreter token construction) := by
  cases construction with
  | openGroup => exact (keeping_openGroup token).map
  | closeGroup => exact (keeping_closeGroup token).map
  | beginEnvironment => exact (keeping_beginEnvironment confines token).map
  | endEnvironment => exact keeping_endEnvironment confines token
  | mathShift => exact (keeping_shiftMath confines token).map
  | openMath name delimiter => exact (keeping_openMath confines token name delimiter).map
  | closeMath name => exact (keeping_closeMath confines token name).map
  | script => exact keeping_setScript confines token
  | alignmentTab => exact (locating_createElement _ _ _ _).weaken.map
  | verbatimText => exact (keeping_takeVerbatim token).map

theorem keeping_execute (confines : interpreter.Confines old) (token : Token)
    {command : Command} (regular : command.Regular) :
    Keeping old bound (execute interpreter token command) := by
  have calm := confines.calm
  unfold execute
  split
  · exact (keeping_perform confines token _).next fun _ _ _ => .done _
  · exact (keeping_construct confines token _).map
  · exact (locating_invokeElement confines regular token .plain).weaken.next fun _ _ _ => .done _
  · apply Confining.next (.quiet fun _ => retains_callDefinition _ token)
    intro tokens _ _
    exact Confining.next (.quiet fun _ => retains_pushTokens tokens) fun _ _ _ => .done _
  · apply Confining.next (.quiet fun _ => retains_takeGlobal)
    intro isGlobal _ _
    refine Confining.next (.quiet fun _ => retains_setCommand _ ?_ isGlobal) fun _ _ _ => .done _
    simp
  · exact .done _
  · exact .done _
  · next name =>
      exact Confining.next (.quiet fun _ => retains_assignRegister (calm _) name)
        fun _ _ _ => .done _
  · exact (locating_createElement _ _ _ _).weaken.next fun _ _ _ => .done _
  · exact .done _

theorem keeping_itemOf (confines : interpreter.Confines old) (token : Token)
    {command : Command} (regular : command.Regular) :
    Keeping old bound (itemOf interpreter token command) := by
  have invokes : Keeping old bound (invoke interpreter token command) := by
    apply Confining.next (.quiet fun _ => retains_expand (confines.calm _) token command)
    intro expanded _ _
    split
    · exact .done _
    · exact keeping_execute confines token regular
  apply invokes.next
  intro item _ _
  split
  · exact .done _
  · apply Confining.next (.quiet fun _ => retains_clearExpansions)
    intro _ _ _
    split
    · next id =>
        apply Confining.next ?_ fun _ _ _ => .done _
        intro engine _ confined
        exact sat_modify.mpr ⟨Nat.le_of_eq (Document.size_modify _ _ _).symm,
          confined.setDocument (.modify engine.document id fun _ => rfl), trivial⟩
    · exact .done _

theorem keeping_tokenItem (confines : interpreter.Confines old) (token : Token) :
    Keeping old bound (tokenItem interpreter token) := by
  have clears : ∀ size, Keeping old size (do
      clearExpansions
      return some (Item.token token)) := fun _ =>
    Confining.next (.quiet fun _ => retains_clearExpansions) fun _ _ _ => .done _
  unfold tokenItem
  split
  · split
    · apply Confining.next (.quiet fun _ => retains_clearExpansions)
      intro _ _ _
      exact (locating_closeEnvironment _).weaken.next fun _ _ _ => .done _
    · exact .done _
  · exact clears _
  · exact clears _
  · exact clears _
  · exact clears _
  · apply (confining_lookup _).bind
    intro command _ _ regular
    split
    · exact .done _
    · exact keeping_itemOf confines _ regular
  · split
    · apply (confining_lookup _).bind
      intro command _ _ regular
      exact keeping_itemOf confines token regular
    · exact clears _

end TexTree.Engine
