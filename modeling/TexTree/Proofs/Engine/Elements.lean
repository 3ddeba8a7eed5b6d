import TexTree.Proofs.Engine.Arguments

/-!
# Making the nodes of elements

Every command that produces a node creates it, gives it a level and a rule of
digestion that fit together, and reads what belongs to it.  The result is a new
node without a parent.  This is shown for elements and the environments of the
user, for groups, formulas and verbatim text.
-/

namespace TexTree.Engine

variable {interpreter : Interpreter}

/-- A computation that makes a new node. -/
def Makes (computation : TexM NodeId) : Prop :=
  ∀ engine : Engine, engine.Steady →
    Sat computation engine fun node after => ∃ digest level, Making engine node digest level after

/-- A computation that works on a node under construction and gives it away. -/
def Giving (node : NodeId) (digest : Digest) (level : Level) (computation : TexM NodeId) : Prop :=
  ∀ start engine : Engine, Making start node digest level engine →
    Sat computation engine fun result after =>
      ∃ digest level, Making start result digest level after

theorem Makes.fail (fault : Fault) : Makes (fail fault) :=
  fun _ steady => sat_fail.mpr steady.sane

/-- Other nodes may be built before a node is made. -/
theorem Growing.makes {α : Type} {first : TexM α} {second : α → TexM NodeId}
    (growing : Growing first) (makes : ∀ value, Makes (second value)) :
    Makes (first >>= second) := by
  intro engine steady
  refine (growing engine steady).bind ?_
  intro value middle grown
  refine (makes value middle grown.steady).mono ?_
  rintro node after ⟨digest, level, making⟩
  exact ⟨digest, level, making.since steady grown⟩

/-- A node may be worked on before it is given away. -/
theorem Makes.bind {first : TexM NodeId} {second : NodeId → TexM NodeId} (makes : Makes first)
    (giving : ∀ node digest level, Giving node digest level (second node)) :
    Makes (first >>= second) := by
  intro engine steady
  refine (makes engine steady).bind ?_
  rintro node after ⟨digest, level, making⟩
  exact giving node digest level engine after making

theorem makes_createElement (name : String) (level : Level) (mode : Mode) :
    Makes (createElement name level mode) := by
  intro engine steady
  exact sat_modifyGet.mpr ⟨_, _, steady.make name level mode⟩

theorem sat_createElement {engine : Engine} (steady : engine.Steady) (name : String)
    (level : Level) (mode : Mode) :
    Sat (createElement name level mode) engine fun node after =>
      Making engine node .nothing level after ∧ after.document.children node = [] := by
  refine sat_modifyGet.mpr ⟨steady.make name level mode, ?_⟩
  exact (Document.children_create rfl _).trans (Document.children_of_size_le (Nat.le_refl _))

/-- The level and the rule of digestion of a node are settled before it gets
children. -/
theorem sat_define {start engine : Engine} {node : NodeId} {digest : Digest} {level : Level}
    (making : Making start node digest level engine)
    (childless : engine.document.children node = []) {change : Node → Node}
    (parent : ∀ inner, (change inner).parent = inner.parent)
    (children : ∀ inner, (change inner).children = inner.children)
    (kind : ∀ inner, (change inner).kind = inner.kind) (digest' : Digest)
    (digests : ∀ inner, (change inner).digest = digest')
    (levels : ∀ inner, (change inner).level = inner.level)
    (sectioning : digest' = .sectioning → level < Level.endSections)
    (paragraph : level = Level.par → digest' = .nothing ∨ digest' = .environment) :
    Sat (modifyNode node change) engine fun _ after => Making start node digest' level after :=
  sat_modify.mpr
    (making.define childless parent children kind digests levels sectioning paragraph)

section Giving

variable {node : NodeId} {digest : Digest} {level : Level}

theorem Giving.pure : Giving node digest level (pure node) :=
  fun _ _ making => sat_pure.mpr ⟨digest, level, making⟩

theorem Shaping.giving {α : Type} {first : TexM α} {second : α → TexM NodeId}
    (shaping : Shaping node digest level first)
    (giving : ∀ value, Giving node digest level (second value)) :
    Giving node digest level (first >>= second) := by
  intro start engine making
  refine (shaping start engine making).bind ?_
  intro value after later
  exact giving value start after later

end Giving

/-! ## Special effects of elements -/

theorem growing_countList (node : NodeId) (mode : Mode) : Growing (countList node mode) := by
  cases mode with
  | plain => exact .pure _
  | closing =>
      exact .modify (fun _ => rfl) (fun _ regular => regular) (fun _ => rfl) fun _ => rfl
  | opening =>
      unfold countList
      apply (Growing.nodeOf node).bind
      intro inner
      apply Growing.bind
      · exact .modify (fun _ => rfl) (fun _ regular => regular) (fun _ => rfl) fun _ => rfl
      intro _
      split
      · apply Growing.get.bind
        intro engine
        apply Growing.bind
        · apply Growing.forIn
          intro counter _
          exact .quiet fun _ => quiet_changeCounters _
        · intro _
          exact .pure _
      · exact .pure _

theorem growing_numberByCounter (node : NodeId) (counter : String) :
    Growing (numberByCounter node counter) := by
  unfold numberByCounter
  apply Growing.bind
  · exact .modify (fun _ => rfl) (fun _ regular => regular) (fun _ => rfl) fun _ => rfl
  intro _
  apply Growing.bind (.quiet fun _ => retains_printCounter counter)
  intro text
  exact .modifyNode node (fun _ => rfl) (fun _ => rfl) fun _ => rfl

theorem growing_numberItem (node : NodeId) : Growing (numberItem node) := by
  unfold numberItem
  apply (Growing.nodeOf node).bind
  intro inner
  dsimp only
  split
  · apply Growing.get.bind
    intro engine
    apply Growing.bind (.quiet fun _ => quiet_changeCounters _)
    intro _
    exact growing_numberByCounter node _
  · exact .pure _

theorem growing_stepNamedCounter (node : NodeId) : Growing (stepNamedCounter node) := by
  unfold stepNamedCounter
  apply (Growing.nodeOf node).bind
  intro inner
  split
  · exact .pure _
  · next name _ =>
      apply Growing.bind (.quiet fun _ => quiet_changeCounters _)
      intro found
      split
      · exact growing_numberByCounter node name
      · exact .quiet fun _ => retains_warnNoCounter name

theorem shaping_readVerbatimBody {node : NodeId} {digest : Digest} {level : Level} :
    Shaping node digest level (readVerbatimBody node) := by
  unfold readVerbatimBody
  apply (Growing.nodeOf node).shaping.bind
  intro inner
  apply Shaping.bind (Growing.quiet fun _ => retains_reading _).shaping
  intro body
  dsimp only
  split
  case' isTrue =>
    apply Shaping.bind (Growing.quiet fun _ => retains_warn _ _).shaping
    intro _
  all_goals
    apply (Shaping.appendText _).bind
    intro _
    exact (Growing.quiet fun _ => retains_pushTokens _).shaping

/-- What is special to an element concerns its own node at most. -/
theorem shaping_runHook {node : NodeId} {digest : Digest} {level : Level} (mode : Mode)
    (hook : ElementHook) : Shaping node digest level (runHook node mode hook) := by
  cases hook with
  | list => exact (growing_countList node mode).shaping
  | enumerateItem => exact (growing_numberItem node).shaping
  | document =>
      change Shaping _ _ _ (if _ then _ else _)
      split
      · apply Growing.shaping
        exact .modify (fun _ => rfl) (fun _ regular => regular) (fun _ => rfl) fun _ => rfl
      · exact (Growing.pure _).shaping
  | verbatim =>
      change Shaping _ _ _ (if _ then _ else _)
      split
      · exact shaping_readVerbatimBody
      · exact (Growing.pure _).shaping
  | stepCounter => exact (growing_stepNamedCounter node).shaping

/-! ## Elements -/

theorem growing_popOwner (owner : FrameOwner) : Growing (popOwner owner) :=
  .modify (fun _ => rfl) (fun _ regular => regular.popOwner owner none) (fun _ => rfl)
    fun _ => rfl

theorem growing_pushScope (owner : Option FrameOwner) {locals : List (String × Command)}
    (regular : ∀ entry ∈ locals, entry.2.Regular) : Growing (pushScope owner locals) :=
  .modify (fun _ => rfl) (fun _ scopes => scopes.push owner regular) (fun _ => rfl) fun _ => rfl

theorem growing_pushEnvironment (name : String) : Growing (pushEnvironment name) :=
  .modify (fun _ => rfl) (fun _ regular => regular) (fun _ => rfl) fun _ => rfl

/-- The node at the end of an environment has no rule of digestion. -/
theorem makes_closeEnvironment (name : String) : Makes (closeEnvironment name) := by
  intro engine steady
  unfold closeEnvironment
  refine sat_bind.mpr (sat_get.mpr ?_)
  refine (sat_createElement steady _ _ _).bind ?_
  intro node after making
  refine ((growing_popOwner _).shaping engine after making.1).bind ?_
  intro _ after making
  refine (Growing.shaping ?_ engine after making).bind ?_
  · exact .modify (fun _ => rfl) (fun _ regular => regular) (fun _ => rfl) fun _ => rfl
  intro _ after making
  refine (Shaping.recordDepth engine after making).bind ?_
  intro _ after making
  exact sat_pure.mpr ⟨_, _, making⟩

/-- Invoking a regular element makes a node with its level and its rule of
digestion. -/
theorem makes_invokeElement (builds : interpreter.Builds) {element : Element}
    (regular : Command.Regular (.element element)) (token : Token) (mode : Mode) :
    Makes (invokeElement interpreter element token mode) := by
  have fits := regular.fits
  intro engine steady
  unfold invokeElement
  dsimp only
  split
  · refine (makes_closeEnvironment element.name engine steady).bind ?_
    rintro node after ⟨digest, level, making⟩
    split
    · next hook _ =>
        refine (shaping_runHook .closing hook engine after making).bind ?_
        intro _ last later
        exact sat_pure.mpr ⟨digest, level, later⟩
    · exact sat_pure.mpr ⟨digest, level, making⟩
  · refine (sat_createElement steady _ _ _).bind ?_
    rintro node after ⟨making, childless⟩
    refine Sat.bind (sat_define making childless ?_ ?_ ?_ element.digest ?_ ?_
      fits.sectioning fits.paragraph) ?_
    iterate 5
      intro inner
      rfl
    intro _ after making
    refine Shaping.giving ?_ ?_ engine after making
    · apply Growing.shaping
      apply Growing.forIn
      intro entry _
      exact .setAttribute node entry.1 entry.2
    intro _
    apply (growing_pushScope _ regular.locals).shaping.giving
    intro _
    split
    case' isTrue =>
      apply (growing_pushEnvironment element.name).shaping.giving
      intro _
    all_goals
      apply (shaping_readElementArguments builds element fits.content).giving
      intro _
      split
      case' h_1 hook _ =>
        apply (shaping_runHook mode hook).giving
        intro _
      all_goals
        split
        · apply (growing_popOwner _).shaping.giving
          intro _
          exact Shaping.recordDepth.giving fun _ => .pure
        · exact Shaping.recordDepth.giving fun _ => .pure

/-- An environment of the user gets the level and the rule of any environment. -/
theorem makes_beginUserEnvironment (name : String) (opening : Definition) (token : Token) :
    Makes (beginUserEnvironment name opening token) := by
  intro engine steady
  unfold beginUserEnvironment
  refine (sat_createElement steady _ _ _).bind ?_
  rintro node after ⟨making, childless⟩
  refine Sat.bind (sat_define making childless ?_ ?_ ?_ .environment ?_ ?_ ?_ ?_) ?_
  iterate 5
    intro inner
    rfl
  · simp
  · simp
  intro _ after making
  refine Shaping.giving ?_ ?_ engine after making
  · exact (growing_pushScope _ (by simp)).shaping
  intro _
  apply (growing_pushEnvironment name).shaping.giving
  intro _
  apply Shaping.giving (Growing.quiet fun _ => retains_readCall opening token).shaping
  intro arguments
  apply Shaping.giving
  · exact .modifyNode (fun _ => rfl) (fun _ => rfl) (fun _ => rfl) (fun _ => rfl) fun _ => rfl
  intro _
  apply Shaping.giving (Growing.quiet fun _ => retains_pushTokens _).shaping
  intro _
  exact Shaping.recordDepth.giving fun _ => .pure

/-! ## Groups, formulas and verbatim text -/

theorem makes_openGroup (token : Token) : Makes (openGroup token) := by
  intro engine steady
  unfold openGroup
  refine (sat_createElement steady _ _ _).bind ?_
  rintro node after ⟨making, childless⟩
  refine Sat.bind (sat_define making childless ?_ ?_ ?_ .group ?_ ?_ ?_ ?_) ?_
  iterate 5
    intro inner
    rfl
  · simp
  · simp [Level.command, Level.par]
  intro _ after making
  refine Shaping.giving ?_ (fun _ => .pure) engine after making
  exact (growing_pushScope none (by simp)).shaping

theorem makes_closeGroup (token : Token) : Makes (closeGroup token) := by
  have closes : ∀ name, Makes (do
      modify fun engine => { engine with scopes := engine.scopes.pop }
      createElement name Level.command .plain) := by
    intro name
    apply Growing.makes
    · exact .modify (fun _ => rfl) (fun _ regular => regular.pop) (fun _ => rfl) fun _ => rfl
    intro _
    exact makes_createElement _ _ _
  unfold closeGroup
  apply Growing.get.makes
  intro engine
  dsimp only
  split
  · exact (Growing.fail _).makes fun _ => closes _
  · exact closes _

/-- The environments for formulas are regular. -/
theorem regular_mathEnvironment (name : String) :
    Command.Regular (.element (mathEnvironment name)) := by
  refine .element _ ⟨?_, ?_, ?_, ?_⟩ ?_
  all_goals simp [mathEnvironment, ElementOf.environment, Level.environment, Level.par]

theorem makes_openMath (builds : interpreter.Builds) (token : Token) (name delimiter : String) :
    Makes (openMath interpreter token name delimiter) := by
  unfold openMath
  apply Growing.makes
  · exact .modify (fun _ => rfl) (fun _ regular => regular) (fun _ => rfl) fun _ => rfl
  intro _
  apply (makes_invokeElement builds (regular_mathEnvironment name) token .opening).bind
  intro node digest level
  apply Shaping.giving
  · exact .modifyNode (fun _ => rfl) (fun _ => rfl) (fun _ => rfl) (fun _ => rfl) fun _ => rfl
  intro _
  exact .pure

theorem makes_closeMath (builds : interpreter.Builds) (token : Token) (name : String) :
    Makes (closeMath interpreter token name) := by
  have closes : Makes (do
      modify fun engine => { engine with mathStack := engine.mathStack.drop 1 }
      invokeElement interpreter (mathEnvironment name) token .closing) := by
    apply Growing.makes
    · exact .modify (fun _ => rfl) (fun _ regular => regular) (fun _ => rfl) fun _ => rfl
    intro _
    exact makes_invokeElement builds (regular_mathEnvironment name) token .closing
  unfold closeMath
  apply Growing.get.makes
  intro engine
  dsimp only
  split
  · exact (Growing.fail _).makes fun _ => closes
  · exact closes

theorem makes_shiftMath (builds : interpreter.Builds) (token : Token) :
    Makes (shiftMath interpreter token) := by
  have toggles : ∀ name delimiter, Makes (do
      if (← get).isInMath name then closeMath interpreter token name
      else openMath interpreter token name delimiter) := by
    intro name delimiter
    apply Growing.get.makes
    intro engine
    split
    · exact makes_closeMath builds token name
    · exact makes_openMath builds token name delimiter
  unfold shiftMath
  apply Growing.get.makes
  intro engine
  split
  · exact makes_closeMath builds token "math"
  · apply Growing.makes (.quiet fun _ => retains_nextRaw)
    intro found
    split
    · exact toggles _ _
    · next following =>
        split
        · exact toggles _ _
        · apply Growing.makes (.quiet fun _ => retains_putBack following)
          intro _
          exact toggles _ _

/-- How `takeVerbatim` goes on behind the delimiter and the mark in front of it. -/
def takeDelimited (token : Token) (delimiter : Char) (mark : String) : TexM NodeId := do
  match ← reading fun _ input => input.readVerbatim (String.singleton delimiter) with
  | none => fail (.inputEndedIn token.text)
  | some text =>
      let node ← createElement "verb" Level.command .plain
      modifyNode node fun inner =>
        { inner with contentForm := .delimited delimiter, argumentSource := mark }
      appendText node text
      return node

theorem makes_takeDelimited (token : Token) (delimiter : Char) (mark : String) :
    Makes (takeDelimited token delimiter mark) := by
  unfold takeDelimited
  apply Growing.makes (.quiet fun _ => retains_reading _)
  intro found
  split
  · exact .fail _
  · next text =>
      apply (makes_createElement _ _ _).bind
      intro node digest level
      apply Shaping.giving
      · exact .modifyNode (fun _ => rfl) (fun _ => rfl) (fun _ => rfl) (fun _ => rfl)
          fun _ => rfl
      intro _
      exact (Shaping.appendText text).giving fun _ => .pure

theorem makes_takeVerbatim (token : Token) : Makes (takeVerbatim token) := by
  unfold takeVerbatim
  apply Growing.makes (.quiet fun _ => retains_readAnyChar token.text)
  intro first
  dsimp only
  split
  · apply Growing.makes (.quiet fun _ => retains_readAnyChar token.text)
    intro delimiter
    exact makes_takeDelimited token delimiter _
  · exact makes_takeDelimited token first _

/-! ## Environments -/

/-- What is looked up is regular. -/
theorem sat_lookup {engine : Engine} (steady : engine.Steady) (name : String) :
    Sat (lookup name) engine fun command after => engine.Grown after ∧ command.Regular := by
  have binds : ∀ {after : Engine}, engine.Quiet after →
      Sat (do
        modify fun engine => { engine with scopes := engine.scopes.bindPlaceholder name }
        return Command.unrecognized name) after fun command after =>
          engine.Grown after ∧ command.Regular := by
    intro after quiet
    refine sat_bind.mpr (sat_modify.mpr (sat_pure.mpr ?_))
    exact ⟨steady.quiet (quiet.bindPlaceholder name), by simp⟩
  unfold lookup
  refine sat_bind.mpr (sat_get.mpr ?_)
  split
  · next command found =>
      exact sat_pure.mpr ⟨steady.refl, steady.sane.scopes.command? found⟩
  · dsimp only
    split
    · refine (Sat.quiet steady.sane (retains_warn _ _)).bind ?_
      intro _ after quiet
      exact binds quiet
    · exact binds (.refl engine)

/-- An element that is used as an environment is still regular. -/
theorem regular_of_environment {element : Element}
    (regular : Command.Regular (.element element)) :
    Command.Regular
      (.element { element with isEnvironment := true, digest := .environment }) := by
  have fits := regular.fits
  refine .element _ ⟨by simp, by simp, ?_, fits.fixed⟩ regular.locals
  intro argument member isContent
  exact ⟨(fits.content argument member isContent).1, .inr rfl⟩

theorem regular_unknownEnvironment (name : String) :
    Command.Regular (.element (.environment name [])) := by
  refine .element _ ⟨?_, ?_, ?_, ?_⟩ ?_
  all_goals simp [ElementOf.environment]

/-- How `beginEnvironment` goes on behind the name. -/
def beginNamed (interpreter : Interpreter) (token : Token) (name : String) : TexM NodeId := do
  let control : Token := { Token.control name with position := token.position }
  match ← lookup name with
  | .element element =>
      let environment :=
        if element.isEnvironment then element
        else { element with isEnvironment := true, digest := .environment }
      invokeElement interpreter environment token .opening
  | .environment own opening _ => beginUserEnvironment own opening control
  | .definition rule => beginUserEnvironment name rule control
  | .unrecognized _ => invokeElement interpreter (.environment name []) token .opening
  | _ =>
      let node ← invokeElement interpreter (.environment name []) token .opening
      putBack control
      return node

theorem makes_beginNamed (builds : interpreter.Builds) (token : Token) (name : String) :
    Makes (beginNamed interpreter token name) := by
  intro engine steady
  have plain := makes_invokeElement builds (regular_unknownEnvironment name) token .opening
  unfold beginNamed
  refine (sat_lookup steady name).bind ?_
  rintro command after ⟨grown, regular⟩
  refine Sat.mono (?_ : Sat _ after fun node last =>
    ∃ digest level, Making after node digest level last) ?_
  · split
    · next element =>
        dsimp only
        split
        · exact makes_invokeElement builds regular token .opening after grown.steady
        · exact makes_invokeElement builds (regular_of_environment regular) token .opening
            after grown.steady
    · exact makes_beginUserEnvironment _ _ _ after grown.steady
    · exact makes_beginUserEnvironment _ _ _ after grown.steady
    · exact plain after grown.steady
    · refine plain.bind ?_ after grown.steady
      intro node digest level
      apply Shaping.giving (Growing.quiet fun _ => retains_putBack _).shaping
      intro _
      exact .pure
  · rintro node last ⟨digest, level, making⟩
    exact ⟨digest, level, making.since steady grown⟩

theorem makes_beginEnvironment (builds : interpreter.Builds) (token : Token) :
    Makes (beginEnvironment interpreter token) := by
  unfold beginEnvironment
  apply Growing.makes (.quiet fun _ => retains_readName)
  intro name
  dsimp only
  split
  · exact (Growing.fail _).makes fun _ => makes_beginNamed builds token name
  · exact makes_beginNamed builds token name

end TexTree.Engine
