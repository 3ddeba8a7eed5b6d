import TexTree.Proofs.Reference.Arguments

/-!
# References and elements

An element makes its node before it reads its arguments, so that the node which is
numbered and refers to labels is in the document.  Groups, formulas and verbatim text
touch no labels and references.
-/

namespace TexTree.Engine

variable {old : References} {interpreter : Interpreter} {bound : Nat}

/-! ## Elements and environments -/

section Elements

variable {node : NodeId}

theorem keeping_numberByCounter (inside : node < bound) (counter : String) :
    Keeping old bound (numberByCounter node counter) := by
  unfold numberByCounter
  apply (Confining.setCurrentLabel inside).next
  intro _ _ _
  apply Confining.next (.quiet fun _ => retains_printCounter counter)
  intro text _ _
  exact .modifyNode node fun _ => rfl

theorem keeping_countList (mode : Mode) : Keeping old bound (countList node mode) := by
  have counts : ∀ {size : Nat} (change : Nat → Nat), Keeping old size
      (modify fun engine => { engine with listDepth := change engine.listDepth }) := fun _ =>
    .modify (fun _ regular => regular) (fun _ => rfl) (fun _ => rfl) fun _ => rfl
  cases mode with
  | plain => exact .done _
  | closing => exact counts (· - 1)
  | opening =>
      unfold countList
      apply (Confining.nodeOf node).next
      intro inner _ _
      apply (counts fun depth => min (depth + 1) maxListDepth).next
      intro _ _ _
      split
      · apply Confining.get.next
        intro engine _ _
        refine Confining.next (Confining.forIn fun counter _ size _ => ?_) fun _ _ _ => .done _
        exact .quiet fun _ => quiet_changeCounters _
      · exact .done _

theorem keeping_numberItem (inside : node < bound) : Keeping old bound (numberItem node) := by
  unfold numberItem
  apply (Confining.nodeOf node).nextWith inside
  intro inner _ inside
  dsimp only
  split
  · apply Confining.get.nextWith inside
    intro engine _ inside
    apply Confining.nextWith (.quiet fun _ => quiet_changeCounters _) inside
    intro _ _ inside
    exact keeping_numberByCounter inside _
  · exact .done _

theorem keeping_stepNamedCounter (inside : node < bound) :
    Keeping old bound (stepNamedCounter node) := by
  unfold stepNamedCounter
  apply (Confining.nodeOf node).nextWith inside
  intro inner _ inside
  split
  · exact .done _
  · next name _ =>
      apply Confining.nextWith (.quiet fun _ => quiet_changeCounters _) inside
      intro found _ inside
      split
      · exact keeping_numberByCounter inside name
      · exact .quiet fun _ => retains_warnNoCounter name

theorem keeping_readVerbatimBody : Keeping old bound (readVerbatimBody node) := by
  unfold readVerbatimBody
  apply (Confining.nodeOf node).next
  intro inner _ _
  apply Confining.next (.quiet fun _ => retains_reading _)
  intro body _ _
  dsimp only
  split
  case' isTrue =>
    apply Confining.next (.quiet fun _ => retains_warn _ _)
    intro _ _ _
  all_goals
    apply (Confining.appendText node _).next
    intro _ _ _
    exact .quiet fun _ => retains_pushTokens _

/-- What is special to an element may number its node. -/
theorem keeping_runHook (inside : node < bound) (mode : Mode) (hook : ElementHook) :
    Keeping old bound (runHook node mode hook) := by
  cases hook with
  | list => exact keeping_countList mode
  | enumerateItem => exact keeping_numberItem inside
  | document =>
      change Keeping _ _ (if _ then _ else _)
      split
      · exact .modify (fun _ regular => regular) (fun _ => rfl) (fun _ => rfl) fun _ => rfl
      · exact .done _
  | verbatim =>
      change Keeping _ _ (if _ then _ else _)
      split
      · exact keeping_readVerbatimBody
      · exact .done _
  | stepCounter => exact keeping_stepNamedCounter inside

/-- A node that is in the document stays there. -/
theorem Confining.locates (inside : node < bound) : Locating old bound (pure node) :=
  .yields fun _ large => Nat.lt_of_lt_of_le inside large

theorem keeping_popOwner (owner : FrameOwner) : Keeping old bound (popOwner owner) :=
  .modify (fun _ regular => regular.popOwner owner none) (fun _ => rfl) (fun _ => rfl) fun _ => rfl

theorem keeping_pushScope (owner : Option FrameOwner) {locals : List (String × Command)}
    (regular : ∀ entry ∈ locals, entry.2.Regular) :
    Keeping old bound (pushScope owner locals) :=
  .modify (fun _ scopes => scopes.push owner regular) (fun _ => rfl) (fun _ => rfl) fun _ => rfl

theorem keeping_pushEnvironment (name : String) : Keeping old bound (pushEnvironment name) :=
  .modify (fun _ regular => regular) (fun _ => rfl) (fun _ => rfl) fun _ => rfl

theorem keeping_popEnvironment : Keeping old bound popEnvironment :=
  .modify (fun _ regular => regular) (fun _ => rfl) (fun _ => rfl) fun _ => rfl

theorem locating_closeEnvironment (name : String) : Locating old bound (closeEnvironment name) := by
  unfold closeEnvironment
  apply Confining.get.next
  intro engine _ _
  apply (locating_createElement _ _ _ _).bind
  intro node _ _ inside
  apply (keeping_popOwner _).nextWith inside
  intro _ _ inside
  apply keeping_popEnvironment.nextWith inside
  intro _ _ inside
  apply (Confining.recordDepth node).nextWith inside
  intro _ _ inside
  exact .locates inside

/-- The node of an element is made before its arguments are read. -/
theorem locating_invokeElement (confines : interpreter.Confines old) {element : Element}
    (regular : Command.Regular (.element element)) (token : Token) (mode : Mode) :
    Locating old bound (invokeElement interpreter element token mode) := by
  have finishes : ∀ {node : NodeId} {size : Nat} (owner : FrameOwner), node < size →
      Locating old size (do
        if mode = .plain then popOwner owner
        recordDepth node
        return node) := by
    intro node size owner inside
    dsimp only
    split
    case' isTrue =>
      apply (keeping_popOwner owner).nextWith inside
      intro _ _ inside
    all_goals
      apply (Confining.recordDepth node).nextWith inside
      intro _ _ inside
      exact .locates inside
  unfold invokeElement
  dsimp only
  split
  · apply (locating_closeEnvironment element.name).bind
    intro node _ _ inside
    split
    · apply (keeping_runHook inside .closing _).nextWith inside
      intro _ _ inside
      exact .locates inside
    · exact .locates inside
  · apply (locating_createElement _ _ _ _).bind
    intro node _ _ inside
    refine .modifying node (fun size large => ?_) fun _ => rfl
    have inside := Nat.lt_of_lt_of_le inside large
    refine Confining.nextWith (Confining.forIn fun entry member _ _ => ?_) inside ?_
    · exact .setAttribute node entry.1
        (Value.targets_of_eq_nil (regular.fits.fixed entry member))
    intro _ _ inside
    apply (keeping_pushScope _ regular.locals).nextWith inside
    intro _ _ inside
    split
    case' isTrue =>
      apply (keeping_pushEnvironment element.name).nextWith inside
      intro _ _ inside
    all_goals
      apply (keeping_readElementArguments confines inside element).nextWith inside
      intro _ _ inside
      split
      · apply (keeping_runHook inside mode _).nextWith inside
        intro _ _ inside
        exact finishes _ inside
      · exact finishes _ inside

theorem locating_beginUserEnvironment (name : String) (opening : Definition) (token : Token) :
    Locating old bound (beginUserEnvironment name opening token) := by
  unfold beginUserEnvironment
  apply (locating_createElement _ _ _ _).bind
  intro node _ _ inside
  refine .modifying node (fun size large => ?_) fun _ => rfl
  apply (keeping_pushScope _ (by simp)).nextWith (Nat.lt_of_lt_of_le inside large)
  intro _ _ inside
  apply (keeping_pushEnvironment name).nextWith inside
  intro _ _ inside
  apply Confining.nextWith (.quiet fun _ => retains_readCall opening token) inside
  intro arguments _ inside
  refine .modifying node (fun size large => ?_) fun _ => rfl
  apply Confining.nextWith (.quiet fun _ => retains_pushTokens _) (Nat.lt_of_lt_of_le inside large)
  intro _ _ inside
  apply (Confining.recordDepth node).nextWith inside
  intro _ _ inside
  exact .locates inside

/-! ## Groups, formulas and verbatim text -/

theorem keeping_openGroup (token : Token) : Keeping old bound (openGroup token) := by
  unfold openGroup
  apply (locating_createElement _ _ _ _).weaken.next
  intro node _ _
  refine .modifying node (fun _ _ => ?_) fun _ => rfl
  exact (keeping_pushScope none (by simp)).next fun _ _ _ => .done _

theorem keeping_closeGroup (token : Token) : Keeping old bound (closeGroup token) := by
  have closes : ∀ {size : Nat} (name : String), Keeping old size (do
      modify fun engine => { engine with scopes := engine.scopes.pop }
      createElement name Level.command .plain) := by
    intro size name
    apply Confining.next
    · exact .modify (fun _ regular => regular.pop) (fun _ => rfl) (fun _ => rfl) fun _ => rfl
    intro _ _ _
    exact (locating_createElement _ _ _ _).weaken
  unfold closeGroup
  apply Confining.get.next
  intro engine _ _
  dsimp only
  split
  · exact Confining.next (.fail _) fun _ _ _ => closes _
  · exact closes _

theorem keeping_openMath (confines : interpreter.Confines old) (token : Token)
    (name delimiter : String) : Keeping old bound (openMath interpreter token name delimiter) := by
  unfold openMath
  apply Confining.next
  · exact .modify (fun _ regular => regular) (fun _ => rfl) (fun _ => rfl) fun _ => rfl
  intro _ _ _
  apply (locating_invokeElement confines (regular_mathEnvironment name) token .opening).weaken.next
  intro node _ _
  exact .modifying node (fun _ _ => .done _) fun _ => rfl

theorem keeping_closeMath (confines : interpreter.Confines old) (token : Token) (name : String) :
    Keeping old bound (closeMath interpreter token name) := by
  have closes : ∀ {size : Nat}, Keeping old size (do
      modify fun engine => { engine with mathStack := engine.mathStack.drop 1 }
      invokeElement interpreter (mathEnvironment name) token .closing) := by
    intro size
    apply Confining.next
    · exact .modify (fun _ regular => regular) (fun _ => rfl) (fun _ => rfl) fun _ => rfl
    intro _ _ _
    exact (locating_invokeElement confines (regular_mathEnvironment name) token .closing).weaken
  unfold closeMath
  apply Confining.get.next
  intro engine _ _
  dsimp only
  split
  · exact Confining.next (.fail _) fun _ _ _ => closes
  · exact closes

theorem keeping_shiftMath (confines : interpreter.Confines old) (token : Token) :
    Keeping old bound (shiftMath interpreter token) := by
  have toggles : ∀ {size : Nat} (name delimiter : String), Keeping old size (do
      if (← get).isInMath name then closeMath interpreter token name
      else openMath interpreter token name delimiter) := by
    intro size name delimiter
    apply Confining.get.next
    intro engine _ _
    split
    · exact keeping_closeMath confines token name
    · exact keeping_openMath confines token name delimiter
  unfold shiftMath
  apply Confining.get.next
  intro engine _ _
  split
  · exact keeping_closeMath confines token "math"
  · apply Confining.next (.quiet fun _ => retains_nextRaw)
    intro found _ _
    split
    · exact toggles _ _
    · next following =>
        split
        · exact toggles _ _
        · apply Confining.next (.quiet fun _ => retains_putBack following)
          intro _ _ _
          exact toggles _ _

theorem keeping_setScript (confines : interpreter.Confines old) (token : Token) :
    Keeping old bound (setScript interpreter token) := by
  unfold setScript
  apply Confining.get.next
  intro engine _ _
  dsimp only
  split
  · exact Confining.next (.quiet fun _ => retains_putBack _) fun _ _ _ => .done _
  · apply Confining.next (.quiet fun _ => retains_readArgument)
    intro found _ _
    split
    · exact .fail _
    · next tokens isBraced =>
        apply (locating_createElement _ _ _ _).weaken.next
        intro node _ _
        apply (keeping_toFragment confines tokens).next
        intro fragment _ _
        apply (Confining.appendNode node fragment).next
        intro _ _ _
        split
        · exact .modifying node (fun _ _ => .done _) fun _ => rfl
        · exact .done _

theorem keeping_takeDelimited (token : Token) (delimiter : Char) (mark : String) :
    Keeping old bound (takeDelimited token delimiter mark) := by
  unfold takeDelimited
  apply Confining.next (.quiet fun _ => retains_reading _)
  intro found _ _
  split
  · exact .fail _
  · next text =>
      apply (locating_createElement _ _ _ _).weaken.next
      intro node _ _
      refine .modifying node (fun _ _ => ?_) fun _ => rfl
      exact (Confining.appendText node text).next fun _ _ _ => .done _

theorem keeping_takeVerbatim (token : Token) : Keeping old bound (takeVerbatim token) := by
  unfold takeVerbatim
  apply Confining.next (.quiet fun _ => retains_readAnyChar token.text)
  intro first _ _
  dsimp only
  split
  · apply Confining.next (.quiet fun _ => retains_readAnyChar token.text)
    intro delimiter _ _
    exact keeping_takeDelimited token delimiter _
  · exact keeping_takeDelimited token first _

end Elements

end TexTree.Engine
