import TexTree.Proofs.Reference.Confined

/-!
# References in arguments

An argument that is a label attaches it to the node that was numbered last, and one
that is a reference lets the node of its element refer to a label.  All other
arguments become values without references.  While arguments are read, token lists
may be interpreted into fragments of their own, which is done by tasks of the
interpreter.
-/

namespace TexTree.Engine

variable {old : References} {interpreter : Interpreter} {bound : Nat}

/-! ## Fragments -/

theorem keeping_nextItem (confines : interpreter.Confines old) :
    Keeping old bound (interpreter.run .nextItem) :=
  confines.nextItem.larger (Nat.zero_le _)

theorem keeping_digest (confines : interpreter.Confines old) (node : NodeId) :
    Keeping old bound (interpreter.run (.digest node)) :=
  (confines.digest node).larger (Nat.zero_le _)

/-- A node that closes something is dropped; any other one is digested and appended. -/
theorem keeping_takeUp (confines : interpreter.Confines old) (parent id : NodeId)
    {next : TexM Unit} (continues : ∀ bound, Keeping old bound next) :
    Keeping old bound (do
      let node ← nodeOf id
      if !(node.mode == .closing || node.closesGroup) then
        interpreter.run (.digest id)
        appendNode parent id
      next) := by
  apply (Confining.nodeOf id).next
  intro node _ _
  dsimp only
  split
  · apply (keeping_digest confines id).next
    intro _ _ _
    exact (Confining.appendNode parent id).next fun _ _ _ => continues _
  · exact continues _

theorem keeping_digestUntilWithin (confines : interpreter.Confines old) (parent : NodeId)
    (marker : String) (steps : Nat) :
    Keeping old bound (digestUntilWithin interpreter parent marker steps) := by
  induction steps generalizing bound with
  | zero => exact .fail _
  | succ steps ih =>
      unfold digestUntilWithin
      apply (keeping_nextItem confines).next
      intro item _ _
      split
      · exact .quiet fun _ => retains_warn _ _
      · split
        · split
          · exact .done _
          · exact ih
        · exact (Confining.appendText parent _).next fun _ _ _ => ih
      · exact keeping_takeUp confines parent _ fun _ => ih

/-- A change that is made in any case must keep references as well. -/
theorem Confining.ensuring {α : Type} {computation : TexM α} {change : Engine → Engine}
    (keeping : Keeping old bound computation)
    (scopes : ∀ engine, engine.scopes.Regular → (change engine).scopes.Regular)
    (libraries : ∀ engine, (change engine).libraries = engine.libraries)
    (references : ∀ engine, (change engine).references = engine.references)
    (document : ∀ engine, (change engine).document = engine.document) :
    Keeping old bound (ensuring computation change) := by
  intro engine large confined
  apply Sat.ensuring
  · refine (keeping engine large confined).mono ?_
    rintro value after ⟨grown, stillConfined, _⟩
    refine ⟨by rw [document]; exact grown, ?_, trivial⟩
    exact stillConfined.same (scopes after) (libraries after) (references after) (document after)
  · intro after sane
    refine ⟨scopes after sane.scopes, ?_⟩
    rw [libraries]
    exact sane.libraries

theorem keeping_toFragment (confines : interpreter.Confines old) (tokens : List Token) :
    Keeping old bound (toFragment interpreter tokens) := by
  unfold toFragment
  apply (keeping_createFragment _).next
  intro fragment _ _
  apply Confining.next (.quiet fun _ => retains_pushTokens _)
  intro _ _ _
  apply Confining.get.next
  intro engine _ _
  apply Confining.next
  · exact .modify (fun _ regular => regular) (fun _ => rfl) (fun _ => rfl) fun _ => rfl
  intro _ _ _
  refine Confining.next (Confining.ensuring (keeping_digestUntilWithin confines fragment "arg" _)
    (fun _ regular => regular) (fun _ => rfl) (fun _ => rfl) fun _ => rfl) ?_
  intro _ _ _
  exact .done _

theorem keeping_toText (confines : interpreter.Confines old) (tokens : List Token) :
    Keeping old bound (toText interpreter tokens) := by
  apply (keeping_toFragment confines tokens).next
  intro _ _ _
  exact Confining.get.next fun _ _ _ => .done _

/-! ## Labels, references and numbers -/

theorem keeping_attachLabel (label : String) : Keeping old bound (attachLabel label) := by
  unfold attachLabel
  apply Confining.next
  · intro engine _ confined
    rw [sat_modifyGet]
    generalize attached : engine.references.attach engine.document label none = result
    obtain ⟨references, document, reports⟩ := result
    obtain ⟨size, stillConfined, refers⟩ := confined.references.attach confined.document attached
    rw [← size] at stillConfined refers
    exact ⟨Nat.le_of_eq size.symm,
      ⟨⟨confined.sane.scopes, confined.sane.libraries⟩, stillConfined, refers⟩, trivial⟩
  · intro reports _ _
    exact .quiet fun _ => retains_reportAll reports

theorem keeping_referTo {node : NodeId} (inside : node < bound) (name label : String) :
    Keeping old bound (referTo node name label) := by
  intro engine large confined
  rw [referTo, sat_modify]
  generalize referred : engine.references.refer engine.document node name label = result
  obtain ⟨references, document⟩ := result
  obtain ⟨size, stillConfined, refers⟩ := confined.references.refer confined.document
    (Nat.lt_of_lt_of_le inside large) referred
  rw [← size] at stillConfined refers
  exact ⟨Nat.le_of_eq size.symm,
    ⟨⟨confined.sane.scopes, confined.sane.libraries⟩, stillConfined, refers⟩, trivial⟩

theorem keeping_number {node : NodeId} (inside : node < bound) (counter : String) :
    Keeping old bound (number node counter) := by
  unfold number
  apply Confining.next
  · apply Confining.quiet
    intro before
    exact retains_modify fun _ quiet => quiet.createCounter counter none 0
  intro _ _ large
  apply Confining.next (.quiet fun _ => quiet_changeCounters _)
  intro _ _ larger
  exact .setCurrentLabel (Nat.lt_of_lt_of_le inside (Nat.le_trans large larger))

/-! ## Values -/

/-- The targets of a value are in the document. -/
def Local (old : References) (value : Value) (size : Nat) : Prop := value.Targets (old.Allowed size)

/-- A value without references. -/
theorem Confining.plain {value : Value} (isPlain : value.targets = []) :
    Confining old bound (Local old) (pure value) :=
  .yields fun _ _ => Value.targets_of_eq_nil isPlain

theorem Confining.mapM {α β : Type} {holds : β → Nat → Prop} {items : List α}
    {step : α → TexM β}
    (mono : ∀ value size later, holds value size → size ≤ later → holds value later)
    (each : ∀ item ∈ items, ∀ size, bound ≤ size → Confining old size holds (step item)) :
    Confining old bound (fun values size => ∀ value ∈ values, holds value size)
      (items.mapM step) := by
  induction items generalizing bound with
  | nil => exact .yields fun _ _ _ member => absurd member List.not_mem_nil
  | cons item rest ih =>
      rw [List.mapM_cons]
      apply (each item List.mem_cons_self bound (Nat.le_refl _)).bind
      intro first size large isFirst
      apply Confining.bind (ih fun other member size' larger =>
        each other (List.mem_cons_of_mem item member) size' (Nat.le_trans large larger))
      intro others size' larger areOthers
      apply Confining.yields
      intro final largest value member
      rcases List.mem_cons.mp member with rfl | later
      · exact mono _ size final isFirst (Nat.le_trans larger largest)
      · exact mono _ size' final (areOthers value later) largest

theorem Local.mono {value : Value} {size later : Nat} (isLocal : Local old value size)
    (larger : size ≤ later) : Local old value later :=
  Value.Targets.mono isLocal fun _ _ allowed => allowed.mono larger

/-- A quantity that is read from a token list refers to nothing. -/
theorem confining_readingTokens {α : Type} (tokens : List Token) {computation : TexM α}
    (quiet : ∀ before : Engine, Retains before.Quiet computation) {wrap : α → Value}
    (plain : ∀ value, (wrap value).targets = []) :
    Confining old bound (Local old) (do return wrap (← readingTokens tokens computation)) := by
  apply Confining.next (.quiet fun _ => retains_readingTokens tokens (quiet _))
  intro value _ _
  exact .plain (plain value)

theorem confining_convertWithin (confines : interpreter.Confines old) {node : NodeId}
    (inside : node < bound) (argument : Argument) (steps : Nat) (type : ArgumentType)
    (tokens : List Token) :
    Confining old bound (Local old)
      (convertWithin interpreter node argument steps type tokens) := by
  have mono : ∀ value size later, Local old value size → size ≤ later → Local old value later :=
    fun _ _ _ isLocal larger => isLocal.mono larger
  induction steps generalizing bound type tokens with
  | zero => exact .fail _
  | succ steps ih =>
      have calm := confines.calm
      unfold convertWithin
      dsimp only
      cases type with
      | fragment => exact (keeping_toFragment confines tokens).next fun _ _ _ => .plain rfl
      | text => exact (keeping_toText confines tokens).next fun _ _ _ => .plain rfl
      | control =>
          dsimp only
          split
          · exact .plain rfl
          · exact .plain rfl
      | label =>
          apply (keeping_toText confines tokens).next
          intro label _ _
          exact (keeping_attachLabel label).next fun _ _ _ => .plain rfl
      | reference =>
          apply (keeping_toText confines tokens).next
          intro label _ large
          apply (keeping_referTo (Nat.lt_of_lt_of_le inside large) argument.name label).next
          intro _ _ _ engine _ confined
          refine sat_bind.mpr (sat_nodeOf.mpr (sat_pure.mpr ⟨Nat.le_refl _, confined, ?_⟩))
          cases found : (engine.document.node node).attribute? argument.name with
          | none => exact Value.targets_of_eq_nil rfl
          | some value => exact confined.document.attribute? found
      | tokens => exact .plain rfl
      | untilBrace => exact .plain rfl
      | address => exact .plain rfl
      | list =>
          apply Confining.bind (Confining.mapM mono fun item _ size large =>
            ih (Nat.lt_of_lt_of_le inside large) _ item)
          intro values size _ areLocal
          apply Confining.yields
          intro later larger
          exact Value.targets_list fun value member => (areLocal value member).mono larger
      | dictionary =>
          have entries : ∀ (entry : String × Value) (size later : Nat),
              Local old entry.2 size → size ≤ later → Local old entry.2 later :=
            fun entry size later => mono entry.2 size later
          apply Confining.bind (Confining.mapM entries ?_)
          · intro values size _ areLocal
            apply Confining.yields
            intro later larger
            exact Value.targets_dictionary fun value member => (areLocal value member).mono larger
          · intro item _ size large
            split
            · exact .yields fun _ _ => Value.targets_of_eq_nil rfl
            · exact .yields fun _ _ => Value.targets_of_eq_nil rfl
            · apply Confining.bind (ih (Nat.lt_of_lt_of_le inside large) _ _)
              intro value size _ isLocal
              exact .yields fun _ larger => isLocal.mono larger
      | dimensionGroup =>
          exact confining_readingTokens tokens (fun _ => retains_readDimensionIn (calm _) false)
            fun _ => rfl
      | dimension =>
          exact confining_readingTokens tokens (fun _ => retains_readDimensionIn (calm _) false)
            fun _ => rfl
      | mathDimension =>
          exact confining_readingTokens tokens (fun _ => retains_readDimensionIn (calm _) true)
            fun _ => rfl
      | glue =>
          exact confining_readingTokens tokens (fun _ => retains_readGlue (calm _) false)
            fun _ => rfl
      | mathGlue =>
          exact confining_readingTokens tokens (fun _ => retains_readGlue (calm _) true)
            fun _ => rfl
      | integerGroup =>
          exact confining_readingTokens tokens (fun _ => retains_readInteger (calm _)) fun _ => rfl
      | number =>
          exact confining_readingTokens tokens (fun _ => retains_readInteger (calm _)) fun _ => rfl
      | floatGroup =>
          exact confining_readingTokens tokens (fun _ => retains_readFloat (calm _)) fun _ => rfl
      | token =>
          dsimp only
          split
          · exact .plain rfl
          · exact .plain rfl
      | expandedToken =>
          apply Confining.next (.quiet fun _ => retains_readingTokens tokens
            (retains_unexpandable (calm _)))
          intro found _ _
          split
          · exact .plain rfl
          · exact .plain rfl
      | word => exact (keeping_toText confines tokens).next fun _ _ _ => .plain rfl

/-- A value that is read directly refers to nothing. -/
theorem confining_readDirect (calm : interpreter.Calm) (type : ArgumentType) :
    Confining old bound (Local old) (readDirect interpreter type) := by
  unfold readDirect
  split
  · exact Confining.next (.quiet fun _ => retains_readDimensionIn (calm _) false)
      fun _ _ _ => .plain rfl
  · exact Confining.next (.quiet fun _ => retains_readDimensionIn (calm _) true)
      fun _ _ _ => .plain rfl
  · exact Confining.next (.quiet fun _ => retains_readGlue (calm _) false) fun _ _ _ => .plain rfl
  · exact Confining.next (.quiet fun _ => retains_readGlue (calm _) true) fun _ _ _ => .plain rfl
  · exact Confining.next (.quiet fun _ => retains_readInteger (calm _)) fun _ _ _ => .plain rfl
  · apply Confining.next (.quiet fun _ => retains_nextRaw)
    intro found _ _
    split
    · exact .plain rfl
    · exact .fail _
  · apply Confining.next (.quiet fun _ => retains_unexpandable (calm _))
    intro found _ _
    split
    · exact .plain rfl
    · exact .fail _
  · exact Confining.next (.quiet fun _ => retains_reading _) fun _ _ _ => .plain rfl
  · apply Confining.next (.quiet fun _ => retains_skipSpacesExpanded (calm _))
    intro _ _ _
    exact Confining.next (.quiet fun _ => retains_readWordWithin (calm _) _ _)
      fun _ _ _ => .plain rfl
  · exact .plain rfl

/-! ## Arguments -/

section Arguments

variable {node : NodeId}

/-- A value whose references belong to the document becomes an attribute. -/
theorem keeping_recordAttribute {value : Value} (isLocal : Local old value bound) (name : String)
    (result : String × Bool) :
    Keeping old bound (do setAttribute node name value; return result) :=
  (Confining.setAttribute node name isLocal).next fun _ _ _ => .done _

theorem keeping_recordPlain {value : Value} (isPlain : value.targets = []) (name : String)
    (result : String × Bool) :
    Keeping old bound (do setAttribute node name value; return result) :=
  keeping_recordAttribute (Value.targets_of_eq_nil isPlain) name result

theorem keeping_recordConverted (confines : interpreter.Confines old) (inside : node < bound)
    (argument : Argument) (tokens : List Token) (result : String × Bool) :
    Keeping old bound (do
      let value ← convert interpreter node argument tokens
      setAttribute node argument.name value
      return result) := by
  apply Confining.bind (confining_convertWithin confines inside argument _ _ tokens)
  intro value _ _ isLocal
  exact keeping_recordAttribute isLocal argument.name result

theorem keeping_recordRequired (confines : interpreter.Confines old) (inside : node < bound)
    (element : Element) (argument : Argument) (found : Option (List Token × Bool)) :
    Keeping old bound (recordRequired interpreter element node argument found) := by
  unfold recordRequired
  split
  · exact .fail _
  · exact keeping_recordConverted confines inside argument _ _

/-- An argument becomes an attribute, or the content of the node. -/
theorem keeping_readElementArgument (confines : interpreter.Confines old)
    (inside : node < bound) (element : Element) (isFirst : Bool) (argument : Argument) :
    Keeping old bound (readElementArgument interpreter element node isFirst argument) := by
  have calm := confines.calm
  unfold readElementArgument
  cases argument.kind with
  | modifier characters =>
      apply Confining.next (.quiet fun _ => retains_readIf _)
      intro found _ large
      split
      · exact keeping_recordPlain rfl _ _
      · dsimp only
        split
        · apply (keeping_number (Nat.lt_of_lt_of_le inside large) _).next
          intro _ _ _
          exact keeping_recordPlain rfl _ _
        · exact keeping_recordPlain rfl _ _
  | equals =>
      apply Confining.next (.quiet fun _ => retains_readIf _)
      intro found _ _
      split
      · exact keeping_recordPlain rfl _ _
      · exact keeping_recordPlain rfl _ _
  | bracketed opening closing =>
      apply Confining.next (.quiet fun _ => retains_readBracketed opening closing)
      intro found _ large
      split
      · exact keeping_recordPlain rfl _ _
      · exact keeping_recordConverted confines (Nat.lt_of_lt_of_le inside large) argument _ _
  | required =>
      have finishes : ∀ found size, bound ≤ size →
          Keeping old size (recordRequired interpreter element node argument found) := by
        intro found size large
        exact keeping_recordRequired confines (Nat.lt_of_lt_of_le inside large) element argument
          found
      dsimp only
      split
      · apply (confining_readDirect calm argument.type).bind
        intro value _ _ isLocal
        apply Confining.get.next
        intro engine _ larger
        exact keeping_recordAttribute (isLocal.mono larger) _ _
      · split
        · exact Confining.next (.quiet fun _ => retains_readAddress) finishes
        · exact Confining.next (.quiet fun _ => retains_readArgument) finishes
  | content =>
      apply Confining.next (.quiet fun _ => retains_readArgument)
      intro found _ _
      split
      · exact .fail _
      · next tokens _ =>
          apply (keeping_toFragment confines tokens).next
          intro fragment _ _
          apply (Confining.appendNode node fragment).next
          intro _ _ _
          exact .modifying node (fun _ _ => .done _) fun _ => rfl

theorem keeping_readElementArgumentsFrom (confines : interpreter.Confines old)
    (inside : node < bound) (element : Element) (isFirst : Bool) (arguments : List Argument) :
    Keeping old bound (readElementArgumentsFrom interpreter element node isFirst arguments) := by
  induction arguments generalizing isFirst bound with
  | nil => exact .done _
  | cons argument rest ih =>
      unfold readElementArgumentsFrom
      apply (keeping_readElementArgument confines inside element isFirst argument).next
      rintro ⟨source, numbered⟩ _ large
      apply (ih (Nat.lt_of_lt_of_le inside large) false).next
      rintro ⟨sources, numberedLater⟩ _ _
      exact .done _

theorem keeping_readElementArguments (confines : interpreter.Confines old)
    (inside : node < bound) (element : Element) :
    Keeping old bound (readElementArguments interpreter element node) := by
  have reads : ∀ {size : Nat}, bound ≤ size → Keeping old size
      (readElementArgumentsFrom interpreter element node true element.arguments) := fun large =>
    keeping_readElementArgumentsFrom confines (Nat.lt_of_lt_of_le inside large) element true _
  have records : ∀ {size : Nat} (source : String), Keeping old size
      (modifyNode node fun inner => { inner with argumentSource := source }) := fun source =>
    .modifyNode node fun _ => rfl
  unfold readElementArguments
  dsimp only
  generalize (if startsWithModifier element.arguments then none else element.counter) = counter
  split
  case' h_1 name =>
    apply (keeping_number inside name).next
    intro _ _ large
    apply (reads large).next
  case' h_2 => apply (reads (Nat.le_refl _)).next
  all_goals
    rintro ⟨source, numbered⟩ _ _
    split
    · split
      · next name _ =>
          apply Confining.next (.quiet fun _ => retains_printCounter name)
          intro text _ _
          exact .modifying node (fun _ _ => records source) fun _ => rfl
      · exact records source
    · exact records source

end Arguments

end TexTree.Engine
