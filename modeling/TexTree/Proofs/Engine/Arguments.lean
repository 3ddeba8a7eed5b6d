import TexTree.Proofs.Engine.Fragments

/-!
# Reading the arguments of elements

While the arguments of an element are read, its node is under construction.  Most
arguments become attributes, which concern neither the tree nor the source.  Only
the content is a part of the tree; it is interpreted on its own, so that nothing
in it closes anything.
-/

namespace TexTree.Engine

variable {interpreter : Interpreter}

theorem growing_toFragment (builds : interpreter.Builds) (tokens : List Token) :
    Growing (toFragment interpreter tokens) := by
  intro engine steady
  refine (sat_toFragment builds steady tokens).mono ?_
  intro fragment after result
  exact result.1

theorem growing_toText (builds : interpreter.Builds) (tokens : List Token) :
    Growing (toText interpreter tokens) :=
  fun _ steady => sat_toText builds steady tokens

/-- A new fragment is dissolved in a node that admits any content. -/
theorem shaping_toFragment (builds : interpreter.Builds) {node : NodeId} {digest : Digest}
    {level : Level}
    (admits : level ≠ Level.environment ∧ (digest = .nothing ∨ digest = .environment))
    (tokens : List Token) :
    Shaping node digest level (do appendNode node (← toFragment interpreter tokens)) := by
  intro start engine making
  refine (sat_toFragment builds making.steady tokens).bind ?_
  intro fragment after result
  have later := making.grow result.1
  refine sat_modify.mpr (later.appendFragment ?_ ?_)
  · have made := result.2
    exact ⟨Nat.le_trans making.grown.ext.size_le made.new, made.inside, made.free, made.fragment⟩
  · intro next
    unfold Node.Admits
    rw [later.hasDigest, later.hasLevel]
    rcases admits with ⟨other, rfl | rfl⟩
    · trivial
    · exact fun same => absurd same other

/-! ## Labels and numbers -/

theorem growing_number (node : NodeId) (counter : String) : Growing (number node counter) := by
  unfold number
  apply Growing.bind
  · apply Growing.quiet
    intro before
    exact retains_modify fun _ quiet => quiet.createCounter counter none 0
  intro _
  apply Growing.bind
  · exact Growing.quiet fun _ => quiet_changeCounters _
  intro _
  exact Growing.modify (fun _ => rfl) (fun _ regular => regular) (fun _ => rfl) fun _ => rfl

/-- Completing references changes attributes only. -/
theorem Steady.complete {engine : Engine} (steady : engine.Steady) (label : String)
    (target : NodeId) (waiting : List (NodeId × String)) :
    engine.Grown
      { engine with document := References.complete engine.document label target waiting } := by
  induction waiting generalizing engine with
  | nil => exact steady.refl
  | cons entry rest ih =>
      have grown : engine.Grown { engine with
          document := engine.document.setAttribute entry.1 entry.2
            (.reference label (some target)) } :=
        steady.modify entry.1 (fun _ => rfl) (fun _ => rfl) fun _ => rfl
      exact grown.trans steady (ih grown.steady)

/-- Attaching a label changes labels and attributes only. -/
theorem growing_attachLabel (label : String) : Growing (attachLabel label) := by
  unfold attachLabel
  apply Growing.bind
  · intro engine steady
    refine sat_modifyGet.mpr ?_
    unfold References.attach
    dsimp only
    split
    · exact steady.refl
    · split
      · exact steady.refl
      · next target _ =>
          have labeled : engine.Grown { engine with
              document := engine.document.modify target fun inner =>
                { inner with label := some (Text.trim label) } } :=
            steady.modify target (fun _ => rfl) (fun _ => rfl) fun _ => rfl
          have completed := labeled.trans steady
            (labeled.steady.complete (Text.trim label) target
              ((engine.references.pending.get? (Text.trim label)).getD []))
          exact completed.trans steady
            (completed.steady.same rfl (fun regular => regular) rfl rfl)
  · intro reports
    exact Growing.quiet fun _ => retains_reportAll reports

theorem growing_referTo (node : NodeId) (name label : String) :
    Growing (referTo node name label) := by
  intro engine steady
  unfold referTo
  refine sat_modify.mpr ?_
  unfold References.refer
  dsimp only
  split
  · exact steady.refl
  · have grown : engine.Grown { engine with
        document := engine.document.setAttribute node name
          (.reference (Text.trim label) (engine.references.labels.get? (Text.trim label))) } :=
      steady.modify node (fun _ => rfl) (fun _ => rfl) fun _ => rfl
    exact grown.trans steady (grown.steady.same rfl (fun regular => regular) rfl rfl)

/-! ## Values -/

theorem growing_readingTokens {α : Type} (tokens : List Token) {computation : TexM α}
    (quiet : ∀ before : Engine, Retains before.Quiet computation) :
    Growing (readingTokens tokens computation) :=
  Growing.quiet fun _ => retains_readingTokens tokens (quiet _)

theorem growing_valueOf {α β : Type} (tokens : List Token) {computation : TexM α}
    (quiet : ∀ before : Engine, Retains before.Quiet computation) (value : α → β) :
    Growing (do return value (← readingTokens tokens computation)) :=
  (growing_readingTokens tokens quiet).bind fun _ => .pure _

theorem growing_convertWithin (builds : interpreter.Builds) (node : NodeId)
    (argument : Argument) (steps : Nat) (type : ArgumentType) (tokens : List Token) :
    Growing (convertWithin interpreter node argument steps type tokens) := by
  induction steps generalizing type tokens with
  | zero => exact Growing.fail _
  | succ steps ih =>
      have calm := builds.calm
      unfold convertWithin
      dsimp only
      cases type with
      | fragment => exact (growing_toFragment builds tokens).bind fun _ => .pure _
      | text => exact (growing_toText builds tokens).bind fun _ => .pure _
      | control =>
          dsimp only
          split
          · exact .pure _
          · exact .pure _
      | label =>
          apply (growing_toText builds tokens).bind
          intro label
          exact (growing_attachLabel label).bind fun _ => .pure _
      | reference =>
          apply (growing_toText builds tokens).bind
          intro label
          apply (growing_referTo node argument.name label).bind
          intro _
          exact (Growing.nodeOf node).bind fun _ => .pure _
      | tokens => exact .pure _
      | untilBrace => exact .pure _
      | address => exact .pure _
      | list =>
          refine Growing.bind (Growing.mapM ?_) fun _ => .pure _
          intro item _
          exact ih _ item
      | dictionary =>
          refine Growing.bind (Growing.mapM ?_) fun _ => .pure _
          intro item _
          split
          · exact .pure _
          · exact .pure _
          · exact (ih _ _).bind fun _ => .pure _
      | dimensionGroup | dimension =>
          exact growing_valueOf tokens (fun _ => retains_readDimensionIn (calm _) false) _
      | mathDimension =>
          exact growing_valueOf tokens (fun _ => retains_readDimensionIn (calm _) true) _
      | glue => exact growing_valueOf tokens (fun _ => retains_readGlue (calm _) false) _
      | mathGlue => exact growing_valueOf tokens (fun _ => retains_readGlue (calm _) true) _
      | integerGroup => exact growing_valueOf tokens (fun _ => retains_readInteger (calm _)) _
      | number => exact growing_valueOf tokens (fun _ => retains_readInteger (calm _)) _
      | floatGroup => exact growing_valueOf tokens (fun _ => retains_readFloat (calm _)) _
      | token =>
          dsimp only
          split
          · exact .pure _
          · exact .pure _
      | expandedToken =>
          apply (growing_readingTokens tokens fun _ => retains_unexpandable (calm _)).bind
          intro found
          split
          · exact .pure _
          · exact .pure _
      | word => exact (growing_toText builds tokens).bind fun _ => .pure _

/-! ## Arguments -/

section Arguments

variable {node : NodeId} {digest : Digest} {level : Level}

/-- How `readElementArgument` goes on behind a required argument that has been read. -/
def recordRequired (interpreter : Interpreter) (element : Element) (node : NodeId)
    (argument : Argument) (found : Option (List Token × Bool)) : TexM (String × Bool) :=
  match found with
  | none => fail (.missingArgument argument.name element.name)
  | some (tokens, isBraced) => do
      let value ← convert interpreter node argument tokens
      setAttribute node argument.name value
      return (argumentSource tokens isBraced, false)

/-- An argument that has been read becomes an attribute. -/
theorem growing_recordAttribute (name : String) (value : Value) (result : String × Bool) :
    Growing (do setAttribute node name value; return result) :=
  (Growing.setAttribute node name value).bind fun _ => .pure result

theorem growing_recordConverted (builds : interpreter.Builds) (argument : Argument)
    (tokens : List Token) (result : String × Bool) :
    Growing (do
      let value ← convert interpreter node argument tokens
      setAttribute node argument.name value
      return result) :=
  Growing.bind (growing_convertWithin builds node argument _ _ tokens) fun value =>
    growing_recordAttribute argument.name value result

theorem growing_recordRequired (builds : interpreter.Builds) (element : Element)
    (argument : Argument) (found : Option (List Token × Bool)) :
    Growing (recordRequired interpreter element node argument found) := by
  unfold recordRequired
  split
  · exact .fail _
  · exact growing_recordConverted builds argument _ _

/-- Reading an argument works on the node of the element only if the argument is its
content. -/
theorem shaping_readElementArgument (builds : interpreter.Builds) (element : Element)
    (isFirst : Bool) (argument : Argument)
    (content : argument.kind = .content →
      level ≠ Level.environment ∧ (digest = .nothing ∨ digest = .environment)) :
    Shaping node digest level
      (readElementArgument interpreter element node isFirst argument) := by
  unfold readElementArgument
  cases kind : argument.kind with
  | modifier characters =>
      apply Growing.shaping
      apply Growing.bind (.quiet fun _ => retains_readIf _)
      intro found
      split
      · exact growing_recordAttribute _ _ _
      · dsimp only
        split
        · exact (growing_number node _).bind fun _ => growing_recordAttribute _ _ _
        · exact growing_recordAttribute _ _ _
  | equals =>
      apply Growing.shaping
      apply Growing.bind (.quiet fun _ => retains_readIf _)
      intro found
      split
      · exact growing_recordAttribute _ _ _
      · exact growing_recordAttribute _ _ _
  | bracketed opening closing =>
      apply Growing.shaping
      apply Growing.bind (.quiet fun _ => retains_readBracketed opening closing)
      intro found
      split
      · exact growing_recordAttribute _ _ _
      · exact growing_recordConverted builds argument _ _
  | required =>
      have finishes : ∀ found, Growing (recordRequired interpreter element node argument found) :=
        growing_recordRequired builds element argument
      apply Growing.shaping
      dsimp only
      split
      · apply Growing.bind (.quiet fun _ => retains_readDirect (builds.calm _) argument.type)
        intro value
        exact Growing.get.bind fun engine => growing_recordAttribute _ _ _
      · split
        · exact Growing.bind (.quiet fun _ => retains_readAddress) finishes
        · exact Growing.bind (.quiet fun _ => retains_readArgument) finishes
  | content =>
      apply Shaping.bind (Growing.quiet fun _ => retains_readArgument).shaping
      intro found
      split
      · exact (Growing.fail _).shaping
      · next tokens _ =>
          rw [← bind_assoc]
          apply (shaping_toFragment builds (content kind) tokens).bind
          intro _
          apply Shaping.bind
          · exact .modifyNode (fun _ => rfl) (fun _ => rfl) (fun _ => rfl) (fun _ => rfl)
              fun _ => rfl
          · intro _
            exact (Growing.pure _).shaping

theorem shaping_readElementArgumentsFrom (builds : interpreter.Builds) (element : Element)
    (isFirst : Bool) (arguments : List Argument)
    (content : ∀ argument ∈ arguments, argument.kind = .content →
      level ≠ Level.environment ∧ (digest = .nothing ∨ digest = .environment)) :
    Shaping node digest level
      (readElementArgumentsFrom interpreter element node isFirst arguments) := by
  induction arguments generalizing isFirst with
  | nil => exact (Growing.pure _).shaping
  | cons argument rest ih =>
      unfold readElementArgumentsFrom
      apply (shaping_readElementArgument builds element isFirst argument
        (content argument List.mem_cons_self)).bind
      rintro ⟨source, numbered⟩
      apply (ih false fun other member => content other (List.mem_cons_of_mem argument member)).bind
      rintro ⟨sources, numberedLater⟩
      exact (Growing.pure _).shaping

/-- Reading all arguments leaves the level and the rule of digestion alone. -/
theorem shaping_readElementArguments (builds : interpreter.Builds) (element : Element)
    (content : ∀ argument ∈ element.arguments, argument.kind = .content →
      level ≠ Level.environment ∧ (digest = .nothing ∨ digest = .environment)) :
    Shaping node digest level (readElementArguments interpreter element node) := by
  have reads : Shaping node digest level
      (readElementArgumentsFrom interpreter element node true element.arguments) :=
    shaping_readElementArgumentsFrom builds element true element.arguments content
  have records : ∀ source, Shaping node digest level
      (modifyNode node fun inner => { inner with argumentSource := source }) := fun source =>
    .modifyNode (fun _ => rfl) (fun _ => rfl) (fun _ => rfl) (fun _ => rfl) fun _ => rfl
  unfold readElementArguments
  dsimp only
  generalize (if startsWithModifier element.arguments then none else element.counter) = counter
  split
  case' h_1 name =>
    apply (growing_number node name).shaping.bind
    intro _
  all_goals
    apply reads.bind
    rintro ⟨source, numbered⟩
    split
    · split
      · next name _ =>
          apply Shaping.bind (Growing.quiet fun _ => retains_printCounter name).shaping
          intro text
          apply Shaping.bind
          · exact .modifyNode (fun _ => rfl) (fun _ => rfl) (fun _ => rfl) (fun _ => rfl)
              fun _ => rfl
          · intro _
            exact records source
      · exact records source
    · exact records source

end Arguments

end TexTree.Engine
