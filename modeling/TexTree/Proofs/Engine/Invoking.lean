import TexTree.Proofs.Engine.Drafting

/-!
# Drafting elements with arguments

The arguments of an element of a plain document are a star or an option that is left out, a
title, or its content.  What is read is recorded in the node, and the content is
interpreted as a fragment; behind the arguments the scope of the element is closed again.
-/

namespace TexTree.Engine

variable {β : Type} {gauge : Gauge β} {start engine after : Engine} {id : NodeId} {data : Node}
  {content : List β} {frames frames' : List Frame} {tokens tokens' : List Token}

/-! ## Arguments -/

theorem Drafting.runs_setAttribute
    (drafting : Drafting gauge start id data content frames tokens engine) (name : String)
    (value : Value) :
    Runs (setAttribute id name value) engine fun _ after =>
      Drafting gauge start id data content frames tokens after := by
  have changed := drafting.modify (fun node =>
    { node with attributes := Node.insertAttribute name value node.attributes })
    (fun _ => rfl) (fun _ => rfl) (fun _ => rfl) (fun _ => rfl) (fun _ => rfl) fun _ => rfl
  exact runs_modify (changed.of_essence rfl)

/-- Stepping the counter of the element. -/
theorem Drafting.runs_number
    (drafting : Drafting gauge start id data content frames tokens engine) (counter : String) :
    Runs (number id counter) engine fun _ after =>
      Drafting gauge start id data content frames tokens after := by
  have numbers : Runs (number id counter) engine fun _ after =>
      Moved engine frames tokens after := by
    have moved := drafting.reading.createCounter counter none 0
    have steps : Runs (changeCounters (·.step? counter)) (engine.createCounter counter none 0)
        fun _ after => Moved (engine.createCounter counter none 0) frames tokens after := by
      refine runs_modifyGet ?_
      split
      · exact moved.reading.same rfl rfl rfl rfl rfl
      · exact moved.reading.moved
    unfold number
    apply runs_modify_bind
    refine steps.bind ?_
    intro _ stepped moved'
    refine runs_modify ((moved.trans moved').trans ?_)
    exact moved'.reading.same rfl rfl rfl rfl rfl
  refine (numbers.sat (growing_number id counter engine drafting.steady)).mono ?_
  rintro _ after ⟨moved, grown⟩
  exact drafting.move grown moved

/-- The printed form of the counter is what references to the node show. -/
theorem Drafting.runs_recordNumber
    (drafting : Drafting gauge start id data content frames tokens engine) (counter : String) :
    Runs (do
      let text ← printCounter counter
      modifyNode id fun inner => { inner with number := text }) engine fun _ after =>
      Drafting gauge start id data content frames tokens after := by
  have prints : Runs (printCounter counter) engine fun _ after =>
      Moved engine frames tokens after := by
    unfold printCounter
    apply runs_get
    cases engine.printed? counter with
    | none => exact runs_pure drafting.reading.moved
    | some form =>
        exact runs_modify_bind (runs_pure (drafting.reading.same rfl rfl rfl rfl rfl))
  have growing : Growing (printCounter counter) := .quiet fun _ => retains_printCounter counter
  refine (prints.sat (growing engine drafting.steady)).bind ?_
  rintro text between ⟨moved, grown⟩
  have changed := (drafting.move grown moved).modify (fun node => { node with number := text })
    (fun _ => rfl) (fun _ => rfl) (fun _ => rfl) (fun _ => rfl) (fun _ => rfl) fun _ => rfl
  exact runs_modify (changed.of_essence rfl)

/-- The source of an argument does not depend on where its tokens stand. -/
theorem argumentSource_bare (tokens : List Token) (isBraced : Bool) :
    argumentSource (tokens.map Token.bare) isBraced = argumentSource tokens isBraced := by
  have same : ∀ tokens : List Token,
      Token.sourceList (tokens.map Token.bare) = Token.sourceList tokens := by
    intro tokens
    induction tokens with
    | nil => rfl
    | cons token rest ih =>
        rw [List.map_cons, Token.sourceList.eq_def, Token.sourceList.eq_def (token :: rest)]
        dsimp only
        rw [ih]
        cases rest <;> rfl
  rw [argumentSource, argumentSource, same]

section Argument

variable {interpreter : Interpreter} {element : Element} {argument : Argument} {isFirst : Bool}
  {inside behind : List Token} {opening closing first : Token}

/-- An optional argument that is left out. -/
theorem Drafting.runs_withoutOption
    (drafting : Drafting gauge start id data content frames tokens engine) {left right : Char}
    (kind : argument.kind = .bracketed left right)
    (follows : tokens.dropWhile Input.isSpace = first :: behind)
    (absent : first.isChar left = false) :
    Runs (readElementArgument interpreter element id isFirst argument) engine
      fun result after => result = ("", false) ∧
        Drafting gauge start id data content frames (first :: behind) after := by
  have growing : Growing (readBracketed left right) :=
    .quiet fun _ => retains_readBracketed left right
  unfold readElementArgument
  rw [kind]
  refine ((drafting.reading.runs_readBracketed follows absent).sat
    (growing engine drafting.steady)).bind ?_
  rintro _ between ⟨⟨rfl, moved⟩, grown⟩
  refine ((drafting.move grown moved).runs_setAttribute _ _).bind ?_
  intro _ after done
  exact runs_pure ⟨rfl, done⟩

/-- A modifier that is left out.  The element may be numbered behind it. -/
theorem Drafting.runs_withoutModifier
    (drafting : Drafting gauge start id data content frames tokens engine) {characters : String}
    (kind : argument.kind = .modifier characters)
    (follows : tokens.dropWhile Input.isSpace = first :: behind)
    (absent : ∀ token, token.bare = first → isModifier characters token = false) :
    Runs (readElementArgument interpreter element id isFirst argument) engine
      fun result after => result.1 = "" ∧
        Drafting gauge start id data content frames (first :: behind) after := by
  have growing : Growing (readIf (isModifier characters)) := .quiet fun _ => retains_readIf _
  unfold readElementArgument
  rw [kind]
  refine ((drafting.reading.runs_readIf follows absent).sat
    (growing engine drafting.steady)).bind ?_
  rintro _ between ⟨⟨rfl, moved⟩, grown⟩
  replace drafting := drafting.move grown moved
  dsimp only
  split
  · next counter _ =>
      refine (drafting.runs_number counter).bind ?_
      intro _ numbered drafting
      refine (drafting.runs_setAttribute _ _).bind ?_
      intro _ after done
      exact runs_pure ⟨rfl, done⟩
  · refine (drafting.runs_setAttribute _ _).bind ?_
    intro _ after done
    exact runs_pure ⟨rfl, done⟩

/-- Token lists that are interpreted on their own become fragments that contribute the
given list. -/
def Interprets (gauge : Gauge β) (interpreter : Interpreter) (frames : List Frame)
    (formulas : List String) (inside behind : List Token) (content : List β)
    (leaves : List Token → Prop) : Prop :=
  ∀ (tokens : List Token) (engine : Engine), tokens.map Token.bare = inside → engine.Steady →
    Reading frames behind engine → engine.mathStack = formulas →
    Runs (toFragment interpreter tokens) engine fun fragment after =>
      after.document.within gauge fragment = content ∧ after.mathStack = formulas ∧
        ∃ tokens', leaves tokens' ∧ Reading frames tokens' after

/-- An argument that becomes a part of the document apart from the node. -/
theorem Drafting.runs_required (builds : interpreter.Builds)
    (drafting : Drafting gauge start id data content frames
      (opening :: (inside ++ closing :: behind)) engine)
    (kind : argument.kind = .required) (type : argument.type = .fragment)
    (opens : opening.category = .beginGroup) (closes : closing.category = .endGroup)
    (balanced : Input.braces 0 inside = some 0) (enough : 0 < interpreter.limit)
    {apart : List β} {leaves : List Token → Prop}
    (interprets : Interprets gauge interpreter frames start.mathStack inside behind apart leaves) :
    Runs (readElementArgument interpreter element id isFirst argument) engine
      fun result after => result.1 = argumentSource inside true ∧ ∃ tokens', leaves tokens' ∧
        Drafting gauge start id data content frames tokens' after := by
  have growing : Growing readArgument := .quiet fun _ => retains_readArgument
  unfold readElementArgument
  rw [kind]
  simp only [type, ArgumentType.isDirect, Bool.false_eq_true, if_false, reduceCtorEq]
  refine ((drafting.reading.runs_readArgument opens closes balanced).sat
    (growing engine drafting.steady)).bind ?_
  rintro _ between ⟨⟨⟨found, rfl, same⟩, moved⟩, grown⟩
  replace drafting := drafting.move grown moved
  have converts : convert interpreter id argument found =
      Value.fragment <$> toFragment interpreter found := by
    obtain ⟨steps, limit⟩ := Nat.exists_eq_add_one.mpr enough
    rw [convert, limit, type, convertWithin, map_eq_pure_bind]
  have runs : Runs (convert interpreter id argument found) between fun _ after =>
      ∃ tokens', leaves tokens' ∧ Drafting gauge start id data content frames tokens' after := by
    rw [converts]
    apply Runs.map
    refine ((interprets found between same drafting.steady moved.reading drafting.formulas).sat
      (sat_toFragment builds drafting.steady found)).mono ?_
    rintro fragment filled ⟨⟨_, formulas, tokens', isLeft, reading⟩, grown, _⟩
    exact ⟨tokens', isLeft, drafting.grow grown reading (formulas.trans drafting.formulas.symm)⟩
  refine runs.bind ?_
  rintro value filled ⟨tokens', isLeft, drafting⟩
  refine (drafting.runs_setAttribute _ value).bind ?_
  intro _ after done
  refine runs_pure ⟨?_, tokens', isLeft, done⟩
  rw [← same, argumentSource_bare]

/-- The argument that becomes the content of the node. -/
theorem Drafting.runs_content (builds : interpreter.Builds)
    (drafting : Drafting gauge start id data [] frames
      (opening :: (inside ++ closing :: behind)) engine)
    (kind : argument.kind = .content) (admits : data.digest = .nothing)
    (opens : opening.category = .beginGroup) (closes : closing.category = .endGroup)
    (balanced : Input.braces 0 inside = some 0) {leaves : List Token → Prop}
    (interprets : Interprets gauge interpreter frames start.mathStack inside behind content
      leaves) :
    Runs (readElementArgument interpreter element id isFirst argument) engine
      fun result after => result.1 = "" ∧ ∃ tokens', leaves tokens' ∧
        Drafting gauge start id { data with contentForm := .braced } content frames tokens'
          after := by
  have growing : Growing readArgument := .quiet fun _ => retains_readArgument
  unfold readElementArgument
  rw [kind]
  refine ((drafting.reading.runs_readArgument opens closes balanced).sat
    (growing engine drafting.steady)).bind ?_
  rintro _ between ⟨⟨⟨found, rfl, same⟩, moved⟩, grown⟩
  replace drafting := drafting.move grown moved
  refine ((interprets found between same drafting.steady moved.reading drafting.formulas).sat
    (sat_toFragment builds drafting.steady found)).bind ?_
  rintro fragment filled ⟨⟨isContent, formulas, tokens', isLeft, reading⟩, grown, made⟩
  have new := Nat.le_trans drafting.making.grown.ext.size_le made.new
  replace drafting := drafting.grow grown reading (formulas.trans drafting.formulas.symm)
  have admitted : ∀ next, (filled.document.node id).Admits next := by
    intro next
    rw [Node.Admits, drafting.making.hasDigest, admits]
    trivial
  have appended := drafting.appendFragment
    ⟨new, made.inside, made.free, made.fragment⟩ admitted
  rw [isContent, List.nil_append] at appended
  have braced := appended.modify (fun inner => { inner with contentForm := .braced })
    (fun _ => rfl) (fun _ => rfl) (fun _ => rfl) (fun _ => rfl) (fun _ => rfl) fun _ => rfl
  exact runs_modify_bind (runs_modify_bind (runs_pure ⟨rfl, tokens', isLeft, braced⟩))

end Argument

/-- How `readElementArguments` goes on once a counter has been stepped, or none. -/
def recordArguments (interpreter : Interpreter) (element : Element) (id : NodeId)
    (counter : Option String) : TexM Unit := do
  let (source, numbered) ← readElementArgumentsFrom interpreter element id true element.arguments
  if counter.isSome || numbered then
    if let some name := element.counter then
      let text ← printCounter name
      modifyNode id fun inner => { inner with number := text }
  modifyNode id fun inner => { inner with argumentSource := source }

/-- Reading all arguments of an element, numbered or not. -/
theorem Drafting.runs_readElementArguments {interpreter : Interpreter} {element : Element}
    (drafting : Drafting gauge start id data content frames tokens engine)
    {data' : Node} {content' : List β} {source : String} {leaves : List Token → Prop}
    (reads : ∀ between, Drafting gauge start id data content frames tokens between →
      Runs (readElementArgumentsFrom interpreter element id true element.arguments) between
        fun result after => result.1 = source ∧ ∃ tokens', leaves tokens' ∧
          Drafting gauge start id data' content' frames tokens' after) :
    Runs (readElementArguments interpreter element id) engine fun _ after =>
      ∃ tokens', leaves tokens' ∧
        Drafting gauge start id { data' with argumentSource := source } content' frames tokens'
          after := by
  unfold readElementArguments
  dsimp only
  generalize (if startsWithModifier element.arguments then none else element.counter) = counter
  -- The source of the arguments is recorded at the end.
  have records : ∀ last, (∃ tokens', leaves tokens' ∧
      Drafting gauge start id data' content' frames tokens' last) →
      Runs (modifyNode id fun inner => { inner with argumentSource := source }) last
        fun _ after => ∃ tokens', leaves tokens' ∧
          Drafting gauge start id { data' with argumentSource := source } content' frames tokens'
            after := by
    rintro last ⟨tokens', isLeft, drafting⟩
    refine runs_modify ⟨tokens', isLeft, ?_⟩
    exact drafting.modify (fun node => { node with argumentSource := source }) (fun _ => rfl)
      (fun _ => rfl) (fun _ => rfl) (fun _ => rfl) (fun _ => rfl) fun _ => rfl
  have goesOn : ∀ between, Drafting gauge start id data content frames tokens between →
      Runs (recordArguments interpreter element id counter) between fun _ after =>
        ∃ tokens', leaves tokens' ∧
          Drafting gauge start id { data' with argumentSource := source } content' frames tokens'
            after := by
    intro between drafting
    unfold recordArguments
    refine (reads between drafting).bind ?_
    rintro ⟨source, numbered⟩ last ⟨rfl, tokens', isLeft, drafting⟩
    dsimp only
    split
    · split
      · next name _ =>
          rw [← bind_assoc]
          refine (drafting.runs_recordNumber name).bind ?_
          intro _ numbered drafting
          exact records numbered ⟨tokens', isLeft, drafting⟩
      · exact records last ⟨tokens', isLeft, drafting⟩
    · exact records last ⟨tokens', isLeft, drafting⟩
  split
  · next name =>
      exact (drafting.runs_number name).bind fun _ between drafting => goesOn between drafting
  · exact goesOn engine drafting

/-- Reading an argument before others. -/
theorem runs_readElementArgumentsFrom {interpreter : Interpreter} {element : Element}
    {argument : Argument} {rest : List Argument} {isFirst : Bool}
    {source total : String} (sources : String) {middle post : Engine → Prop}
    (first : Runs (readElementArgument interpreter element id isFirst argument) engine
      fun result after => result.1 = source ∧ middle after)
    (others : ∀ between, middle between →
      Runs (readElementArgumentsFrom interpreter element id false rest) between
        fun result after => result.1 = sources ∧ post after)
    (joined : source ++ sources = total) :
    Runs (readElementArgumentsFrom interpreter element id isFirst (argument :: rest)) engine
      fun result after => result.1 = total ∧ post after := by
  unfold readElementArgumentsFrom
  refine first.bind ?_
  rintro ⟨source, numbered⟩ between ⟨rfl, isMiddle⟩
  refine (others between isMiddle).bind ?_
  rintro ⟨sources, numberedLater⟩ after ⟨rfl, holds⟩
  exact runs_pure ⟨joined, holds⟩

section Invocation

variable {interpreter : Interpreter} {element : Element} {inside behind : List Token}

/-- Invoking an element gives a node that looks as its arguments leave it. -/
theorem Steady.runs_invoke (steady : engine.Steady) (reading : Reading frames tokens engine)
    (simple : Simple element) (token : Token) {mode : Mode} (opens : mode ≠ .closing)
    (other : data.name ≠ "enumerate") {source : String} {leaves : List Token → Prop}
    (reads : ∀ node between,
      Drafting gauge engine node (draftOf element mode) []
        (frameOf element mode node :: frames) tokens between →
      Runs (readElementArgumentsFrom interpreter element node true element.arguments) between
        fun result after => result.1 = source ∧ ∃ tokens', leaves tokens' ∧
          Drafting gauge engine node data content (frameOf element mode node :: frames) tokens'
            after) :
    Runs (invokeElement interpreter element token mode) engine fun node after =>
      ∃ tokens', leaves tokens' ∧
        Drafting gauge engine node
          { data with
            argumentSource := source
            depth := (framesBehind element mode node frames).length + 1 }
          content (framesBehind element mode node frames) tokens' after := by
  have all : ∀ node between,
      Drafting gauge engine node (draftOf element mode) []
        (frameOf element mode node :: frames) tokens between →
      Runs (readElementArguments interpreter element node) between fun _ after =>
        ∃ tokens', leaves tokens' ∧
          Drafting gauge engine node { data with argumentSource := source } content
            (frameOf element mode node :: frames) tokens' after := by
    intro node between drafting
    exact drafting.runs_readElementArguments (reads node)
  refine steady.runs_invokeElement reading simple token opens ?_ all
  exact other

/-- Invoking an element without arguments. -/
theorem Steady.runs_invokeBare (gauge : Gauge β) (steady : engine.Steady)
    (reading : Reading frames tokens engine) (simple : Simple element)
    (other : element.name ≠ "enumerate") (noArguments : element.arguments = [])
    (token : Token) {mode : Mode}
    (opens : mode ≠ .closing) :
    Runs (invokeElement interpreter element token mode) engine fun node after =>
      Drafting gauge engine node
        { draftOf element mode with depth := (framesBehind element mode node frames).length + 1 }
        [] (framesBehind element mode node frames) tokens after := by
  have reads : ∀ node between,
      Drafting gauge engine node (draftOf element mode) []
        (frameOf element mode node :: frames) tokens between →
      Runs (readElementArgumentsFrom interpreter element node true element.arguments) between
        fun result after => result.1 = "" ∧ ∃ tokens', tokens' = tokens ∧
          Drafting gauge engine node (draftOf element mode) []
            (frameOf element mode node :: frames) tokens' after := by
    intro node between drafting
    rw [noArguments]
    exact runs_pure ⟨rfl, tokens, rfl, drafting⟩
  refine (steady.runs_invoke reading simple token opens other reads).mono ?_
  rintro node after ⟨_, rfl, drafting⟩
  exact drafting

/-- Invoking an element with an optional argument that is left out. -/
theorem Steady.runs_invokeWithoutOption (gauge : Gauge β) (steady : engine.Steady)
    (reading : Reading frames tokens engine) (simple : Simple element)
    (other : element.name ≠ "enumerate") {name : String}
    (onlyOption : element.arguments = [.optional name]) (token : Token) {mode : Mode}
    (opens : mode ≠ .closing) {first : Token}
    (follows : tokens.dropWhile Input.isSpace = first :: behind)
    (absent : first.isChar '[' = false) :
    Runs (invokeElement interpreter element token mode) engine fun node after =>
      Drafting gauge engine node
        { draftOf element mode with depth := (framesBehind element mode node frames).length + 1 }
        [] (framesBehind element mode node frames) (first :: behind) after := by
  have reads : ∀ node between,
      Drafting gauge engine node (draftOf element mode) []
        (frameOf element mode node :: frames) tokens between →
      Runs (readElementArgumentsFrom interpreter element node true element.arguments) between
        fun result after => result.1 = "" ∧ ∃ tokens', tokens' = first :: behind ∧
          Drafting gauge engine node (draftOf element mode) []
            (frameOf element mode node :: frames) tokens' after := by
    intro node between drafting
    rw [onlyOption]
    have option : Runs (readElementArgument interpreter element node true (.optional name)) between
        fun result after => result.1 = "" ∧
          Drafting gauge engine node (draftOf element mode) []
            (frameOf element mode node :: frames) (first :: behind) after := by
      refine (drafting.runs_withoutOption rfl follows absent).mono ?_
      rintro _ after ⟨rfl, done⟩
      exact ⟨rfl, done⟩
    refine runs_readElementArgumentsFrom "" option ?_ rfl
    intro last drafting
    exact runs_pure ⟨rfl, _, rfl, drafting⟩
  refine (steady.runs_invoke reading simple token opens other reads).mono ?_
  rintro node after ⟨_, rfl, drafting⟩
  exact drafting

/-- Invoking an element whose argument is its content, behind optional arguments that
are left out. -/
theorem Steady.runs_invokeSelf (builds : interpreter.Builds) (steady : engine.Steady)
    (reading : Reading frames (.beginGroup :: (inside ++ .endGroup :: behind)) engine)
    (simple : Simple element) (other : element.name ≠ "enumerate")
    (idle : element.digest = .nothing)
    (arguments : element.arguments = [.content] ∨
      ∃ name, element.arguments = [.optional name, .content])
    (balanced : Input.braces 0 inside = some 0) (token : Token) {leaves : List Token → Prop}
    (interprets : ∀ node, Interprets gauge interpreter (frameOf element .plain node :: frames)
      engine.mathStack inside behind content leaves) :
    Runs (invokeElement interpreter element token .plain) engine fun node after =>
      ∃ tokens', leaves tokens' ∧
        Drafting gauge engine node
          { draftOf element .plain with contentForm := .braced, depth := frames.length + 1 }
          content frames tokens' after := by
  have follows : (Token.beginGroup :: (inside ++ Token.endGroup :: behind)).dropWhile
      Input.isSpace = Token.beginGroup :: (inside ++ Token.endGroup :: behind) := rfl
  have reads : ∀ node between,
      Drafting gauge engine node (draftOf element .plain) []
        (frameOf element .plain node :: frames)
        (.beginGroup :: (inside ++ .endGroup :: behind)) between →
      Runs (readElementArgumentsFrom interpreter element node true element.arguments) between
        fun result after => result.1 = "" ∧ ∃ tokens', leaves tokens' ∧
          Drafting gauge engine node { draftOf element .plain with contentForm := .braced }
            content (frameOf element .plain node :: frames) tokens' after := by
    intro node between drafting
    have takes : ∀ isFirst between,
        Drafting gauge engine node (draftOf element .plain) []
          (frameOf element .plain node :: frames)
          (.beginGroup :: (inside ++ .endGroup :: behind)) between →
        Runs (readElementArgumentsFrom interpreter element node isFirst [.content]) between
          fun result after => result.1 = "" ∧ ∃ tokens', leaves tokens' ∧
            Drafting gauge engine node { draftOf element .plain with contentForm := .braced }
              content (frameOf element .plain node :: frames) tokens' after := by
      intro isFirst between drafting
      have reads : Runs (readElementArgument interpreter element node isFirst .content) between
          fun result after => result.1 = "" ∧ ∃ tokens', leaves tokens' ∧
            Drafting gauge engine node { draftOf element .plain with contentForm := .braced }
              content (frameOf element .plain node :: frames) tokens' after :=
        drafting.runs_content builds rfl idle rfl rfl balanced (interprets node)
      refine runs_readElementArgumentsFrom "" reads ?_ rfl
      rintro last ⟨tokens', isLeft, drafting⟩
      exact runs_pure ⟨rfl, tokens', isLeft, drafting⟩
    rcases arguments with onlyContent | ⟨name, both⟩
    · rw [onlyContent]
      exact takes true between drafting
    · rw [both]
      have option : Runs (readElementArgument interpreter element node true (.optional name))
          between fun result after => result.1 = "" ∧
            Drafting gauge engine node (draftOf element .plain) []
              (frameOf element .plain node :: frames)
              (.beginGroup :: (inside ++ .endGroup :: behind)) after := by
        refine (drafting.runs_withoutOption rfl follows rfl).mono ?_
        rintro _ after ⟨rfl, done⟩
        exact ⟨rfl, done⟩
      exact runs_readElementArgumentsFrom "" option (takes false) rfl
  exact steady.runs_invoke reading simple token (by decide) other reads

/-- Invoking a sectioning command, whose title is not a part of its content. -/
theorem Steady.runs_invokeHeading (builds : interpreter.Builds) (steady : engine.Steady)
    (reading : Reading frames (.beginGroup :: (inside ++ .endGroup :: behind)) engine)
    (simple : Simple element) (other : element.name ≠ "enumerate")
    (arguments : element.arguments = [.star, .optional "toc", .required "title"])
    (balanced : Input.braces 0 inside = some 0) (enough : 0 < interpreter.limit) (token : Token)
    {title : List β} {leaves : List Token → Prop}
    (interprets : ∀ node, Interprets gauge interpreter (frameOf element .plain node :: frames)
      engine.mathStack inside behind title leaves) :
    Runs (invokeElement interpreter element token .plain) engine fun node after =>
      ∃ tokens', leaves tokens' ∧
        Drafting gauge engine node
          { draftOf element .plain with
            argumentSource := argumentSource inside true, depth := frames.length + 1 }
          [] frames tokens' after := by
  have follows : (Token.beginGroup :: (inside ++ Token.endGroup :: behind)).dropWhile
      Input.isSpace = Token.beginGroup :: (inside ++ Token.endGroup :: behind) := rfl
  have unmodified : ∀ token : Token, token.bare = .beginGroup → isModifier "*" token = false := by
    intro token same
    have text : token.text = "\x7b" := congrArg Token.text same
    rw [isModifier, text]
    simp
  have reads : ∀ node between,
      Drafting gauge engine node (draftOf element .plain) []
        (frameOf element .plain node :: frames)
        (.beginGroup :: (inside ++ .endGroup :: behind)) between →
      Runs (readElementArgumentsFrom interpreter element node true element.arguments) between
        fun result after => result.1 = argumentSource inside true ∧ ∃ tokens', leaves tokens' ∧
          Drafting gauge engine node (draftOf element .plain) []
            (frameOf element .plain node :: frames) tokens' after := by
    intro node between drafting
    rw [arguments]
    refine runs_readElementArgumentsFrom (argumentSource inside true)
      (drafting.runs_withoutModifier rfl follows unmodified) ?_ String.empty_append
    intro between drafting
    have option : Runs (readElementArgument interpreter element node false (.optional "toc"))
        between fun result after => result.1 = "" ∧
          Drafting gauge engine node (draftOf element .plain) []
            (frameOf element .plain node :: frames)
            (.beginGroup :: (inside ++ .endGroup :: behind)) after := by
      refine (drafting.runs_withoutOption rfl follows rfl).mono ?_
      rintro _ after ⟨rfl, done⟩
      exact ⟨rfl, done⟩
    refine runs_readElementArgumentsFrom (argumentSource inside true) option ?_
      String.empty_append
    intro between drafting
    refine runs_readElementArgumentsFrom ""
      (drafting.runs_required builds rfl rfl rfl rfl balanced enough (interprets node)) ?_
      String.append_empty
    rintro last ⟨tokens', isLeft, drafting⟩
    exact runs_pure ⟨rfl, tokens', isLeft, drafting⟩
  exact steady.runs_invoke reading simple token (by decide) other reads

end Invocation

end TexTree.Engine
