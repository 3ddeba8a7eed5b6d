import TexTree.Proofs.Document.Gauge
import TexTree.Proofs.Engine.Digestion
import TexTree.Proofs.Engine.Reading

/-!
# Drafting the nodes of plain documents

While a plain document is read, the node that is under construction is known
completely: what it says, what its children contribute to a gauge, which frames
are open and which tokens are ahead (`Drafting`).  This module follows a node from
its creation through the reading of its arguments.
-/

namespace TexTree.Engine

variable {β : Type} {gauge : Gauge β} {start engine after : Engine} {id : NodeId} {data : Node}
  {content : List β} {frames frames' : List Frame} {tokens tokens' : List Token}

/-- A node is being made since the given engine, and it looks like the given one. -/
structure Drafting (gauge : Gauge β) (start : Engine) (id : NodeId) (data : Node)
    (content : List β) (frames : List Frame) (tokens : List Token) (engine : Engine) : Prop where
  making : Making start id data.digest data.level engine
  essence : (engine.document.node id).essence = data.essence
  content : engine.document.within gauge id = content
  reading : Reading frames tokens engine
  formulas : engine.mathStack = start.mathStack

namespace Drafting

theorem steady (drafting : Drafting gauge start id data content frames tokens engine) :
    engine.Steady := drafting.making.steady

/-- Building other nodes and reading on do not disturb the node. -/
theorem grow (drafting : Drafting gauge start id data content frames tokens engine)
    (grown : engine.Grown after) (reading : Reading frames' tokens' after)
    (formulas : after.mathStack = engine.mathStack) :
    Drafting gauge start id data content frames' tokens' after := by
  have made := drafting.making.made
  constructor
  · exact drafting.making.grow grown
  · rw [grown.ext.essence id made.inside (Document.untouched_none _ _)]
    exact drafting.essence
  · rw [grown.ext.within drafting.steady.orderly.sound grown.steady.orderly.sound made.inside
      (by simp)]
    exact drafting.content
  · exact reading
  · exact formulas.trans drafting.formulas

theorem move (drafting : Drafting gauge start id data content frames tokens engine)
    (grown : engine.Grown after) (moved : Moved engine frames' tokens' after) :
    Drafting gauge start id data content frames' tokens' after :=
  drafting.grow grown moved.reading moved.formulas

/-- What the node says is changed. -/
theorem modify (drafting : Drafting gauge start id data content frames tokens engine)
    (change : Node → Node) (parent : ∀ node, (change node).parent = node.parent)
    (children : ∀ node, (change node).children = node.children)
    (kind : ∀ node, (change node).kind = node.kind)
    (digests : ∀ node, (change node).digest = node.digest)
    (levels : ∀ node, (change node).level = node.level)
    (essence : ∀ node, (change node).essence = (change node.essence).essence) :
    Drafting gauge start id (change data) content frames tokens
      { engine with document := engine.document.modify id change } := by
  have making := drafting.making
  have reading := drafting.reading
  constructor
  · rw [digests, levels]
    exact making.modify parent children kind digests levels
  · rw [Document.node_modify_self change making.made.inside, essence, drafting.essence, ← essence]
  · rw [drafting.steady.orderly.sound.within_modify parent children kind]
    exact drafting.content
  · exact ⟨reading.ahead, reading.inner, reading.plain, reading.base⟩
  · exact drafting.formulas

/-- The rule of digestion is settled at the beginning. -/
theorem define (drafting : Drafting gauge start id data content frames tokens engine)
    (childless : engine.document.children id = []) (change : Node → Node)
    (parent : ∀ node, (change node).parent = node.parent)
    (children : ∀ node, (change node).children = node.children)
    (kind : ∀ node, (change node).kind = node.kind)
    (digests : ∀ node other, (change node).digest = (change other).digest)
    (levels : ∀ node, (change node).level = node.level)
    (essence : ∀ node, (change node).essence = (change node.essence).essence)
    (sectioning : (change data).digest = .sectioning → data.level < Level.endSections)
    (paragraph : data.level = Level.par →
      (change data).digest = .nothing ∨ (change data).digest = .environment) :
    Drafting gauge start id (change data) content frames tokens
      { engine with document := engine.document.modify id change } := by
  have making := drafting.making
  have reading := drafting.reading
  constructor
  · rw [levels]
    exact making.define childless parent children kind (fun node => digests node data) levels
      sectioning paragraph
  · rw [Document.node_modify_self change making.made.inside, essence, drafting.essence, ← essence]
  · rw [drafting.steady.orderly.sound.within_modify parent children kind]
    exact drafting.content
  · exact ⟨reading.ahead, reading.inner, reading.plain, reading.base⟩
  · exact drafting.formulas

/-- A new fragment is dissolved in the node. -/
theorem appendFragment (drafting : Drafting gauge start id data content frames tokens engine)
    {fragment : NodeId}
    (madeFragment : Document.MadeFragment start.document engine.document fragment)
    (admits : ∀ next, (engine.document.node id).Admits next) :
    Drafting gauge start id data (content ++ engine.document.within gauge fragment) frames tokens
      { engine with document := engine.document.append id fragment } := by
  have made := drafting.making.made
  have reading := drafting.reading
  have different : fragment ≠ id := by
    intro equal
    exact made.whole (equal ▸ madeFragment.fragment)
  have core := Document.core_append engine.document id fragment id
  constructor
  · exact drafting.making.appendFragment madeFragment admits
  · rw [Node.essence_eq_of_core_eq core]
    exact drafting.essence
  · rw [drafting.steady.orderly.sound.within_append_fragment made.inside made.free
      madeFragment.fragment different madeFragment.free, drafting.content]
  · exact ⟨reading.ahead, reading.inner, reading.plain, reading.base⟩
  · exact drafting.formulas

/-- Only the essence of a node is known. -/
theorem of_essence (drafting : Drafting gauge start id data content frames tokens engine)
    {data' : Node} (same : data.essence = data'.essence) :
    Drafting gauge start id data' content frames tokens engine := by
  have traits := Node.traits_eq_of_essence_eq same
  refine ⟨?_, drafting.essence.trans same, drafting.content, drafting.reading, drafting.formulas⟩
  rw [← Node.digest_eq_of_traits_eq traits, ← Node.level_eq_of_traits_eq traits]
  exact drafting.making

end Drafting

/-- A new element looks as it was created. -/
theorem Steady.draft (steady : engine.Steady) (reading : Reading frames tokens engine)
    (name : String) (level : Level) (mode : Mode) :
    Drafting gauge engine engine.document.size (Document.element name level mode) [] frames tokens
      { engine with
        document := (engine.document.create (Document.element name level mode)).2 } := by
  constructor
  · exact steady.make name level mode
  · rw [Document.node_create_self]
  · apply Document.within_of_childless
    rw [Document.children_create rfl, Document.children_of_size_le (Nat.le_refl _)]
  · exact ⟨reading.ahead, reading.inner, reading.plain, reading.base⟩
  · rfl

theorem Steady.runs_createElement (gauge : Gauge β) (steady : engine.Steady)
    (reading : Reading frames tokens engine) (name : String) (level : Level) (mode : Mode) :
    Runs (createElement name level mode) engine fun node after =>
      Drafting gauge engine node (Document.element name level mode) [] frames tokens after ∧
        after.document.children node = [] := by
  refine runs_modifyGet ⟨steady.draft reading name level mode, ?_⟩
  exact (Document.children_create rfl _).trans (Document.children_of_size_le (Nat.le_refl _))

/-! ## Elements -/

/-- The node of an element before its arguments are read. -/
def draftOf (element : Element) (mode : Mode) : Node :=
  { Document.element element.name element.level mode with
    digest := element.digest
    block := element.block
    contentForm := if element.digest = .declaration then .declaration else .none }

/-- The owner of the scope of an element. -/
def ownerOf (element : Element) (mode : Mode) (node : NodeId) : FrameOwner :=
  { node := some node, name := element.name, mode, level := element.level, math := element.math }

/-- The scope of an element. -/
def frameOf (element : Element) (mode : Mode) (node : NodeId) : Frame :=
  plainFrame (some (ownerOf element mode node)) element.locals

/-- The scopes behind the command of an element: only that of an environment stays
open. -/
def framesBehind (element : Element) (mode : Mode) (node : NodeId) (frames : List Frame) :
    List Frame :=
  if mode = .plain then frames else frameOf element mode node :: frames

/-- An element that opens an ordinary scope and does nothing special. -/
structure Simple (element : Element) : Prop where
  regular : Command.Regular (.element element)
  unfixed : element.fixed = []
  inner : element.level ≠ Level.document
  locals : element.locals = [] ∨ element.locals = [("item", .element Builtin.item)]
  hook : element.hook = none ∨ element.hook = some .list

theorem Drafting.runs_recordDepth
    (drafting : Drafting gauge start id data content frames tokens engine) :
    Runs (recordDepth id) engine fun _ after =>
      Drafting gauge start id { data with depth := frames.length + 1 } content frames tokens
        after := by
  refine runs_modify ?_
  rw [drafting.reading.depth]
  exact drafting.modify (fun node => { node with depth := frames.length + 1 }) (fun _ => rfl)
    (fun _ => rfl) (fun _ => rfl) (fun _ => rfl) (fun _ => rfl) fun _ => rfl

/-- What is special to a list is counted. -/
theorem Drafting.runs_countList
    (drafting : Drafting gauge start id data content frames tokens engine)
    (other : data.name ≠ "enumerate") (mode : Mode) :
    Runs (countList id mode) engine fun _ after =>
      Drafting gauge start id data content frames tokens after := by
  have counts : Runs (countList id mode) engine fun _ after =>
      Moved engine frames tokens after := by
    cases mode with
    | plain => exact runs_pure drafting.reading.moved
    | closing => exact runs_modify (drafting.reading.same rfl rfl rfl rfl rfl)
    | opening =>
        have name : (engine.document.node id).name = data.name :=
          congrArg Form.name (Node.form_eq_of_essence_eq drafting.essence)
        unfold countList
        apply runs_nodeOf
        rw [name]
        simp only [beq_eq_false_iff_ne.mpr other, Bool.false_eq_true, if_false]
        exact runs_modify (drafting.reading.same rfl rfl rfl rfl rfl)
  refine (counts.sat (growing_countList id mode engine drafting.steady)).mono ?_
  rintro _ after ⟨moved, grown⟩
  exact drafting.move grown moved

/-- How `invokeElement` goes on in the scope of the element. -/
def invokeInside (interpreter : Interpreter) (element : Element) (mode : Mode) (node : NodeId) :
    TexM NodeId := do
  readElementArguments interpreter element node
  if let some hook := element.hook then runHook node mode hook
  if mode = .plain then popOwner (ownerOf element mode node)
  recordDepth node
  return node

section Invoking

variable {interpreter : Interpreter} {element : Element} {mode : Mode}

/-- The rule of digestion of a new node is settled. -/
theorem Drafting.runs_settle
    (drafting : Drafting gauge start id (Document.element element.name element.level mode) content
      frames tokens engine)
    (childless : engine.document.children id = []) (fits : element.Fits) (token : Token) :
    Runs (modifyNode id fun inner =>
      { inner with
        digest := element.digest
        block := element.block
        position := token.position
        contentForm := if element.digest = .declaration then .declaration
          else inner.contentForm }) engine fun _ after =>
      Drafting gauge start id (draftOf element mode) content frames tokens after := by
  refine runs_modify ?_
  have drafted := drafting.define childless (fun inner =>
    { inner with
      digest := element.digest
      block := element.block
      position := token.position
      contentForm := if element.digest = .declaration then .declaration
        else inner.contentForm })
    (fun _ => rfl) (fun _ => rfl) (fun _ => rfl) (fun _ _ => rfl) (fun _ => rfl)
    (fun _ => rfl) fits.sectioning fits.paragraph
  exact ⟨drafted.making, drafted.essence, drafted.content, drafted.reading, drafted.formulas⟩

/-- The scope of a command is closed behind its arguments. -/
theorem Drafting.runs_leave
    (drafting : Drafting gauge start id data content (frameOf element mode id :: frames) tokens
      engine) :
    Runs (do
      if mode = .plain then popOwner (ownerOf element mode id)
      recordDepth id
      return id) engine fun node after => node = id ∧
      Drafting gauge start id
        { data with depth := (framesBehind element mode id frames).length + 1 } content
        (framesBehind element mode id frames) tokens after := by
  unfold framesBehind
  split
  · have ends : Scopes.endsAt (ownerOf element mode id) (frameOf element mode id) = true := by
      simp [Scopes.endsAt, frameOf, plainFrame, Frame.fresh, ownerOf]
    refine ((drafting.reading.runs_popOwner ends).sat
      (growing_popOwner _ engine drafting.steady)).bind ?_
    rintro _ popped ⟨moved, grown⟩
    refine (drafting.move grown moved).runs_recordDepth.bind ?_
    intro _ after done
    exact runs_pure ⟨rfl, done⟩
  · refine drafting.runs_recordDepth.bind ?_
    intro _ after done
    exact runs_pure ⟨rfl, done⟩

/-- In the scope of an element its arguments are read, and a list is counted. -/
theorem Simple.runs_invokeInside (simple : Simple element) (other : data.name ≠ "enumerate")
    {leaves : List Token → Prop}
    (reads : Runs (readElementArguments interpreter element id) engine fun _ after =>
      ∃ tokens', leaves tokens' ∧
        Drafting gauge start id data content (frameOf element mode id :: frames) tokens' after) :
    Runs (invokeInside interpreter element mode id) engine fun node after => node = id ∧
      ∃ tokens', leaves tokens' ∧
        Drafting gauge start id
          { data with depth := (framesBehind element mode id frames).length + 1 } content
          (framesBehind element mode id frames) tokens' after := by
  unfold invokeInside
  refine reads.bind ?_
  rintro _ last ⟨tokens', isLeft, drafting⟩
  rcases simple.hook with none | list
  · rw [none]
    exact drafting.runs_leave.mono fun _ _ ⟨isNode, done⟩ => ⟨isNode, tokens', isLeft, done⟩
  · rw [list]
    refine (drafting.runs_countList other mode).bind ?_
    intro _ counted drafting
    exact drafting.runs_leave.mono fun _ _ ⟨isNode, done⟩ => ⟨isNode, tokens', isLeft, done⟩

/-- Invoking an element gives a new node as its arguments leave it. -/
theorem Steady.runs_invokeElement
    (steady : engine.Steady) (reading : Reading frames tokens engine) (simple : Simple element)
    (token : Token) (opens : mode ≠ .closing) {data : Node}
    (other : data.name ≠ "enumerate") {leaves : List Token → Prop}
    (reads : ∀ node between,
      Drafting gauge engine node (draftOf element mode) []
        (frameOf element mode node :: frames) tokens between →
      Runs (readElementArguments interpreter element node) between fun _ after =>
        ∃ tokens', leaves tokens' ∧
          Drafting gauge engine node data content (frameOf element mode node :: frames) tokens'
            after) :
    Runs (invokeElement interpreter element token mode) engine fun node after =>
      ∃ tokens', leaves tokens' ∧
        Drafting gauge engine node
          { data with depth := (framesBehind element mode node frames).length + 1 } content
          (framesBehind element mode node frames) tokens' after := by
  unfold invokeElement
  simp only [opens, if_false, simple.unfixed, List.forIn_nil, pure_bind]
  refine (steady.runs_createElement gauge reading _ _ _).bind ?_
  rintro node between ⟨drafting, childless⟩
  refine (drafting.runs_settle childless simple.regular.fits token).bind ?_
  intro _ between drafting
  have isInner : ∀ opener, some (ownerOf element mode node) = some opener →
      opener.level ≠ Level.document := by
    intro opener isOwner
    cases isOwner
    exact simple.inner
  have pushes := drafting.reading.runs_pushScope isInner simple.locals
  refine ((pushes.sat (growing_pushScope _ simple.regular.locals between drafting.steady))).bind ?_
  rintro _ pushed ⟨moved, grown⟩
  replace drafting := drafting.move grown moved
  have goesOn : ∀ between, Drafting gauge engine node (draftOf element mode) []
      (frameOf element mode node :: frames) tokens between →
      Runs (invokeInside interpreter element mode node) between fun node after =>
        ∃ tokens', leaves tokens' ∧
          Drafting gauge engine node
            { data with depth := (framesBehind element mode node frames).length + 1 } content
            (framesBehind element mode node frames) tokens' after := by
    intro between drafting
    refine (simple.runs_invokeInside other (reads node between drafting)).mono ?_
    rintro _ after ⟨rfl, done⟩
    exact done
  split
  · have enters : Runs (pushEnvironment element.name) pushed fun _ after =>
        Moved pushed (frameOf element mode node :: frames) tokens after :=
      runs_modify (drafting.reading.same rfl rfl rfl rfl rfl)
    refine (enters.sat (growing_pushEnvironment element.name pushed drafting.steady)).bind ?_
    rintro _ entered ⟨moved, grown⟩
    exact goesOn entered (drafting.move grown moved)
  · exact goesOn pushed drafting

end Invoking

end TexTree.Engine
