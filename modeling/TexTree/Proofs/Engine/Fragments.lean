import TexTree.Proofs.Engine.Building

/-!
# Building fragments

A token list that is interpreted on its own fills a new fragment.  All nodes that
go into it are new, so that whatever was there before stays as it is; and nodes
that only close something are dropped, so that nothing in a fragment closes
anything.

What the interpreter has to do for this is stated in `Interpreter.Builds`: its
items are nodes that can be appended, and digesting a node changes this node and
nothing else that is old.
-/

namespace TexTree

namespace Engine

/-- An engine that is asked for the next item.  It may still have a node that was
read too early. -/
structure Waiting (engine : Engine) : Prop where
  sane : engine.Sane
  orderly : engine.document.Orderly
  pending : ∀ id ∈ engine.buffer, engine.document.Ready id
  short : engine.buffer.length ≤ 1

/-- The next item has been produced.  A node is new, unless it was read too early. -/
structure Produced (before : Engine) (item : Option Item) (after : Engine) : Prop where
  grown : before.Grown after
  ready : ∀ id, item = some (.node id) → after.document.Ready id
  origin : ∀ id, item = some (.node id) → id ∈ before.buffer ∨ before.document.size ≤ id

/-- A node has digested what belongs to it.  At most one node that does not belong to
it has been read. -/
structure Digested (node : NodeId) (before after : Engine) : Prop where
  waiting : after.Waiting
  ext : Document.Extends (some node) before.document after.document
  ready : after.document.Ready node
  new : ∀ id ∈ after.buffer, before.document.size ≤ id

theorem Steady.waiting {engine : Engine} (steady : engine.Steady) : engine.Waiting where
  sane := steady.sane
  orderly := steady.orderly
  pending := by simp [steady.buffer]
  short := by simp [steady.buffer]

/-- A node that takes up nothing has been digested at once. -/
theorem Steady.digested {engine : Engine} {id : NodeId} (steady : engine.Steady)
    (ready : engine.document.Ready id) : engine.Digested id engine where
  waiting := steady.waiting
  ext := .refl _
  ready := ready
  new := by simp [steady.buffer]

end Engine

open Engine

/-- An interpreter that produces items and digests nodes as it should. -/
structure Interpreter.Builds (interpreter : Interpreter) : Prop where
  calm : interpreter.Calm
  nextItem : ∀ engine : Engine, engine.Waiting →
    Sat (interpreter.run .nextItem) engine engine.Produced
  digest : ∀ (engine : Engine) (node : NodeId), engine.Steady → engine.document.Ready node →
    Sat (interpreter.run (.digest node)) engine fun _ after => engine.Digested node after

namespace Engine

variable {interpreter : Interpreter} {start engine : Engine} {parent : NodeId}

/-- A node is being filled with new nodes since the given engine. -/
structure Filling (start : Engine) (parent : NodeId) (engine : Engine) : Prop where
  begun : start.document.Sound
  waiting : engine.Waiting
  ext : Document.Extends (some parent) start.document engine.document
  new : ∀ id ∈ engine.buffer, start.document.size ≤ id
  old : parent < start.document.size
  free : engine.document.parent? parent = none

/-- Any node without a parent can be filled. -/
theorem Steady.filling (steady : engine.Steady) (inside : parent < engine.document.size)
    (free : engine.document.parent? parent = none) : Filling engine parent engine where
  begun := steady.orderly.sound
  waiting := steady.waiting
  ext := .refl _
  new := by simp [steady.buffer]
  old := inside
  free := free

namespace Filling

theorem inside (filling : Filling start parent engine) : parent < engine.document.size :=
  Nat.lt_of_lt_of_le filling.old filling.ext.size_le

/-- What the node takes up and admits has not changed. -/
theorem traits (filling : Filling start parent engine) :
    (engine.document.node parent).traits = (start.document.node parent).traits :=
  filling.ext.traits parent filling.old

/-- Producing the next item keeps the node as it is. -/
theorem produce (filling : Filling start parent engine) {item : Option Item} {after : Engine}
    (produced : engine.Produced item after) : Filling start parent after := by
  have inside := filling.inside
  have ext := produced.grown.ext
  constructor
  · exact filling.begun
  · exact produced.grown.steady.waiting
  · exact filling.ext.trans filling.begun ext (by simp)
  · simp [produced.grown.steady.buffer]
  · exact filling.old
  · rw [ext.parents parent inside (Document.untouched_none _ _)]
    exact filling.free

/-- A node that is produced while another one is filled is new. -/
theorem le_of_produced (filling : Filling start parent engine) {id : NodeId} {after : Engine}
    (produced : engine.Produced (some (.node id)) after) : start.document.size ≤ id := by
  rcases produced.origin id rfl with early | new
  · exact filling.new id early
  · exact Nat.le_trans filling.ext.size_le new

theorem quiet (filling : Filling start parent engine) {after : Engine}
    (quiet : engine.Quiet after) : Filling start parent after := by
  have waiting := filling.waiting
  refine ⟨filling.begun, ⟨quiet.sane waiting.sane, ?_, ?_, ?_⟩, ?_, ?_, filling.old, ?_⟩
  · rw [quiet.document]
    exact waiting.orderly
  · rw [quiet.document, quiet.buffer]
    exact waiting.pending
  · rw [quiet.buffer]
    exact waiting.short
  · rw [quiet.document]
    exact filling.ext
  · rw [quiet.buffer]
    exact filling.new
  · rw [quiet.document]
    exact filling.free

theorem appendText (filling : Filling start parent engine) (content : String) :
    Filling start parent
      { engine with document := engine.document.appendText parent content } := by
  have waiting := filling.waiting
  have sound := waiting.orderly.sound
  have inside := filling.inside
  have appended := Document.textAppended inside content
  have ext : Document.Extends (some parent) engine.document
      (engine.document.appendText parent content) :=
    Document.Extends.appendText (.refl _) sound sound (.inl rfl) inside content
  refine ⟨filling.begun,
    ⟨⟨waiting.sane.scopes, waiting.sane.libraries⟩, ?_, ?_, waiting.short⟩,
    ?_, filling.new, filling.old, ?_⟩
  · exact waiting.orderly.appendText inside filling.free content
  · intro id member
    apply ext.ready sound (waiting.pending id member)
    intro equal
    have later := filling.new id member
    rw [← Option.some.inj equal] at later
    exact Nat.not_le_of_lt filling.old later
  · exact filling.ext.appendText sound filling.begun (.inl rfl) inside content
  · exact (appended.parents parent inside).trans filling.free

/-- A new node that suits the node is digested and appended. -/
theorem digestAndAppend (filling : Filling start parent engine) {id : NodeId}
    (new : start.document.size ≤ id) (ready : engine.document.Ready id)
    (suits : engine.document.Suits parent id) {after : Engine}
    (digested : engine.Digested id after) :
    Filling start parent { after with document := after.document.append parent id } := by
  have waiting := digested.waiting
  have different : id ≠ parent := Nat.ne_of_gt (Nat.lt_of_lt_of_le filling.old new)
  have inside : parent < after.document.size :=
    Nat.lt_of_lt_of_le filling.inside digested.ext.size_le
  have free : after.document.parent? parent = none := by
    rw [digested.ext.parents parent filling.inside
      (Document.Extends.untouched_of_free filling.free (by simpa using different))]
    exact filling.free
  have ext : Document.Extends (some parent) start.document after.document := by
    apply filling.ext.trans filling.begun digested.ext
    intro node isNode
    rw [← Option.some.inj isNode]
    exact .inr new
  have stillSuits : after.document.Suits parent id :=
    (Node.suits_congr (digested.ext.traits parent filling.inside)
      (digested.ext.traits id ready.inside)).mpr suits
  rw [Document.append_of_not_fragment digested.ready.whole]
  refine ⟨filling.begun, ⟨⟨waiting.sane.scopes, waiting.sane.libraries⟩, ?_, ?_, waiting.short⟩,
    ?_, ?_, filling.old, ?_⟩
  · exact waiting.orderly.attach inside free digested.ready different stillSuits
  · intro other member
    have later := digested.new other member
    apply (waiting.pending other member).attach_elsewhere digested.ready inside
    · exact Nat.ne_of_gt (Nat.lt_of_lt_of_le filling.inside later)
    · exact Nat.ne_of_gt (Nat.lt_of_lt_of_le ready.inside later)
  · exact ext.attach (.inl rfl) inside new digested.ready
  · intro other member
    exact Nat.le_trans filling.ext.size_le (digested.new other member)
  · rw [Document.parent?_attach digested.ready.inside, if_neg (Ne.symm different)]
    exact free

/-- A node that takes up another one can still be appended itself. -/
theorem ready_digestAndAppend (filling : Filling start parent engine)
    (ready : engine.document.Ready parent) {id : NodeId} (new : start.document.size ≤ id)
    (other : engine.document.Ready id) (suits : engine.document.Suits parent id)
    {after : Engine} (digested : engine.Digested id after) :
    (after.document.append parent id).Ready parent := by
  have different : id ≠ parent := Nat.ne_of_gt (Nat.lt_of_lt_of_le filling.old new)
  rw [Document.append_of_not_fragment digested.ready.whole]
  apply Document.Ready.attach _ digested.ready different
  · exact (Node.suits_congr (digested.ext.traits parent filling.inside)
      (digested.ext.traits id other.inside)).mpr suits
  · apply digested.ext.ready filling.waiting.orderly.sound ready
    intro equal
    exact different (Option.some.inj equal)

/-- A node that does not belong to the node is kept. -/
theorem keep (filling : Filling start parent engine) (steady : engine.Steady) {id : NodeId}
    (ready : engine.document.Ready id) (new : start.document.size ≤ id) :
    Filling start parent { engine with buffer := id :: engine.buffer } := by
  have waiting := filling.waiting
  refine ⟨filling.begun, ⟨⟨waiting.sane.scopes, waiting.sane.libraries⟩, waiting.orderly, ?_, ?_⟩,
    filling.ext, ?_, filling.old, filling.free⟩
  · simpa [steady.buffer] using ready
  · simp [steady.buffer]
  · simpa [steady.buffer] using new

/-- A node without a rule of digestion may hold whatever closes nothing. -/
theorem suits_of_idle (filling : Filling start parent engine)
    (idle : (start.document.node parent).digest = .nothing) {id : NodeId}
    (opens : (engine.document.node id).isCloser = false) : engine.document.Suits parent id := by
  refine .inr ⟨opens, ?_⟩
  unfold Node.Admits
  rw [Node.digest_eq_of_traits_eq filling.traits, idle]
  trivial

end Filling

/-- A document with a new fragment. -/
def withFragment (engine : Engine) : Engine :=
  { engine with document := engine.document.createFragment.2 }

/-- A new fragment can be filled. -/
theorem Steady.fill (steady : engine.Steady) :
    engine.Grown engine.withFragment ∧
      Filling engine.withFragment engine.document.size engine.withFragment := by
  have orderly : engine.withFragment.document.Orderly := by
    apply steady.orderly.create rfl rfl
    constructor <;> simp [Level.command, Level.par]
  have grown : engine.Grown engine.withFragment :=
    steady.setDocument orderly (Document.Extends.create (.refl _) _)
  refine ⟨grown, orderly.sound, grown.steady.waiting, .refl _, ?_, ?_, ?_⟩
  · simp [grown.steady.buffer]
  · simp [withFragment, Document.createFragment]
  · exact (Document.parent?_create rfl _).trans (Document.parent?_of_size_le (Nat.le_refl _))

theorem idle_withFragment (engine : Engine) :
    (engine.withFragment.document.node engine.document.size).digest = .nothing := by
  simp [withFragment, Document.createFragment]

/-- A fragment that has been filled is new, and nothing else was changed. -/
theorem Filling.finish (steady : engine.Steady) {after : Engine}
    (filled : Filling engine.withFragment engine.document.size after) (done : after.Steady) :
    engine.Grown after ∧
      Document.MadeFragment engine.document after.document engine.document.size := by
  have grown := steady.fill.1
  refine ⟨⟨done, ?_⟩, Nat.le_refl _, filled.inside, filled.free, ?_⟩
  · apply grown.ext.trans steady.orderly.sound filled.ext
    intro node isNode
    rw [← Option.some.inj isNode]
    exact .inr (Nat.le_refl _)
  · rw [filled.ext.fragments _ filled.old]
    simp [withFragment, Document.createFragment]

/-- A node that closes something is dropped; any other one is digested and appended. -/
theorem Filling.sat_takeUp (builds : interpreter.Builds)
    (idle : (start.document.node parent).digest = .nothing)
    (filling : Filling start parent engine) {id : NodeId} {after : Engine}
    (produced : engine.Produced (some (.node id)) after) {α : Type} {next : TexM α}
    {post : α → Engine → Prop}
    (continues : ∀ last : Engine, Filling start parent last → Sat next last post) :
    Sat (do
      let node ← nodeOf id
      if !(node.mode == .closing || node.closesGroup) then
        interpreter.run (.digest id)
        appendNode parent id
      next) after post := by
  have filled := filling.produce produced
  have ready := produced.ready id rfl
  refine sat_bind.mpr (sat_nodeOf.mpr ?_)
  dsimp only
  split
  · next opens =>
      have isOpen : (after.document.node id).isCloser = false := by
        simpa [Node.isCloser] using opens
      refine (builds.digest after id produced.grown.steady ready).bind ?_
      intro _ last digested
      refine sat_bind.mpr (sat_modify.mpr (continues _ ?_))
      exact filled.digestAndAppend (filling.le_of_produced produced) ready
        (filled.suits_of_idle idle isOpen) digested
  · exact continues _ filled

/-- Filling a node up to a marker. -/
theorem sat_digestUntilWithin (builds : interpreter.Builds) (marker : String) (steps : Nat)
    (idle : (start.document.node parent).digest = .nothing)
    (filling : Filling start parent engine) :
    Sat (digestUntilWithin interpreter parent marker steps) engine fun _ after =>
      Filling start parent after ∧ after.Steady := by
  induction steps generalizing engine with
  | zero => exact sat_fail.mpr filling.waiting.sane
  | succ steps ih =>
      unfold digestUntilWithin
      refine (builds.nextItem engine filling.waiting).bind ?_
      intro item after produced
      have filled := filling.produce produced
      have steady := produced.grown.steady
      match item, produced with
      | none, _ =>
          refine (Sat.quiet steady.sane (retains_warn _ _)).mono ?_
          intro _ last quiet
          exact ⟨filled.quiet quiet, (steady.quiet quiet).steady⟩
      | some (.token character), _ =>
          dsimp only
          split
          · split
            · exact sat_pure.mpr ⟨filled, steady⟩
            · exact ih filled
          · refine sat_bind.mpr (sat_modify.mpr ?_)
            exact ih (filled.appendText character.text)
      | some (.node id), produced =>
          exact filling.sat_takeUp builds idle produced fun _ filled => ih filled

/-- Interpreting a token list gives a new fragment. -/
theorem sat_toFragment (builds : interpreter.Builds) (steady : engine.Steady)
    (tokens : List Token) :
    Sat (toFragment interpreter tokens) engine fun fragment after =>
      engine.Grown after ∧ Document.MadeFragment engine.document after.document fragment := by
  obtain ⟨grown, filling⟩ := steady.fill
  unfold toFragment
  refine sat_bind.mpr (sat_modifyGet.mpr ?_)
  refine (Sat.quiet grown.steady.sane (retains_pushTokens _)).bind ?_
  intro _ ready quiet
  have prepared := (grown.steady.quiet quiet).steady
  have empty : ready.buffer = [] := prepared.buffer
  have same : { ready with buffer := [] } = ready := by rw [← empty]
  refine sat_bind.mpr (sat_get.mpr (sat_bind.mpr (sat_modify.mpr ?_)))
  rw [same]
  refine sat_bind.mpr (Sat.ensuring ?_ ?_)
  · refine (sat_digestUntilWithin builds "arg" _ engine.idle_withFragment
      (filling.quiet quiet)).mono ?_
    intro _ after result
    have again : { after with buffer := ready.buffer } = after := by
      rw [empty, ← result.2.buffer]
    rw [again]
    exact sat_pure.mpr (result.1.finish steady result.2)
  · intro after sane
    exact ⟨sane.scopes, sane.libraries⟩

/-- Interpreting a token list for its text leaves only new nodes behind. -/
theorem sat_toText (builds : interpreter.Builds) (steady : engine.Steady)
    (tokens : List Token) :
    Sat (toText interpreter tokens) engine fun _ after => engine.Grown after := by
  refine (sat_toFragment builds steady tokens).bind ?_
  intro fragment after result
  exact sat_bind.mpr (sat_get.mpr (sat_pure.mpr result.1))

end Engine

end TexTree
