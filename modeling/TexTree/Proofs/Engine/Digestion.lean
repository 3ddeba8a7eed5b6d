import TexTree.Proofs.Engine.Carrying

/-!
# Items and digestion

An item is a node that was read too early, or it comes from the next token that
produces something.  A node that digests takes up items in a loop, keeps at most
one node for the node around it, and is regrouped at the end.

Together with the previous modules this shows that the interpreter builds nodes
as it should, by induction on the number of tasks inside of each other
(`builds_interpreter`).
-/

namespace TexTree.Engine

variable {interpreter : Interpreter} {start engine : Engine} {id : NodeId}

/-! ## Items -/

theorem shaping_recordOrigin {node : NodeId} {digest : Digest} {level : Level} (token : Token) :
    Shaping node digest level (recordOrigin node token) :=
  fun _ _ making => sat_modify.mpr
    (making.modify (fun _ => rfl) (fun _ => rfl) (fun _ => rfl) (fun _ => rfl) fun _ => rfl)

theorem offering_itemOf (builds : interpreter.Builds) (token : Token) {command : Command}
    (regular : command.Regular) :
    Offering (fun item => item.bind Item.node?) (itemOf interpreter token command) := by
  intro engine steady
  unfold itemOf
  refine (offering_invoke builds token regular engine steady).bind ?_
  rintro item after ⟨grown, offered⟩
  cases item with
  | none => exact sat_pure.mpr ⟨grown, by simp⟩
  | some item =>
      have clears : Growing clearExpansions := .quiet fun _ => retains_clearExpansions
      refine (clears after grown.steady).bind ?_
      intro _ last cleared
      cases item with
      | token character => exact sat_pure.mpr ⟨grown.trans steady cleared, by simp [Item.node?]⟩
      | node id =>
          obtain ⟨digest, level, making⟩ := offered id rfl
          refine (shaping_recordOrigin token engine last (making.grow cleared)).bind ?_
          intro _ final recorded
          exact sat_pure.mpr (recorded.offered rfl)

/-- A name may be looked up before a node is made. -/
theorem offering_lookup {α : Type} {held : α → Option NodeId} (name : String)
    {next : Command → TexM α}
    (offering : ∀ command, command.Regular → Offering held (next command)) :
    Offering held (do next (← lookup name)) := by
  intro engine steady
  refine (sat_lookup steady name).bind ?_
  rintro command after ⟨grown, regular⟩
  refine (offering command regular after grown.steady).mono ?_
  rintro value last ⟨later, making⟩
  refine ⟨grown.trans steady later, ?_⟩
  intro node isHeld
  obtain ⟨digest, level, made⟩ := making node isHeld
  exact ⟨digest, level, made.since steady grown⟩

theorem offering_tokenItem (builds : interpreter.Builds) (token : Token) :
    Offering (fun item => item.bind Item.node?) (tokenItem interpreter token) := by
  have clears : ∀ character, Offering (fun item => item.bind Item.node?) (do
      clearExpansions
      return some (Item.token character)) := by
    intro character
    apply Growing.offering (.quiet fun _ => retains_clearExpansions)
    intro _
    exact .nothing rfl
  unfold tokenItem
  split
  · split
    · next name _ =>
        apply Growing.offering (.quiet fun _ => retains_clearExpansions)
        intro _
        exact (makes_closeEnvironment name).item
    · exact .nothing rfl
  · exact clears token
  · exact clears token
  · exact clears token
  · exact clears token
  · apply offering_lookup
    intro command regular
    split
    · exact .nothing rfl
    · exact offering_itemOf builds _ regular
  · split
    · apply offering_lookup
      intro command regular
      exact offering_itemOf builds token regular
    · exact clears token

/-- An item that was produced later was produced. -/
theorem Produced.since {middle after : Engine} {item : Option Item}
    (produced : middle.Produced item after) (steady : engine.Steady)
    (grown : engine.Grown middle) : engine.Produced item after where
  grown := grown.trans steady produced.grown
  ready := produced.ready
  origin node isNode := by
    rcases produced.origin node isNode with early | new
    · simp [grown.steady.buffer] at early
    · exact .inr (Nat.le_trans grown.ext.size_le new)

theorem Grown.produced {after : Engine} {item : Option Item}
    (grown : engine.Grown after)
    (offered : ∀ node, item.bind Item.node? = some node →
      ∃ digest level, Making engine node digest level after) : engine.Produced item after where
  grown := grown
  ready node isNode := by
    obtain ⟨digest, level, making⟩ := offered node (by simp [isNode, Item.node?])
    exact making.made.ready
  origin node isNode := by
    obtain ⟨digest, level, making⟩ := offered node (by simp [isNode, Item.node?])
    exact .inr making.made.new

/-- A node that was read too early is produced next. -/
theorem Waiting.produced (waiting : engine.Waiting) {rest : List NodeId}
    (early : engine.buffer = id :: rest) :
    engine.Produced (some (.node id)) { engine with buffer := rest } := by
  have member : id ∈ engine.buffer := by simp [early]
  have last : rest = [] := by
    have short := waiting.short
    rw [early] at short
    simpa using short
  constructor
  · exact ⟨⟨⟨waiting.sane.scopes, waiting.sane.libraries⟩, waiting.orderly, last⟩, .refl _⟩
  · intro node isNode
    cases isNode
    exact waiting.pending id member
  · intro node isNode
    cases isNode
    exact .inl member

theorem Waiting.steady (waiting : engine.Waiting) (empty : engine.buffer = []) :
    engine.Steady := ⟨waiting.sane, waiting.orderly, empty⟩

theorem sat_nextItemWithin (builds : interpreter.Builds) (steps : Nat)
    (waiting : engine.Waiting) :
    Sat (nextItemWithin interpreter steps) engine engine.Produced := by
  induction steps generalizing engine with
  | zero => exact sat_fail.mpr waiting.sane
  | succ steps ih =>
      unfold nextItemWithin
      refine sat_bind.mpr (sat_get.mpr ?_)
      cases early : engine.buffer with
      | cons id rest =>
          refine sat_bind.mpr (sat_modify.mpr (sat_pure.mpr ?_))
          exact waiting.produced early
      | nil =>
          have steady := waiting.steady early
          have reads : Growing nextToken := .quiet fun _ => retains_nextToken
          refine (reads engine steady).bind ?_
          intro found after grown
          cases found with
          | none =>
              exact sat_pure.mpr (grown.produced (by simp))
          | some token =>
              refine (offering_tokenItem builds token after grown.steady).bind ?_
              rintro item last ⟨later, offered⟩
              have soFar := grown.trans steady later
              cases item with
              | none =>
                  refine (ih later.steady.waiting).mono ?_
                  intro item final produced
                  exact produced.since steady soFar
              | some item =>
                  exact sat_pure.mpr ((later.produced offered).since steady grown)

/-! ## Digestion -/

/-- A node takes up items, until one does not belong to it. -/
theorem sat_digestWithin (builds : interpreter.Builds) (steps : Nat) (hasBreak : Bool)
    (filling : Filling start id engine) (ready : engine.document.Ready id) :
    Sat (digestWithin interpreter id (start.document.node id) steps hasBreak) engine
      fun _ after => Filling start id after ∧ after.document.Ready id := by
  induction steps generalizing engine hasBreak with
  | zero => exact sat_fail.mpr filling.waiting.sane
  | succ steps ih =>
      unfold digestWithin
      refine (builds.nextItem engine filling.waiting).bind ?_
      intro item after produced
      have filled := filling.produce produced
      have steady := produced.grown.steady
      have stillReady := produced.grown.ext.ready filling.waiting.orderly.sound ready (by simp)
      match item, produced with
      | none, _ =>
          dsimp only
          split
          · refine (Sat.quiet steady.sane (retains_report _)).bind ?_
            intro _ last quiet
            refine sat_pure.mpr ⟨filled.quiet quiet, ?_⟩
            rw [quiet.document]
            exact stillReady
          · exact sat_pure.mpr ⟨filled, stillReady⟩
      | some (.token character), _ =>
          dsimp only
          split
          · refine (Sat.quiet steady.sane (retains_putBack character)).bind ?_
            intro _ last quiet
            refine sat_pure.mpr ⟨filled.quiet quiet, ?_⟩
            rw [quiet.document]
            exact stillReady
          · refine sat_bind.mpr (sat_get.mpr ?_)
            split
            · refine sat_bind.mpr (sat_modify.mpr ?_)
              exact ih _ (filled.appendText character.text)
                (stillReady.appendText steady.orderly character.text)
            · exact ih _ filled stillReady
      | some (.node next), produced =>
          have nextReady := produced.ready next rfl
          have new := filling.le_of_produced produced
          have takes : ∀ {hasBreak : Bool} {digested : Engine}, after.Digested next digested →
              (start.document.node id).Takes (after.document.node next) →
              Sat (do
                appendNode id next
                digestWithin interpreter id (start.document.node id) steps hasBreak) digested
                fun _ last => Filling start id last ∧ last.document.Ready id := by
            intro hasBreak digested isDigested isTaken
            have suits : after.document.Suits id next :=
              .inl ((Node.takes_congr filled.traits rfl).mpr isTaken)
            refine sat_bind.mpr (sat_modify.mpr (ih _ ?_ ?_))
            · exact filled.digestAndAppend new nextReady suits isDigested
            · exact filled.ready_digestAndAppend stillReady new nextReady suits isDigested
          refine sat_bind.mpr (sat_nodeOf.mpr ?_)
          cases reaction : (start.document.node id).reaction (after.document.node next) with
          | takeUp =>
              refine (builds.digest after next steady nextReady).bind ?_
              intro _ digested isDigested
              exact takes isDigested (.inl reaction)
          | append => exact takes (steady.digested nextReady) (.inr reaction)
          | leave =>
              refine sat_bind.mpr (sat_modify.mpr (sat_pure.mpr ?_))
              exact ⟨filled.keep steady nextReady new, stillReady⟩
          | finish => exact sat_pure.mpr ⟨filled, stillReady⟩

/-- A node that has taken up its items is regrouped. -/
theorem Filling.regroup (filling : Filling start id engine) (ready : engine.document.Ready id)
    (force : Bool) :
    start.Digested id { engine with document := engine.document.paragraphs id force } := by
  have waiting := filling.waiting
  have sound := waiting.orderly.sound
  rcases sound.paragraphs filling.inside force with same | ⟨parts, regrouped⟩
  · rw [same]
    exact ⟨waiting, filling.ext, ready, filling.new⟩
  · refine ⟨⟨⟨waiting.sane.scopes, waiting.sane.libraries⟩, ?_, ?_, waiting.short⟩, ?_, ?_,
      filling.new⟩
    · exact waiting.orderly.of_regrouped ready.suits regrouped
    · intro other member
      have ext := Document.Extends.of_regrouped (.refl _) sound regrouped
      apply ext.ready sound (waiting.pending other member)
      intro equal
      have later := filling.new other member
      rw [← Option.some.inj equal] at later
      exact Nat.not_le_of_lt filling.old later
    · exact filling.ext.of_regrouped sound regrouped
    · exact ready.of_regrouped waiting.orderly regrouped

/-- Digesting a node changes this node only. -/
theorem sat_digest (builds : interpreter.Builds) (steady : engine.Steady)
    (ready : engine.document.Ready id) :
    Sat (digest interpreter id) engine fun _ after => engine.Digested id after := by
  have filling := steady.filling ready.inside ready.free
  unfold digest
  refine sat_bind.mpr (sat_nodeOf.mpr ?_)
  split
  · exact sat_pure.mpr (steady.digested ready)
  · next takes =>
      refine (sat_digestWithin builds _ false filling ready).bind ?_
      rintro hasBreak after ⟨filled, stillReady⟩
      have regroups : ∀ force, Sat (modifyDocument (·.paragraphs id force)) after
          fun _ last => engine.Digested id last :=
        fun force => sat_modify.mpr (filled.regroup stillReady force)
      cases rule : (engine.document.node id).digest with
      | nothing => exact absurd rule takes
      | environment =>
          dsimp only
          split
          · exact regroups true
          · exact sat_pure.mpr ⟨filled.waiting, filled.ext, stillReady, filled.new⟩
      | sectioning => exact regroups true
      | item => exact regroups true
      | group => exact regroups false
      | declaration => exact regroups false

/-- The interpreter builds nodes as it should, whatever its bound is. -/
theorem builds_interpreter (fuel : Nat) : (Engine.interpreter fuel).Builds := by
  induction fuel with
  | zero =>
      refine ⟨calm_interpreter 0, ?_, ?_⟩
      · intro engine waiting
        exact sat_fail.mpr waiting.sane
      · intro engine node steady _
        exact sat_fail.mpr steady.sane
  | succ fuel ih =>
      refine ⟨calm_interpreter (fuel + 1), ?_, ?_⟩
      · intro engine waiting
        exact sat_nextItemWithin ih _ waiting
      · intro engine node steady ready
        exact sat_digest ih steady ready

end TexTree.Engine
