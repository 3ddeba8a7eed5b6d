import TexTree.Proofs.Engine.Collector

/-!
# Taking up lists

The items of a list follow one another without an end of their own: an item takes up its
text until the next item begins, or the list ends, and leaves the node of either to the list
around.  While a list goes on, its next item may therefore have been read already, or is
still ahead, and the list cannot tell the difference (`Facing`).
-/

namespace TexTree

namespace Engine

variable {start engine digested : Engine} {id next : NodeId} {depth fuel position : Nat}
  {opened : List OpenScope} {values : Nat → Int} {kind : ListKind}
  {written tokens : List Token} {taken content more : List (Numbered (Option String))}
  {items rest : ListItems} {text : ListText}

/-! ## The nodes of items and of the end of a list -/

/-- What the items of a list go on with has been read: the node of the first of them, or, if
there is none, of the end of the list. -/
def Follows (kind : ListKind) (opened : List OpenScope) (values : Nat → Int)
    (position : Nat) (tokens : List Token) (next : NodeId) (engine : Engine) :
    ListItems → Prop
  | .done =>
      engine.document.Created next (closingNode kind.name none (opened.length + 1)) ∧
        Counts opened values tokens engine
  | .item content rest =>
      engine.document.Created next (itemNode none
          (kind.number? (enumerationsIn opened) (position + 1)) (opened.length + 2)) ∧
        Counts (.environment kind.name :: opened)
          (kind.values values (enumerationsIn opened) (position + 1))
          (content.skip.tokens ++ (rest.tokens ++ .control "end" :: braced kind.name tokens))
          engine

/-- The items of a list begin with a command, and so does its end. -/
theorem exists_command_items (items : ListItems) (behind : List Token) :
    ∃ first rest, items.tokens ++ .control "end" :: behind = first :: rest ∧
      first.category = .escape := by
  cases items with
  | done => exact ⟨_, _, rfl, rfl⟩
  | item content rest => exact ⟨_, _, rfl, rfl⟩

/-- The end of a list is read. -/
theorem Counts.runs_listEnd (enough : 0 < fuel)
    (counts : Counts (.environment kind.name :: opened)
      (kind.values values (enumerationsIn opened) position)
      (.control "end" :: braced kind.name tokens) engine) :
    Runs (nextItem (Engine.interpreter fuel)) engine fun item after =>
      ∃ next, item = some (.node next) ∧
        Follows kind opened values position tokens next after .done ∧
        engine.document.KeepsNumbers after.document := by
  refine runs_nextItem_of_pos enough fun steps => ?_
  refine (counts.encloses.runs_end (idles_of_pos enough) kind.name_ne_document
    List.mem_cons_self steps).mono ?_
  rintro _ after ⟨_, rfl, rfl, place, comes⟩
  have around : outside (.environment kind.name) (.environment kind.name :: opened) = opened := by
    simp [outside]
  rw [around] at comes
  have depth : (engine.scopesOutside kind.name).depth = opened.length + 1 := by
    have isDepth := comes.encloses.depth
    rw [comes.changes] at isDepth
    exact isDepth
  have created : Document.Created _ _ (closingNode kind.name place (opened.length + 1)) :=
    engine.document.created_create rfl
  have isDocument : after.document =
      (engine.document.create (closingNode kind.name place (opened.length + 1))).2 := by
    rw [comes.changes, ← depth]
    simp only [closed, counts.encloses.levelOf_eq kind.name_ne_document]
    rfl
  rw [← isDocument] at created
  exact ⟨_, rfl, ⟨⟨created.essence, created.number, created.childless⟩, counts.ends comes⟩,
    comes.keepsNumbers engine rfl⟩

/-- An item of a list is read, with the spaces before its text. -/
theorem Counts.runs_listItem (enough : 0 < fuel)
    (few : kind.inside (enumerationsIn opened) ≤ 4) (noTerm : text.isTerm = false)
    (counts : Counts (.environment kind.name :: opened)
      (kind.values values (enumerationsIn opened) position)
      ((ListItems.item text rest).tokens ++ .control "end" :: braced kind.name tokens) engine) :
    Runs (nextItem (Engine.interpreter fuel)) engine fun item after =>
      ∃ next, item = some (.node next) ∧
        Follows kind opened values position tokens next after (.item text rest) ∧
        engine.document.KeepsNumbers after.document := by
  refine runs_nextItem_of_pos enough fun steps => ?_
  obtain ⟨command, behind, isCommand, isEscape⟩ :=
    exists_command_items rest (braced kind.name tokens)
  obtain ⟨first, others, isFirst, absent, isText⟩ := text.exists_dropWhile noTerm behind isEscape
  rw [← isCommand] at isFirst isText
  have encloses := counts.encloses
  rw [ListItems.tokens, List.cons_append, List.append_assoc] at encloses
  refine (encloses.runs_item (idles_of_pos enough) kind.name_mem_listNames isFirst absent
    steps).mono ?_
  rintro _ after ⟨_, rfl, rfl, place, comes⟩
  obtain ⟨counted, isDocument⟩ := counts.steps few comes
  rw [isText] at counted
  have created : Document.Created _ _ (itemNode place
      (kind.number? (enumerationsIn opened) (position + 1)) engine.scopes.depth) :=
    engine.document.created_create rfl
  have depth : engine.scopes.depth = opened.length + 2 := counts.encloses.depth
  rw [← isDocument, depth] at created
  refine ⟨_, rfl, ⟨⟨created.essence, created.number, created.childless⟩, counted⟩, ?_⟩
  rw [isDocument]
  exact engine.document.keepsNumbers_create _

/-- The next item of a list is read, or its end. -/
theorem Counts.runs_nextItem (enough : 0 < fuel)
    (few : kind.inside (enumerationsIn opened) ≤ 4)
    (proper : items.Proper (kind.inside (enumerationsIn opened)))
    (counts : Counts (.environment kind.name :: opened)
      (kind.values values (enumerationsIn opened) position)
      (items.tokens ++ .control "end" :: braced kind.name tokens) engine) :
    Runs (nextItem (Engine.interpreter fuel)) engine fun item after =>
      ∃ next, item = some (.node next) ∧
        Follows kind opened values position tokens next after items ∧
        engine.document.KeepsNumbers after.document := by
  cases items with
  | done => exact counts.runs_listEnd enough
  | item content rest => exact counts.runs_listItem enough few proper.1

namespace Follows

/-- The nodes of other items do not matter. -/
theorem setDocument {document : Document}
    (follows : Follows kind opened values position tokens next engine items)
    (same : ∀ data, engine.document.Created next data → document.Created next data) :
    Follows kind opened values position tokens next { engine with document } items := by
  cases items with
  | done => exact ⟨same _ follows.1, follows.2.setDocument document⟩
  | item content rest => exact ⟨same _ follows.1, follows.2.setDocument document⟩

theorem buffer (follows : Follows kind opened values position tokens next engine items) :
    engine.buffer = [] := by
  cases items with
  | done => exact follows.2.encloses.buffer
  | item content rest => exact follows.2.encloses.buffer

/-- An item ends at the next item, and at the end of the list. -/
theorem reaction_leave (follows : Follows kind opened values position tokens next engine items)
    {node : Node} (digest : node.digest = .item) (name : node.name = "item") :
    node.reaction (engine.document.node next) = .leave := by
  cases items with
  | done =>
      rw [Node.reaction_congr rfl follows.1.traits]
      simp [Node.reaction, digest, closingNode, Document.element]
  | item content rest =>
      rw [Node.reaction_congr rfl follows.1.traits]
      simp [Node.reaction, digest, name, itemNode, draftOf, Builtin.item, Document.element]

end Follows

/-! ## Items -/

/-- The text of an item is collected, and what follows it is kept. -/
theorem Stage.runs_leave (enough : 0 < fuel)
    (few : kind.inside (enumerationsIn opened) ≤ 4)
    (proper : rest.Proper (kind.inside (enumerationsIn opened)))
    (digest : (start.document.node id).digest = .item)
    (name : (start.document.node id).name = "item")
    (stage : Stage start id taken (.environment kind.name :: opened)
      (kind.values values (enumerationsIn opened) position)
      (rest.tokens ++ .control "end" :: braced kind.name tokens) engine)
    (steps : Nat) (flag : Bool) :
    Runs (digestWithin (Engine.interpreter (fuel + 1)) id (start.document.node id) (steps + 1)
        flag) engine
      fun _ last => ∃ follower after, last = { after with buffer := [follower] } ∧
        Follows kind opened values position tokens follower after rest ∧
        after.document.Ready follower ∧ follower ≠ id ∧ Collects start id taken last := by
  obtain ⟨_, after, isItem, ⟨follower, rfl, follows, keeps⟩, produced⟩ :=
    (stage.counts.runs_nextItem enough few proper).sat (stage.collects.sat_nextItem fuel)
  have read : (Engine.interpreter (fuel + 1)).run .nextItem engine =
      .ok (some (.node follower)) after := isItem
  have new := stage.collects.filling.le_of_produced produced
  have ready := produced.ready follower rfl
  have kept := (stage.collects.produce produced keeps).keep produced.grown.steady ready new
  have different : follower ≠ id :=
    Nat.ne_of_gt (Nat.lt_of_lt_of_le stage.collects.filling.old new)
  rw [follows.buffer] at kept
  unfold Runs
  rw [digestWithin]
  simp only [bind, EStateM.bind, read, nodeOf, get_run, pure, EStateM.pure,
    follows.reaction_leave digest name]
  refine ⟨flag, { after with buffer := [follower] }, ?_, follower, after, rfl, follows, ready,
    different, kept⟩
  rw [← follows.buffer]
  rfl

/-- An item digests its text, and keeps what follows it. -/
theorem runs_digest_item {number : Option String} (enough : 0 < fuel)
    (short : written.length ≤ fuel) (few : kind.inside (enumerationsIn opened) ≤ 4)
    (proper : rest.Proper (kind.inside (enumerationsIn opened)))
    (inside : Collected fuel (.environment kind.name :: opened)
      (kind.values values (enumerationsIn opened) position) written content)
    (created : engine.document.Created id (itemNode none number (opened.length + 2)))
    (steady : engine.Steady) (ready : engine.document.Ready id)
    (counts : Counts (.environment kind.name :: opened)
      (kind.values values (enumerationsIn opened) position)
      (written ++ (rest.tokens ++ .control "end" :: braced kind.name tokens)) engine) :
    Runs (digest (Engine.interpreter (fuel + 1)) id) engine fun _ last =>
      ∃ follower after, last = { after with buffer := [follower] } ∧
        Follows kind opened values position tokens follower after rest ∧
        Contains engine id content last.document := by
  have isDigest : (engine.document.node id).digest = .item :=
    (Node.digest_eq_of_traits_eq created.traits).trans rfl
  have isName : (engine.document.node id).name = "item" := by
    have same := congrArg Node.name created.traits
    exact same
  have isDepth : (engine.document.node id).depth = opened.length + 2 := by
    have same := congrArg Node.depth created.traits
    exact same
  have collector : Collector fuel engine id ((.environment kind.name :: opened).length + 1) _ :=
    collector_digestWithin (.item isDigest isName (Nat.le_of_eq isDepth))
  have stage : Stage engine id [] (.environment kind.name :: opened)
      (kind.values values (enumerationsIn opened) position)
      (written ++ (rest.tokens ++ .control "end" :: braced kind.name tokens)) engine :=
    ⟨steady.collects ready.inside ready.free created.childless, steady, counts⟩
  obtain ⟨count, fewer, flag', between, reached, stage⟩ := inside.follow collector stage false
  obtain ⟨steps, isLimit⟩ : ∃ steps, fuel + 1 = count + (steps + 1) :=
    ⟨fuel - count, by omega⟩
  have loops := stage.runs_leave enough few proper isDigest isName steps flag'
  unfold Runs at loops
  rw [← reached (steps + 1), ← isLimit] at loops
  unfold digest
  apply runs_nodeOf
  rw [if_neg (by rw [isDigest]; simp)]
  refine Runs.bind loops ?_
  rintro hasBreak _ ⟨follower, after, rfl, follows, isReady, different, collects⟩
  rw [isDigest]
  refine runs_modify ⟨follower, { after with document := after.document.paragraphs id true }, rfl,
    follows.setDocument fun data old => ?_, collects.contains_paragraphs true⟩
  exact old.paragraphs collects.filling.waiting.orderly.sound isReady collects.filling.inside
    different true

/-- An item that has been digested shows its number and what it contains. -/
theorem Contains.gauged_item {label : Option String}
    (contains : Contains engine id content after.document)
    (created : engine.document.Created id (itemNode none label depth))
    (ready : engine.document.Ready id) (digested : engine.Digested id after)
    {number : NodeId → Option String} (agrees : after.document.Agrees number) :
    after.document.gauged (.numbered number) id = [.item label content] := by
  have traits : (after.document.node id).traits = _ :=
    (digested.ext.traits id ready.inside).trans created.traits
  have isElement : (after.document.node id).kind = .element :=
    contains.kind.trans ((Node.kind_eq_of_essence_eq created.essence).trans rfl)
  have isLabel : (after.document.node id).number = label :=
    (contains.keeps.number id ready.inside).trans created.number
  have isName : (after.document.node id).name = "item" := by
    have same := congrArg Node.name traits
    exact same
  have level : (after.document.node id).level ≠ Level.par := by
    rw [Node.level_eq_of_traits_eq traits]
    exact show Level.command ≠ Level.par by decide
  rw [digested.waiting.orderly.sound.gauged_numbered isElement level, if_pos isName,
    agrees id digested.ready.inside, isLabel, contains.within number agrees]

/-- Where the loop of a list is: it has collected something, and what the items go on with
comes next. -/
structure Facing (fuel : Nat) (start : Engine) (id : NodeId)
    (taken : List (Numbered (Option String))) (kind : ListKind) (opened : List OpenScope)
    (values : Nat → Int) (position : Nat) (items : ListItems) (tokens : List Token)
    (engine : Engine) : Prop where
  collects : Collects start id taken engine
  comes : Runs (nextItem (Engine.interpreter fuel)) engine fun item after =>
    ∃ next, item = some (.node next) ∧
      Follows kind opened values position tokens next after items ∧
      engine.document.KeepsNumbers after.document

/-- What has been kept comes next. -/
theorem runs_nextItem_kept (enough : 0 < fuel) (kept : engine.buffer = [next]) :
    Runs (nextItem (Engine.interpreter fuel)) engine fun item after =>
      item = some (.node next) ∧ after = { engine with buffer := [] } := by
  refine runs_nextItem_of_pos enough fun steps => ?_
  rw [nextItemWithin]
  apply runs_get
  rw [kept]
  exact runs_modify_bind (runs_pure ⟨rfl, rfl⟩)

/-- What an item has kept is what the list goes on with, once it has taken up the item. -/
theorem Facing.of_kept {follower : NodeId} (enough : 0 < fuel)
    (follows : Follows kind opened values position tokens follower engine items)
    (collects : Collects start id taken
      { engine with buffer := [follower], document := engine.document.append id next })
    (inside : id < engine.document.size) (ready : engine.document.Ready next)
    (different : follower ≠ id) :
    Facing fuel start id taken kind opened values position items tokens
      { engine with buffer := [follower], document := engine.document.append id next } := by
  have followsBehind : Follows kind opened values position tokens follower
      { engine with document := engine.document.append id next } items :=
    follows.setDocument fun data old => old.append inside ready different
  have sameEngine : { engine with buffer := [], document := engine.document.append id next } =
      { engine with document := engine.document.append id next } := by
    rw [← follows.buffer]
  refine ⟨collects, (runs_nextItem_kept enough rfl).mono ?_⟩
  rintro _ _ ⟨rfl, rfl⟩
  exact ⟨follower, rfl, sameEngine ▸ followsBehind, .refl _⟩

/-- The loop of a list collects the items with the numbers that belong to their positions, and
stops at the end of the list. -/
structure ItemsCollected (fuel : Nat) (kind : ListKind) (opened : List OpenScope)
    (values : Nat → Int) (position : Nat) (items : ListItems) : Prop where
  follow : ∀ {start engine : Engine} {id : NodeId} {taken : List (Numbered (Option String))}
    {tokens : List Token} {place : Option Position},
    start.document.node id = openingNode kind.name place (opened.length + 2) →
    Facing fuel start id taken kind opened values position items tokens engine →
    ∀ flag steps, items.tokens.length < steps →
      Runs (digestWithin (Engine.interpreter (fuel + 1)) id (start.document.node id) steps flag)
        engine fun _ =>
          Stage start id
            (taken ++ items.numbering kind (enumerationsIn opened) (position + 1)) opened values
            tokens

namespace ItemsCollected

/-- A list ends at its end. -/
theorem done : ItemsCollected fuel kind opened values position .done := by
  constructor
  intro start engine id taken tokens place isNode facing flag steps few
  obtain ⟨less, rfl⟩ : ∃ less, steps = less + 1 := Nat.exists_eq_add_one.mpr few
  obtain ⟨_, after, isItem, ⟨next, rfl, ⟨created, counts⟩, keeps⟩, produced⟩ :=
    facing.comes.sat (facing.collects.sat_nextItem fuel)
  have read : (Engine.interpreter (fuel + 1)).run .nextItem engine =
      .ok (some (.node next)) after := isItem
  have reaction : (start.document.node id).reaction (after.document.node next) = .finish := by
    rw [Node.reaction_congr rfl created.traits, isNode]
    simp [Node.reaction, openingNode, closingNode, draftOf, Document.element,
      Builtin.level_enclosure kind.name_ne_document, Level.environment, Level.par]
  unfold Runs
  rw [digestWithin]
  simp only [bind, EStateM.bind, read, nodeOf, get_run, pure, EStateM.pure, reaction]
  refine ⟨flag, after, rfl, ?_, produced.grown.steady, counts⟩
  rw [ListItems.numbering, List.append_nil]
  exact facing.collects.produce produced keeps

/-- An item gets the number that belongs to its position, and the others follow. -/
theorem item (enough : 0 < fuel) (short : text.skip.tokens.length ≤ fuel)
    (few : kind.inside (enumerationsIn opened) ≤ 4)
    (proper : rest.Proper (kind.inside (enumerationsIn opened)))
    (inside : Collected fuel (.environment kind.name :: opened)
      (kind.values values (enumerationsIn opened) (position + 1)) text.skip.tokens
      (text.numbering (kind.inside (enumerationsIn opened))))
    (others : ItemsCollected (fuel + 1) kind opened values (position + 1) rest) :
    ItemsCollected (fuel + 1) kind opened values position (.item text rest) := by
  constructor
  intro start engine id taken tokens place isNode facing flag steps enoughSteps
  obtain ⟨_, after, isItem, ⟨next, rfl, ⟨created, counts⟩, keeps⟩, produced⟩ :=
    facing.comes.sat (facing.collects.sat_nextItem (fuel + 1))
  have collects := facing.collects.produce produced keeps
  have ready := produced.ready next rfl
  have new := facing.collects.filling.le_of_produced produced
  have steady := produced.grown.steady
  have digests : Sat (digest (Engine.interpreter (fuel + 1)) next) after fun _ last =>
      after.Digested next last := (builds_interpreter (fuel + 2)).digest after next steady ready
  obtain ⟨_, _, isDigested, ⟨follower, last, rfl, follows, contains⟩, digested⟩ :=
    (runs_digest_item enough short few proper inside created steady ready counts).sat digests
  have reaction : (start.document.node id).reaction (after.document.node next) = .takeUp := by
    rw [Node.reaction_congr rfl created.traits, isNode]
    simp [Node.reaction, Node.isOutside, openingNode, itemNode, draftOf, Builtin.item,
      Document.element, Builtin.level_enclosure kind.name_ne_document, Level.environment,
      Level.par, Level.document, Level.command]
  have suits : after.document.Suits id next :=
    .inl ((Node.takes_congr collects.filling.traits rfl).mpr (.inl reaction))
  have gauged (number : NodeId → Option String) (agrees : last.document.Agrees number) :=
    contains.gauged_item created ready digested agrees
  have appended := collects.append ready new suits digested contains.keeps gauged
  -- The loop goes on with what the item has kept.
  have different : follower ≠ id :=
    Nat.ne_of_gt (Nat.lt_of_lt_of_le collects.filling.inside
      (digested.new follower List.mem_cons_self))
  have inside : id < last.document.size :=
    Nat.lt_of_lt_of_le collects.filling.inside digested.ext.size_le
  have facingOthers :=
    Facing.of_kept (Nat.succ_pos fuel) follows appended inside digested.ready different
  obtain ⟨less, rfl⟩ : ∃ less, steps = less + 1 :=
    Nat.exists_eq_add_one.mpr (Nat.zero_lt_of_lt enoughSteps)
  have fewer : rest.tokens.length < less := by
    simp only [ListItems.tokens, List.length_cons, List.length_append] at enoughSteps
    omega
  have goesOn := others.follow isNode facingOthers flag less fewer
  unfold Runs at goesOn ⊢
  rw [digestWithin_takeUp isItem reaction isDigested]
  simpa [ListItems.numbering] using goesOn

end ItemsCollected

/-! ## Lists -/

variable {lead : List Token}

/-- A list digests what stands before its first item, and its items. -/
theorem runs_digest_list {place : Option Position} (enough : 0 < fuel)
    (short : lead.length + items.tokens.length ≤ fuel)
    (few : kind.inside (enumerationsIn opened) ≤ 4)
    (proper : items.Proper (kind.inside (enumerationsIn opened)))
    (before : Collected fuel (.environment kind.name :: opened)
      (kind.values values (enumerationsIn opened) 0) lead content)
    (itemsInside : ItemsCollected fuel kind opened values 0 items)
    (isNode : engine.document.node id = openingNode kind.name place (opened.length + 2))
    (steady : engine.Steady) (ready : engine.document.Ready id)
    (counts : Counts (.environment kind.name :: opened)
      (kind.values values (enumerationsIn opened) 0)
      (lead ++ (items.tokens ++ .control "end" :: braced kind.name tokens)) engine) :
    Runs (digest (Engine.interpreter (fuel + 1)) id) engine fun _ last =>
      Counts opened values tokens last ∧
        Contains engine id (content ++ items.numbering kind (enumerationsIn opened) 1)
          last.document := by
  have isDigest : (engine.document.node id).digest = .environment := by
    rw [isNode]
    exact Builtin.digest_enclosure kind.name
  have level : (engine.document.node id).level = Level.environment := by
    rw [isNode]
    exact Builtin.level_enclosure kind.name_ne_document
  have depth : (engine.document.node id).depth ≤ (.environment kind.name :: opened).length + 1 := by
    rw [isNode]
    exact Nat.le_refl _
  have childless : engine.document.children id = [] := by
    rw [Document.children, isNode]
    rfl
  have collector : Collector fuel engine id ((.environment kind.name :: opened).length + 1) _ :=
    collector_digestWithin (.list isDigest level depth)
  have stage : Stage engine id [] (.environment kind.name :: opened)
      (kind.values values (enumerationsIn opened) 0)
      (lead ++ (items.tokens ++ .control "end" :: braced kind.name tokens)) engine :=
    ⟨steady.collects ready.inside ready.free childless, steady, counts⟩
  obtain ⟨count, fewer, flag', between, reached, stage⟩ := before.follow collector stage false
  obtain ⟨steps, isLimit⟩ : ∃ steps, fuel + 1 = count + steps := ⟨fuel + 1 - count, by omega⟩
  have loops := itemsInside.follow isNode
    ⟨stage.collects, stage.counts.runs_nextItem enough few proper⟩ flag' steps (by omega)
  unfold Runs at loops
  rw [← reached steps, ← isLimit] at loops
  unfold digest
  apply runs_nodeOf
  rw [if_neg (by rw [isDigest]; simp)]
  refine Runs.bind loops ?_
  rintro hasBreak last ⟨collects, _, countsLast⟩
  rw [isDigest]
  cases hasBreak with
  | false => exact runs_pure ⟨countsLast, collects.contains⟩
  | true => exact runs_modify ⟨countsLast.setDocument _, collects.contains_paragraphs true⟩

/-- A list that has been digested shows what it contains. -/
theorem Contains.gauged_list {place : Option Position}
    (contains : Contains engine id content after.document)
    (isNode : engine.document.node id = openingNode kind.name place depth)
    (ready : engine.document.Ready id) (digested : engine.Digested id after)
    {number : NodeId → Option String} (agrees : after.document.Agrees number) :
    after.document.gauged (.numbered number) id = [.list kind.name content] := by
  have other : ∀ name ∈ Builtin.listNames, name ≠ "item" := by decide
  have traits := digested.ext.traits id ready.inside
  have isElement : (after.document.node id).kind = .element :=
    contains.kind.trans (by rw [isNode]; rfl)
  have isName : (after.document.node id).name = kind.name := by
    have same := congrArg Node.name traits
    exact same.trans ((congrArg Node.name isNode).trans (Builtin.name_enclosure _))
  have level : (after.document.node id).level ≠ Level.par := by
    rw [Node.level_eq_of_traits_eq traits, isNode]
    exact (Builtin.level_enclosure kind.name_ne_document).trans_ne (by decide)
  rw [digested.waiting.orderly.sound.gauged_numbered isElement level, isName,
    if_neg (other _ kind.name_mem_listNames), if_pos kind.name_mem_listNames,
    contains.within number agrees]

/-- A list is one item of the loop around it, whatever stands behind it. -/
theorem Collected.list (enough : 0 < fuel)
    (short : lead.length + items.tokens.length ≤ fuel)
    (few : kind.inside (enumerationsIn opened) ≤ 4)
    (proper : items.Proper (kind.inside (enumerationsIn opened)))
    (before : Collected fuel (.environment kind.name :: opened)
      (kind.values values (enumerationsIn opened) 0) lead content)
    (itemsInside : ItemsCollected fuel kind opened values 0 items) :
    Collected (fuel + 1) opened values
      (.control "begin" :: braced kind.name
        (lead ++ (items.tokens ++ .control "end" :: braced kind.name [])))
      [.list kind.name (content ++ items.numbering kind (enumerationsIn opened) 1)] := by
  constructor
  intro α loop start engine id taken tokens collector stage flag
  have isName : kind.name ∈ Builtin.enclosureNames := kind.name_mem_enclosureNames
  have isWritten : (.control "begin" :: braced kind.name
      (lead ++ (items.tokens ++ .control "end" :: braced kind.name []))) ++ tokens =
      .control "begin" :: braced kind.name
        (lead ++ (items.tokens ++ .control "end" :: braced kind.name tokens)) := by
    simp [braced]
  rw [isWritten] at stage
  have reads := runs_nextItem_of_pos (Nat.succ_pos fuel)
    (stage.counts.encloses.runs_begin (idles_of_pos (Nat.succ_pos fuel)) isName)
  obtain ⟨_, after, isItem, ⟨_, rfl, rfl, place, comes⟩, produced⟩ :=
    reads.sat (stage.collects.sat_nextItem (fuel + 1))
  rw [around_of_ne kind.name_ne_document] at comes
  have depth : (engine.scopesInside kind.name).depth = opened.length + 2 := by
    have isDepth := comes.encloses.depth
    rw [comes.changes] at isDepth
    exact isDepth
  have isNode : after.document.node engine.document.size =
      openingNode kind.name place (opened.length + 2) := by
    rw [comes.changes, ← depth]
    exact Document.node_create_self _ _
  have ready := produced.ready _ rfl
  have digests : Sat (digest (Engine.interpreter (fuel + 1)) engine.document.size) after
      fun _ last => after.Digested engine.document.size last :=
    (builds_interpreter (fuel + 2)).digest after _ produced.grown.steady ready
  obtain ⟨_, last, isDigested, ⟨counts, contains⟩, digested⟩ :=
    (runs_digest_list enough short few proper before itemsInside isNode produced.grown.steady ready
      (stage.counts.opens few comes)).sat digests
  obtain ⟨flag', step, stage⟩ := stage.takeUp collector isItem produced
    (comes.keepsNumbers engine rfl) (isNode ▸ interior_openingNode kind place _) isDigested digested
    contains.keeps (fun number agrees => contains.gauged_list isNode ready digested agrees) counts
    flag
  exact ⟨1, by simp, flag', _, step, stage⟩

end Engine

end TexTree
