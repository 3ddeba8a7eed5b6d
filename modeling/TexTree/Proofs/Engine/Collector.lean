import TexTree.Proofs.Engine.Collecting
import TexTree.Proofs.Engine.Counting

/-!
# Taking up texts

The root, a list and an item take up items in loops that differ in what they do with the
nodes that end something, but not in what they do with characters, breaks between paragraphs
and lists (`Collector`).  A text is therefore collected in the same way by all of them,
whatever stands behind it (`Collected`).
-/

namespace TexTree

namespace Engine

variable {α : Type} {loop : Bool → Nat → TexM α} {start engine after digested : Engine}
  {id next : NodeId} {depth fuel position : Nat}
  {opened : List OpenScope} {values : Nat → Int} {kind : ListKind}
  {written tokens : List Token} {taken content more : List (Numbered (Option String))}
  {items rest : ListItems} {text : ListText}

/-! ## What the loops do -/

/-- A node that ends neither a list nor an item, as far as it does not lie outside. -/
structure Interior (depth : Nat) (node : Node) : Prop where
  opens : node.isCloser = false
  name : node.name ≠ "item"
  deep : depth ≤ node.depth
  level : node.level = Level.environment ∨ node.level = Level.par ∧ node.digest = .nothing

theorem interior_breakNode (place : Option Position) (depth : Nat) :
    Interior depth (breakNode place depth) :=
  ⟨rfl, show "par" ≠ "item" by decide, Nat.le_refl _, .inr ⟨rfl, rfl⟩⟩

theorem interior_openingNode (kind : ListKind) (place : Option Position) (depth : Nat) :
    Interior depth (openingNode kind.name place (depth + 1)) := by
  have other : ∀ name ∈ Builtin.listNames, name ≠ "item" := by decide
  refine ⟨?_, ?_, Nat.le_succ _, .inl (Builtin.level_enclosure kind.name_ne_document)⟩
  · cases kind <;> rfl
  · exact (Builtin.name_enclosure _).trans_ne (other _ kind.name_mem_listNames)

/-- A node that takes up interior nodes. -/
inductive TakesInside (depth : Nat) (node : Node) : Prop where
  | list (digest : node.digest = .environment) (level : node.level = Level.environment)
      (deep : node.depth ≤ depth)
  | item (digest : node.digest = .item) (name : node.name = "item") (deep : node.depth ≤ depth)

/-- An interior node is taken up, or appended if it digests nothing. -/
theorem TakesInside.reaction {node other : Node} (takes : TakesInside depth node)
    (interior : Interior depth other) :
    node.reaction other = .takeUp ∨ node.reaction other = .append ∧ other.digest = .nothing := by
  have notClosing : other.mode ≠ .closing := by
    have opens := interior.opens
    simp only [Node.isCloser, Bool.or_eq_false_iff, beq_eq_false_iff_ne] at opens
    exact opens.1
  cases takes with
  | list digest level deep =>
      have inside : ¬other.depth < node.depth := Nat.not_lt.mpr (Nat.le_trans deep interior.deep)
      rcases interior.level with isList | ⟨isBreak, nothing⟩
      · left
        simp [Node.reaction, Node.isOutside, digest, level, isList, notClosing, inside,
          Level.environment, Level.par]
      · right
        simp [Node.reaction, digest, isBreak, nothing]
  | item digest name deep =>
      have inside : ¬other.depth < node.depth := Nat.not_lt.mpr (Nat.le_trans deep interior.deep)
      have notAbove : ¬other.level < Level.par := by
        rcases interior.level with isList | ⟨isBreak, _⟩
        · rw [isList]
          decide
        · rw [isBreak]
          decide
      left
      simp [Node.reaction, Node.isOutside, digest, name, interior.name, notClosing, inside,
        notAbove]

/-- A loop that puts characters and interior nodes into a node.  It may drop characters, and
it may note that there was a break between paragraphs. -/
structure Collector (fuel : Nat) (start : Engine) (id : NodeId) (depth : Nat)
    (loop : Bool → Nat → TexM α) : Prop where
  character : ∀ {engine after : Engine} {token : Token},
    nextItem (Engine.interpreter fuel) engine = .ok (some (.token token)) after →
    token.category ≠ .endOfList →
    ∀ flag, ∃ last, (last = after ∨
        last = { after with document := after.document.appendText id token.text }) ∧
      ∀ steps, loop flag (1 + steps) engine = loop flag steps last
  node : ∀ {engine after digested : Engine} {next : NodeId},
    nextItem (Engine.interpreter fuel) engine = .ok (some (.node next)) after →
    Interior depth (after.document.node next) →
    digest (Engine.interpreter fuel) next after = .ok () digested →
    ∀ flag, ∃ flag', ∀ steps, loop flag (1 + steps) engine =
      loop flag' steps { digested with document := digested.document.append id next }
  suits : ∀ {engine : Engine} {next : NodeId}, Filling start id engine →
    Interior depth (engine.document.node next) → engine.document.Suits id next

/-- A node that digests nothing leaves the engine as it is. -/
theorem digest_of_nothing (nothing : (engine.document.node next).digest = .nothing)
    {interpreter : Interpreter} (digests : digest interpreter next engine = .ok () digested) :
    digested = engine := by
  unfold digest at digests
  simp only [bind, EStateM.bind, nodeOf, get_run, pure, EStateM.pure, nothing, if_true] at digests
  cases digests
  rfl

/-- A node that is taken up is digested and appended. -/
theorem digestWithin_takeUp {node : Node}
    (isItem : nextItem (Engine.interpreter fuel) engine = .ok (some (.node next)) after)
    (reaction : node.reaction (after.document.node next) = .takeUp)
    (digests : digest (Engine.interpreter fuel) next after = .ok () digested) (steps : Nat)
    (flag : Bool) :
    digestWithin (Engine.interpreter (fuel + 1)) id node (steps + 1) flag engine =
      digestWithin (Engine.interpreter (fuel + 1)) id node steps flag
        { digested with document := digested.document.append id next } := by
  have produced : (Engine.interpreter (fuel + 1)).run .nextItem engine =
      .ok (some (.node next)) after := isItem
  have isDigested : (Engine.interpreter (fuel + 1)).run (.digest next) after =
      .ok () digested := digests
  rw [digestWithin]
  simp only [bind, EStateM.bind, produced, nodeOf, get_run, pure, EStateM.pure, reaction,
    isDigested]
  rfl

/-- The loop of a list or of an item. -/
theorem collector_digestWithin (takes : TakesInside depth (start.document.node id)) :
    Collector fuel start id depth fun flag steps =>
      digestWithin (Engine.interpreter (fuel + 1)) id (start.document.node id) steps flag := by
  constructor
  · intro engine after token isItem plain flag
    have produced : (Engine.interpreter (fuel + 1)).run .nextItem engine =
        .ok (some (.token token)) after := isItem
    by_cases accepted : accepts after.document id token
    · refine ⟨_, .inr rfl, fun steps => ?_⟩
      rw [Nat.add_comm 1 steps]
      rw [digestWithin]
      simp only [bind, EStateM.bind, produced, plain, if_false, get_run, accepted, if_true]
      rfl
    · refine ⟨_, .inl rfl, fun steps => ?_⟩
      rw [Nat.add_comm 1 steps]
      rw [digestWithin]
      simp only [bind, EStateM.bind, produced, plain, if_false, get_run, accepted,
        Bool.false_eq_true, pure]
  · intro engine after digested next isItem interior digests flag
    have produced : (Engine.interpreter (fuel + 1)).run .nextItem engine =
        .ok (some (.node next)) after := isItem
    rcases takes.reaction interior with reaction | ⟨reaction, nothing⟩
    · refine ⟨flag, fun steps => ?_⟩
      rw [Nat.add_comm 1 steps]
      exact digestWithin_takeUp isItem reaction digests steps flag
    · obtain rfl := digest_of_nothing nothing digests
      refine ⟨true, fun steps => ?_⟩
      rw [Nat.add_comm 1 steps]
      rw [digestWithin]
      simp only [bind, EStateM.bind, produced, nodeOf, get_run, pure, EStateM.pure, reaction]
      rfl
  · intro engine next filling interior
    refine .inl ((Node.takes_congr filling.traits rfl).mpr ?_)
    rcases takes.reaction interior with reaction | ⟨reaction, _⟩
    · exact .inl reaction
    · exact .inr reaction

/-- The loop of the root. -/
theorem collector_digestRootWithin (idle : (start.document.node Document.root).digest = .nothing) :
    Collector fuel start Document.root depth fun _ steps =>
      digestRootWithin (Engine.interpreter (fuel + 1)) steps := by
  constructor
  · intro engine after token isItem plain flag
    have produced : (Engine.interpreter (fuel + 1)).run .nextItem engine =
        .ok (some (.token token)) after := isItem
    refine ⟨_, .inr rfl, fun steps => ?_⟩
    rw [Nat.add_comm 1 steps, digestRootWithin]
    simp only [bind, EStateM.bind, produced, ne_eq, plain, not_false_eq_true, if_true]
    rfl
  · intro engine after digested next isItem interior digests flag
    have produced : (Engine.interpreter (fuel + 1)).run .nextItem engine =
        .ok (some (.node next)) after := isItem
    have isDigested : (Engine.interpreter (fuel + 1)).run (.digest next) after =
        .ok () digested := digests
    have opens := interior.opens
    rw [Node.isCloser] at opens
    refine ⟨flag, fun steps => ?_⟩
    rw [Nat.add_comm 1 steps, digestRootWithin]
    simp only [bind, EStateM.bind, produced, nodeOf, get_run, pure, EStateM.pure, opens,
      Bool.not_false, if_true, isDigested]
    rfl
  · intro engine next filling interior
    exact filling.suits_of_idle idle interior.opens

/-! ## Texts -/

/-- Where a loop is: the node has collected something, and these tokens are ahead. -/
structure Stage (start : Engine) (id : NodeId) (taken : List (Numbered (Option String)))
    (opened : List OpenScope) (values : Nat → Int) (tokens : List Token)
    (engine : Engine) : Prop where
  collects : Collects start id taken engine
  steady : engine.Steady
  counts : Counts opened values tokens engine

/-- Any loop collects the given lists from the tokens, whatever stands behind them, and takes
at most one step for each of the tokens. -/
structure Collected (fuel : Nat) (opened : List OpenScope) (values : Nat → Int)
    (written : List Token) (content : List (Numbered (Option String))) : Prop where
  follow : ∀ {α : Type} {loop : Bool → Nat → TexM α} {start engine : Engine} {id : NodeId}
    {taken : List (Numbered (Option String))} {tokens : List Token},
    Collector fuel start id (opened.length + 1) loop →
    Stage start id taken opened values (written ++ tokens) engine →
    ∀ flag, ∃ count ≤ written.length, ∃ flag' after,
      (∀ steps, loop flag (count + steps) engine = loop flag' steps after) ∧
        Stage start id (taken ++ content) opened values tokens after

/-- Every token gives an item at once. -/
theorem runs_nextItem_of_pos (enough : 0 < fuel) {post : Option Item → Engine → Prop}
    (runs : ∀ steps, Runs (nextItemWithin (Engine.interpreter fuel) (steps + 1)) engine post) :
    Runs (nextItem (Engine.interpreter fuel)) engine post := by
  obtain ⟨less, rfl⟩ : ∃ less, fuel = less + 1 := Nat.exists_eq_add_one.mpr enough
  exact runs less

theorem idles_of_pos (enough : 0 < fuel) : Idles (Engine.interpreter fuel) := by
  obtain ⟨less, rfl⟩ : ∃ less, fuel = less + 1 := Nat.exists_eq_add_one.mpr enough
  exact idles_interpreter less

/-- Every item that is read has been produced. -/
theorem Collects.sat_nextItem (collects : Collects start id taken engine) (fuel : Nat) :
    Sat (nextItem (Engine.interpreter fuel)) engine engine.Produced :=
  (builds_interpreter (fuel + 1)).nextItem engine collects.filling.waiting

/-- The numbers stay when a node is created. -/
theorem Comes.keepsNumbers {changed : Engine} {node : Node}
    (comes : Comes changed opened tokens after) (before : Engine)
    (created : changed.document = (before.document.create node).2) :
    before.document.KeepsNumbers after.document := by
  have same : after.document = changed.document := by rw [comes.changes]
  rw [same, created]
  exact before.document.keepsNumbers_create node

/-- An interior node is digested, and taken up with what it shows. -/
theorem Stage.takeUp (stage : Stage start id taken opened values written engine)
    (collector : Collector fuel start id (opened.length + 1) loop)
    (isItem : nextItem (Engine.interpreter fuel) engine = .ok (some (.node next)) after)
    (produced : engine.Produced (some (.node next)) after)
    (keeps : engine.document.KeepsNumbers after.document)
    (interior : Interior (opened.length + 1) (after.document.node next))
    (isDigested : digest (Engine.interpreter fuel) next after = .ok () digested)
    (digests : after.Digested next digested)
    (keepsOn : after.document.KeepsNumbers digested.document)
    (gauged : ∀ number, digested.document.Agrees number →
      digested.document.gauged (.numbered number) next = content)
    (counts : Counts opened values tokens digested) (flag : Bool) :
    ∃ flag', (∀ steps, loop flag (1 + steps) engine =
        loop flag' steps { digested with document := digested.document.append id next }) ∧
      Stage start id (taken ++ content) opened values tokens
        { digested with document := digested.document.append id next } := by
  have collects := stage.collects.produce produced keeps
  have appended := collects.append (produced.ready next rfl)
    (stage.collects.filling.le_of_produced produced) (collector.suits collects.filling interior)
    digests keepsOn gauged
  obtain ⟨flag', step⟩ := collector.node isItem interior isDigested flag
  refine ⟨flag', step, appended, ?_, counts.setDocument _⟩
  exact appended.filling.waiting.steady counts.encloses.buffer

namespace Collected

variable {written' : List Token} {content' : List (Numbered (Option String))}

theorem nil : Collected fuel opened values [] [] := by
  constructor
  intro α loop start engine id taken tokens _ stage flag
  rw [List.nil_append] at stage
  refine ⟨0, Nat.le_refl _, flag, engine, fun steps => by rw [Nat.zero_add], ?_⟩
  rwa [List.append_nil]

theorem append (one : Collected fuel opened values written content)
    (two : Collected fuel opened values written' content') :
    Collected fuel opened values (written ++ written') (content ++ content') := by
  constructor
  intro α loop start engine id taken tokens collector stage flag
  rw [List.append_assoc] at stage
  obtain ⟨count, few, flag', between, first, stage⟩ := one.follow collector stage flag
  obtain ⟨count', few', flag'', after, second, stage⟩ := two.follow collector stage flag'
  rw [List.append_assoc] at stage
  refine ⟨count + count', ?_, flag'', after, fun steps => ?_, stage⟩
  · rw [List.length_append]
    exact Nat.add_le_add few few'
  · rw [Nat.add_assoc, first, second]

/-- Characters belong to no list. -/
theorem character {token : Token} (enough : 0 < fuel)
    (plain : token.category = .letter ∨ token.category = .other ∨ token.category = .space) :
    Collected fuel opened values [token] [] := by
  constructor
  intro α loop start engine id taken tokens collector stage flag
  have reads := runs_nextItem_of_pos enough (stage.counts.encloses.runs_character plain)
  obtain ⟨_, after, isItem, ⟨_, rfl, ⟨given, rfl, same⟩, comes⟩, produced⟩ :=
    reads.sat (stage.collects.sat_nextItem fuel)
  have isPlain : given.category ≠ .endOfList := by
    rw [category_of_bare same]
    rcases plain with isKind | isKind | isKind <;> simp [isKind]
  have sameDocument : after.document = engine.document := by rw [comes.changes]
  have keeps : engine.document.KeepsNumbers after.document := sameDocument ▸ .refl _
  have counts : Counts opened values tokens after := by
    refine stage.counts.change comes.encloses ?_ ?_
    all_goals rw [comes.changes]
  have collects := stage.collects.produce produced keeps
  have steady := produced.grown.steady
  obtain ⟨last, isLast, step⟩ := collector.character isItem isPlain flag
  refine ⟨1, Nat.le_refl _, flag, last, step, ?_⟩
  rw [List.append_nil]
  rcases isLast with rfl | rfl
  · exact ⟨collects, steady, counts⟩
  · have appended := collects.appendText given.text
    exact ⟨appended, appended.filling.waiting.steady steady.buffer, counts.setDocument _⟩

/-- A break between paragraphs belongs to no list. -/
theorem paragraph (enough : 0 < fuel) :
    Collected fuel opened values [.control "par"] [] := by
  constructor
  intro α loop start engine id taken tokens collector stage flag
  have reads := runs_nextItem_of_pos enough
    (stage.counts.encloses.runs_paragraph (idles_of_pos enough))
  obtain ⟨_, after, isItem, ⟨_, rfl, rfl, place, comes⟩, produced⟩ :=
    reads.sat (stage.collects.sat_nextItem fuel)
  have isNode : after.document.node engine.document.size =
      breakNode place (opened.length + 1) := by
    rw [comes.changes, ← stage.counts.encloses.depth]
    exact Document.node_create_self _ _
  have counts : Counts opened values tokens after := by
    refine stage.counts.change comes.encloses ?_ ?_
    all_goals
      rw [comes.changes]
      rfl
  have digests : digest (Engine.interpreter fuel) engine.document.size after = .ok () after := by
    unfold digest
    simp only [bind, EStateM.bind, nodeOf, get_run, pure, EStateM.pure, isNode]
    rfl
  have steady := produced.grown.steady
  have nothing (number : NodeId → Option String) :
      after.document.gauged (.numbered number) engine.document.size = [] := by
    have level : (after.document.node engine.document.size).level = Level.par := by
      rw [isNode]
      rfl
    have childless : after.document.children engine.document.size = [] := by
      rw [Document.children, isNode]
      rfl
    rw [steady.orderly.sound.gauged_paragraph (Tally.ignoresParagraphs_numbered number)
      steady.orderly.textsInline level, Document.within_of_childless childless]
  obtain ⟨flag', step, stage⟩ := stage.takeUp collector isItem produced
    (comes.keepsNumbers engine rfl) (isNode ▸ interior_breakNode _ _) digests
    (steady.digested (produced.ready _ rfl)) (.refl _) (fun number _ => nothing number) counts flag
  exact ⟨1, Nat.le_refl _, flag', _, step, stage⟩

end Collected

end Engine

end TexTree
