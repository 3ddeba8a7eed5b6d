import TexTree.Proofs.Engine.Mirroring
import TexTree.Proofs.Engine.Nested

/-!
# Taking up a body

The root and the node of an environment take up items in loops of their own.  What a body
needs of such a loop is that it takes up characters and nodes of environments (`Takes`).
From that it follows, along the body, that the loop takes up exactly what is expected of
the body, whatever stands behind it (`Body.taken`): a pair gives one node, which takes up
the code of the beginning, the content and the code of the end.
-/

namespace TexTree

namespace Engine

variable {family : List Custom} {environment : Custom} {opened : List (NodeId × String)}
  {tokens : List Token} {characters : List Char} {taken : List Shape}
  {start engine after : Engine} {interpreter : Interpreter} {fuel spare : Nat} {id next : NodeId}
  {name : String} {position : Option Position} {depth : Nat} {α : Type} {loop : Nat → TexM α}

/-- The engine gets to the given tokens before the next item, and more than so many rounds
are left then. -/
def Approaches (interpreter : Interpreter) (spare : Nat) (family : List Custom)
    (opened : List (NodeId × String)) (tokens : List Token) (engine : Engine) : Prop :=
  ∃ rounds target, rounds + spare < interpreter.limit ∧
    Advances (nextItemWithin interpreter) rounds engine target ∧
    Stands family [] opened tokens target

theorem Stands.approaches {spare : Nat} (stands : Stands family [] opened tokens engine)
    (enough : spare < interpreter.limit) :
    Approaches interpreter spare family opened tokens engine :=
  ⟨0, engine, by omega, .refl _ engine, stands⟩

/-- The next item is the one that follows there. -/
theorem Approaches.runs_nextItem {spare : Nat}
    (approaches : Approaches interpreter spare family opened tokens engine)
    {post : Option Item → Engine → Prop}
    (runs : ∀ target, Stands family [] opened tokens target → ∀ steps,
      Runs (nextItemWithin interpreter (steps + 1)) target post) :
    Runs (nextItem interpreter) engine post := by
  obtain ⟨rounds, target, fewer, advances, stands⟩ := approaches
  obtain ⟨steps, isLimit⟩ : ∃ steps, interpreter.limit = rounds + (steps + 1) :=
    ⟨interpreter.limit - rounds - 1, by omega⟩
  unfold nextItem Runs
  rw [isLimit, advances]
  exact runs target stands steps

/-- A loop that takes up characters into a node, and nodes of environments of the given
depth. -/
structure Takes (fuel : Nat) (start : Engine) (id : NodeId) (depth : Nat)
    (loop : Nat → TexM α) : Prop where
  character : ∀ {engine after : Engine} {token : Token},
    nextItem (Engine.interpreter fuel) engine = .ok (some (.token token)) after →
    token.category ≠ .endOfList → Filling start id after →
    Advances loop 1 engine
      { after with document := after.document.appendText id token.text }
  node : ∀ {engine after digested : Engine} {next : NodeId} {name : String}
    {position : Option Position},
    nextItem (Engine.interpreter fuel) engine = .ok (some (.node next)) after →
    after.document.node next = customNode name position depth →
    (customNode name position depth).isCloser = false →
    digest (Engine.interpreter fuel) next after = .ok () digested →
    Advances loop 1 engine
      { digested with document := digested.document.append id next }
  suits : ∀ {engine : Engine} {next : NodeId} {name : String} {position : Option Position},
    Filling start id engine → engine.document.node next = customNode name position depth →
    (customNode name position depth).isCloser = false → engine.document.Suits id next

/-- Where a loop is: the node holds what has been taken up, and these tokens are ahead. -/
structure Taking (fuel spare : Nat) (start : Engine) (id : NodeId) (taken : List Shape)
    (family : List Custom) (opened : List (NodeId × String)) (tokens : List Token)
    (engine : Engine) : Prop where
  holding : Holding .shape start id taken engine
  steady : engine.Steady
  approaches : Approaches (Engine.interpreter fuel) spare family opened tokens engine

/-! ## The two loops -/

theorem isCloser_customNode (notGroup : name ≠ "egroup" ∧ name ≠ "endgroup") :
    (customNode name position depth).isCloser = false := by
  simp [Node.isCloser, Node.closesGroup, customNode, Document.element, notGroup]

/-- An environment takes up the environments inside of it. -/
theorem reaction_customNode {name' : String} {position' : Option Position} {inner : Nat}
    (deep : depth ≤ inner) :
    (customNode name position depth).reaction (customNode name' position' inner) = .takeUp := by
  simp [Node.reaction, Node.isOutside, customNode, Document.element, Level.environment, Level.par,
    Level.document, Nat.not_lt.mpr deep]

/-- An environment ends at its own end. -/
theorem reaction_customEnd {inner : Nat} :
    (customNode name position depth).reaction (customEnd name inner) = .finish := by
  simp [Node.reaction, customNode, customEnd, Document.element, Level.environment, Level.par]

/-- The loop of an environment. -/
theorem takes_digestWithin {outer : Nat}
    (isNode : start.document.node id = customNode name position outer) (deep : outer ≤ depth) :
    Takes fuel start id depth fun steps =>
      digestWithin (Engine.interpreter (fuel + 1)) id (start.document.node id) steps false := by
  constructor
  · intro engine after token isItem plain filling steps
    have accepted : accepts after.document id token = true := by
      have isDigest := Node.digest_eq_of_traits_eq filling.traits
      simp [accepts, isDigest, isNode, customNode]
    have produced : (Engine.interpreter (fuel + 1)).run .nextItem engine =
        .ok (some (.token token)) after := isItem
    rw [Nat.add_comm 1 steps]
    beta_reduce
    rw [digestWithin]
    simp only [bind, EStateM.bind, produced, plain, if_false, get_run, accepted, if_true]
    rfl
  · intro engine after digested next name' position' isItem isNext opens digests steps
    have produced : (Engine.interpreter (fuel + 1)).run .nextItem engine =
        .ok (some (.node next)) after := isItem
    have isDigested : (Engine.interpreter (fuel + 1)).run (.digest next) after =
        .ok () digested := digests
    have reaction : (start.document.node id).reaction (after.document.node next) = .takeUp := by
      rw [isNode, isNext]
      exact reaction_customNode deep
    rw [Nat.add_comm 1 steps]
    beta_reduce
    rw [digestWithin]
    simp only [bind, EStateM.bind, produced, nodeOf, get_run, pure, EStateM.pure, reaction,
      isDigested]
    rfl
  · intro engine next name' position' filling isNext opens
    refine .inl ((Node.takes_congr filling.traits rfl).mpr (.inl ?_))
    rw [isNode, isNext]
    exact reaction_customNode deep

/-- The loop of the root. -/
theorem takes_digestRootWithin (idle : (start.document.node Document.root).digest = .nothing) :
    Takes fuel start Document.root depth
      (digestRootWithin (Engine.interpreter (fuel + 1))) := by
  constructor
  · intro engine after token isItem plain filling steps
    have produced : (Engine.interpreter (fuel + 1)).run .nextItem engine =
        .ok (some (.token token)) after := isItem
    rw [Nat.add_comm 1 steps, digestRootWithin]
    simp only [bind, EStateM.bind, produced, ne_eq, plain, not_false_eq_true, if_true]
    rfl
  · intro engine after digested next name position isItem isNext opens digests steps
    have produced : (Engine.interpreter (fuel + 1)).run .nextItem engine =
        .ok (some (.node next)) after := isItem
    have isDigested : (Engine.interpreter (fuel + 1)).run (.digest next) after =
        .ok () digested := digests
    rw [Node.isCloser, ← isNext] at opens
    rw [Nat.add_comm 1 steps, digestRootWithin]
    simp only [bind, EStateM.bind, produced, nodeOf, get_run, pure, EStateM.pure, opens,
      Bool.not_false, if_true, isDigested]
    rfl
  · intro engine next name position filling isNext opens
    rw [← isNext] at opens
    exact filling.suits_of_idle idle opens

/-! ## Texts -/

/-- Any loop takes up the tokens as so many items with the given shapes, whatever stands
behind them. -/
structure TakesUp (family : List Custom) (fuel spare : Nat) (opened : List (NodeId × String))
    (written : List Token) (items : Nat) (shapes : List Shape) : Prop where
  follow : ∀ {α : Type} {loop : Nat → TexM α} {start engine : Engine} {id : NodeId}
    {taken : List Shape} {tokens : List Token},
    Takes fuel start id (opened.length + 2) loop →
    Taking fuel spare start id taken family opened (written ++ tokens) engine →
    ∃ after, Advances loop items engine after ∧
      Taking fuel spare start id (taken ++ shapes) family opened tokens after

theorem sat_nextItem (steady : engine.Steady) (fuel : Nat) :
    Sat (nextItem (Engine.interpreter fuel)) engine engine.Produced :=
  (builds_interpreter (fuel + 1)).nextItem engine steady.waiting

namespace TakesUp

variable {written written' : List Token} {items items' : Nat} {shapes shapes' : List Shape}

theorem nil : TakesUp family fuel spare opened [] 0 [] := by
  constructor
  intro α loop start engine id taken tokens _ taking
  rw [List.nil_append] at taking
  exact ⟨engine, .refl loop engine, by rwa [List.append_nil]⟩

theorem append (one : TakesUp family fuel spare opened written items shapes)
    (two : TakesUp family fuel spare opened written' items' shapes') :
    TakesUp family fuel spare opened (written ++ written') (items + items')
      (shapes ++ shapes') := by
  constructor
  intro α loop start engine id taken tokens takes taking
  rw [List.append_assoc] at taking
  obtain ⟨between, first, taking⟩ := one.follow takes taking
  obtain ⟨after, second, taking⟩ := two.follow takes taking
  rw [List.append_assoc] at taking
  exact ⟨after, first.trans second, taking⟩

/-- A character that stands for itself. -/
theorem character {token : Token} (enough : spare < fuel) (plain : token.Plain) :
    TakesUp family fuel spare opened [token] 1 (Gauge.shape.spelled token.text) := by
  constructor
  intro α loop start engine id taken tokens takes taking
  have arrives := taking.approaches.runs_nextItem fun target stands steps =>
    stands.runs_character plain steps
  obtain ⟨_, after, isItem, ⟨_, rfl, given, rfl, same, stands⟩, produced⟩ :=
    arrives.sat (sat_nextItem taking.steady fuel)
  have isText : given.text = token.text := by
    have equal := congrArg Token.text same
    simpa using equal
  have isPlain : given.category ≠ .endOfList := by
    have isCategory : given.category = token.category := by
      have equal := congrArg Token.category same
      simpa using equal
    rw [isCategory]
    exact plain.ne_endOfList
  have held := taking.holding.produce produced
  have appended := held.appendText given.text
  rw [isText] at appended
  have standsBehind : Stands family [] opened tokens
      { after with document := after.document.appendText id token.text } :=
    stands.same rfl rfl rfl
  refine ⟨_, takes.character isItem isPlain held.filling, ?_⟩
  rw [isText]
  exact ⟨appended, appended.filling.waiting.steady stands.buffer, standsBehind.approaches enough⟩

/-- Characters of words and spaces. -/
theorem text (enough : spare < fuel)
    (isPlain : ∀ character ∈ characters, character ∈ Text.wordCharacters ∨ character = ' ') :
    TakesUp family fuel spare opened (characters.map Token.initial) characters.length
      (Shape.ofText characters) := by
  induction characters with
  | nil => exact nil
  | cons first rest ih =>
      have spelled : Gauge.shape.spelled (Token.initial first).text = [.character first] := by
        simp [Gauge.shape, Token.initial, Token.ofChar, Shape.ofText]
      have single : TakesUp family fuel spare opened _ 1 _ :=
        character enough (Token.initial_plain (isPlain first List.mem_cons_self))
      rw [spelled] at single
      rw [List.length_cons, Nat.add_comm]
      exact single.append (ih fun other member => isPlain other (List.mem_cons_of_mem _ member))

/-- A space, or nothing. -/
theorem gap (enough : spare < fuel) (isThere : Bool) :
    TakesUp family fuel spare opened ((Text.gap isThere).map Token.initial)
      (Text.gap isThere).length (Shape.ofText (Text.gap isThere)) :=
  text enough fun character member => .inr (Text.mem_gap character member)

/-- The letters of a code. -/
theorem code (enough : spare < fuel)
    (letters : ∀ letter ∈ characters, letter ∈ CategoryTable.asciiLetters) :
    TakesUp family fuel spare opened (characters.map Token.letter) characters.length
      (Shape.ofText characters) := by
  have same : characters.map Token.letter = characters.map Token.initial := by
    apply List.map_congr_left
    intro letter member
    rw [Token.initial, CategoryTable.category_letter (letters letter member)]
    rfl
  rw [same]
  exact text enough fun letter member => .inl (List.mem_append_left _ (letters letter member))

end TakesUp

/-! ## Pairs -/

/-- The end of an environment is passed over without an item. -/
theorem Taking.skip_end (known : environment ∈ family) (enough : 0 < fuel)
    (taking : Taking fuel (spare + 1) start id taken family ((next, environment.name) :: opened)
      (Input.named "end" environment.name ++ tokens) engine) :
    Taking fuel spare start id taken family ((next, environment.name) :: opened)
      (environment.closing.map Token.letter ++ customMarker environment.name :: tokens)
      engine := by
  obtain ⟨holding, steady, rounds, target, fewer, advances, stands⟩ := taking
  obtain ⟨less, rfl⟩ : ∃ less, fuel = less + 1 := Nat.exists_eq_add_one.mpr enough
  obtain ⟨behind, one, standsBehind⟩ := stands.skips_end (idles_interpreter less) known
  exact ⟨holding, steady, rounds + 1, behind, by omega, advances.trans one, standsBehind⟩

/-- The marker ends the loop of the environment. -/
theorem runs_marked
    (isNode : start.document.node id = customNode name position (opened.length + 2))
    (taking : Taking fuel spare start id taken family ((id, name) :: opened)
      (customMarker name :: tokens) engine)
    (steps : Nat) :
    Runs (digestWithin (Engine.interpreter (fuel + 1)) id (start.document.node id) (steps + 1)
        false) engine
      fun hasBreak last => hasBreak = false ∧ Holding .shape start id taken last ∧
        Stands family [] opened tokens last := by
  have arrives := taking.approaches.runs_nextItem fun target stands steps =>
    stands.runs_marker steps
  obtain ⟨_, last, isItem, ⟨_, rfl, node, rfl, stands, isEnd⟩, produced⟩ :=
    arrives.sat (sat_nextItem taking.steady fuel)
  have item : (Engine.interpreter (fuel + 1)).run .nextItem engine =
      .ok (some (.node node)) last := isItem
  have reaction : (start.document.node id).reaction (last.document.node node) = .finish := by
    rw [isNode, isEnd]
    exact reaction_customEnd
  unfold Runs
  rw [digestWithin]
  simp only [bind, EStateM.bind, item, nodeOf, get_run, pure, EStateM.pure, reaction]
  exact ⟨false, last, rfl, rfl, taking.holding.produce produced, stands⟩

variable {isSpacedInside : Bool} {content : Body}

/-- What the node of a pair takes up. -/
def pairShapes (environment : Custom) (isSpacedInside : Bool) (content : Body) : List Shape :=
  Shape.ofText environment.opening ++ (Shape.ofText (Text.gap isSpacedInside) ++ content.shapes) ++
    Shape.ofText environment.closing

/-- The loop of a pair takes up the code of the beginning, the content and the code of the
end. -/
theorem runs_inside (known : environment ∈ family)
    (entered : Entered family [] opened environment.name
      (environment.opening.map Token.letter ++
        ((Text.gap isSpacedInside).map Token.initial ++
          (content.tokens ++ (Input.named "end" environment.name ++ tokens)))) id engine)
    (steady : engine.Steady) (ready : engine.document.Ready id)
    (enough : environment.opening.length + (Text.gap isSpacedInside).length + content.items +
      environment.closing.length ≤ fuel) (more : 1 < fuel)
    (inside : TakesUp family fuel 1 ((id, environment.name) :: opened) content.tokens
      content.items content.shapes) :
    Runs (digestWithin (Engine.interpreter (fuel + 1)) id (engine.document.node id) (fuel + 1)
        false) engine
      fun hasBreak last => hasBreak = false ∧
        Holding .shape engine id (pairShapes environment isSpacedInside content) last ∧
        Stands family [] opened tokens last := by
  obtain ⟨stands, position, isNode⟩ := entered
  have childless : engine.document.children id = [] := by
    rw [Document.children, isNode]
    rfl
  have takes : Takes fuel engine id (opened.length + 3) fun steps =>
      digestWithin (Engine.interpreter (fuel + 1)) id (engine.document.node id) steps false :=
    takes_digestWithin isNode (by omega)
  have taking : Taking fuel 1 engine id [] family ((id, environment.name) :: opened) _ engine :=
    ⟨steady.holding ready.inside ready.free childless, steady, stands.approaches more⟩
  rw [← List.append_assoc, ← List.append_assoc] at taking
  have opening : TakesUp family fuel 1 ((id, environment.name) :: opened) _ _ _ :=
    .code more environment.mem_opening
  obtain ⟨_, untilEnd, taking⟩ :=
    ((opening.append (.gap more isSpacedInside)).append inside).follow takes taking
  have closing : TakesUp family fuel 0 ((id, environment.name) :: opened) _ _ _ :=
    .code (by omega) environment.mem_closing
  obtain ⟨behind, untilMarker, taking⟩ :=
    closing.follow takes (taking.skip_end known (by omega))
  obtain ⟨steps, isLimit⟩ : ∃ steps, fuel + 1 = environment.opening.length +
      (Text.gap isSpacedInside).length + content.items + environment.closing.length +
        (steps + 1) :=
    ⟨fuel - (environment.opening.length + (Text.gap isSpacedInside).length + content.items +
      environment.closing.length), by omega⟩
  have reached := (untilEnd.trans untilMarker) (steps + 1)
  beta_reduce at reached
  rw [← isLimit] at reached
  have runs := runs_marked isNode taking steps
  unfold Runs at runs ⊢
  rw [reached]
  simpa [pairShapes] using runs

/-- The node of a pair takes up what is expected of it. -/
theorem runs_digest_pair (known : environment ∈ family)
    (entered : Entered family [] opened environment.name
      (environment.opening.map Token.letter ++
        ((Text.gap isSpacedInside).map Token.initial ++
          (content.tokens ++ (Input.named "end" environment.name ++ tokens)))) id engine)
    (steady : engine.Steady) (ready : engine.document.Ready id)
    (enough : environment.opening.length + (Text.gap isSpacedInside).length + content.items +
      environment.closing.length ≤ fuel) (more : 1 < fuel)
    (inside : TakesUp family fuel 1 ((id, environment.name) :: opened) content.tokens
      content.items content.shapes) :
    Runs (digest (Engine.interpreter (fuel + 1)) id) engine fun _ last =>
      Stands family [] opened tokens last ∧
        last.document.gauged .shape id =
          [.element (Opening.environment environment.name).form
            (pairShapes environment isSpacedInside content)] := by
  obtain ⟨position, isNode⟩ := entered.node
  have isDigest : (engine.document.node id).digest = .environment := by
    rw [isNode]
    rfl
  unfold digest
  apply runs_nodeOf
  rw [if_neg (by rw [isDigest]; simp)]
  refine Runs.bind (runs_inside known entered steady ready enough more inside) ?_
  rintro _ last ⟨rfl, held, standsBehind⟩
  rw [isDigest]
  refine runs_pure ⟨standsBehind, ?_⟩
  have isForm : (last.document.node id).form = (Opening.environment environment.name).form := by
    have same := congrArg Node.form held.filling.traits
    exact same.trans (by rw [isNode]; rfl)
  have isElement : (last.document.node id).kind = .element :=
    held.kind.trans (by rw [isNode]; rfl)
  rw [held.filling.waiting.orderly.sound.gauged_element isElement, isForm, held.within]
  rfl

/-- A pair is one item, which holds what is expected of it. -/
theorem TakesUp.pair (known : environment ∈ family)
    (enough : environment.opening.length + (Text.gap isSpacedInside).length + content.items +
      environment.closing.length ≤ fuel) (more : 1 < fuel)
    (inside : ∀ next, TakesUp family fuel 1 ((next, environment.name) :: opened) content.tokens
      content.items content.shapes) :
    TakesUp family (fuel + 1) 1 opened
      ((Input.named "begin" environment.name ++ (Text.gap isSpacedInside).map Token.initial) ++
        (content.tokens ++ Input.named "end" environment.name)) 1
      [.element (Opening.environment environment.name).form
        (pairShapes environment isSpacedInside content)] := by
  constructor
  intro α loop start engine id taken tokens takes taking
  simp only [List.append_assoc] at taking
  have arrives := taking.approaches.runs_nextItem fun target stands steps =>
    stands.runs_begin (idles_interpreter fuel) known steps
  obtain ⟨_, after, isItem, ⟨_, rfl, next, rfl, entered⟩, produced⟩ :=
    arrives.sat (sat_nextItem taking.steady (fuel + 1))
  have held := taking.holding.produce produced
  have ready := produced.ready next rfl
  have new := taking.holding.filling.le_of_produced produced
  have steady := produced.grown.steady
  obtain ⟨position, isNode⟩ := entered.node
  have opens : (customNode environment.name position (opened.length + 2)).isCloser = false := by
    have others := entered.stands.base.ne_of_defined known
    exact isCloser_customNode ⟨others _ (by decide), others _ (by decide)⟩
  have digests : Sat (digest (Engine.interpreter (fuel + 1)) next) after fun _ last =>
      after.Digested next last := (builds_interpreter (fuel + 2)).digest after next steady ready
  obtain ⟨_, last, isDigested, ⟨standsBehind, gauged⟩, digested⟩ :=
    (runs_digest_pair known entered steady ready enough more (inside next)).sat digests
  have level : (last.document.node next).level ≠ Level.par := by
    rw [Node.level_eq_of_traits_eq (digested.ext.traits next ready.inside), isNode]
    simp [customNode, Document.element, Level.environment, Level.par]
  have suits := takes.suits held.filling isNode opens
  have appended := held.append ready new suits digested level
  rw [gauged] at appended
  have standsLast : Stands family [] opened tokens
      { last with document := last.document.append id next } := standsBehind.same rfl rfl rfl
  have steadyLast := appended.filling.waiting.steady standsBehind.buffer
  refine ⟨_, takes.node isItem isNode opens isDigested, appended, steadyLast, ?_⟩
  exact standsLast.approaches (show 1 < fuel + 1 by omega)

end Engine

/-! ## Bodies -/

open Engine

mutual

/-- A part has no more items than characters. -/
theorem Part.items_le : (part : Part) → part.items ≤ part.print.length
  | .word word isSpaced => Nat.le_refl _
  | .pair environment isSpacedInside content isSpaced => by
      simp only [Part.items, Part.print, Written.command, List.length_append, List.length_cons]
      omega

/-- A body has no more items than characters. -/
theorem Body.items_le : (body : Body) → body.items ≤ body.print.length
  | .done => Nat.le_refl 0
  | .part first rest => by
      rw [Body.items, Body.print, List.length_append]
      exact Nat.add_le_add first.items_le rest.items_le

end

variable {family : List Custom} {codes : Nat} {engine : Engine}

mutual

/-- A part is taken up as its shapes. -/
theorem Part.taken
    (short : ∀ custom ∈ family, custom.opening.length + custom.closing.length ≤ codes)
    {fuel : Nat} {opened : List (NodeId × String)} : (part : Part) → part.Uses family →
    part.print.length + codes + 2 ≤ fuel →
    TakesUp family fuel 1 opened part.tokens part.items part.shapes
  | .word word isSpaced, _, enough => by
      refine .text (by omega) ?_
      intro character member
      rcases List.mem_append.mp member with ofWord | ofGap
      · exact .inl (word.mem_wordCharacters character ofWord)
      · exact .inr (Text.mem_gap character ofGap)
  | .pair environment isSpacedInside content isSpaced, ⟨known, uses⟩, enough => by
      have fewer := content.items_le
      have bounded := short environment known
      simp only [Part.print, Written.command, List.length_append, List.length_cons] at enough
      obtain ⟨inner, rfl⟩ : ∃ inner, fuel = inner + 1 := Nat.exists_eq_add_one.mpr (by omega)
      have inside : ∀ next, TakesUp family inner 1 ((next, environment.name) :: opened)
          content.tokens content.items content.shapes :=
        fun next => content.taken short uses (by omega)
      have pair : TakesUp family (inner + 1) 1 opened
          ((Input.named "begin" environment.name ++ (Text.gap isSpacedInside).map Token.initial) ++
            (content.tokens ++ Input.named "end" environment.name)) 1
          [.element (Opening.environment environment.name).form
            (pairShapes environment isSpacedInside content)] :=
        .pair known (by omega) (by omega) inside
      have together := pair.append (.gap (by omega) isSpaced)
      simpa only [Part.tokens, Part.items, Part.shapes, pairShapes, List.append_assoc,
        List.singleton_append] using together

/-- A body is taken up as its shapes, whatever stands behind it. -/
theorem Body.taken
    (short : ∀ custom ∈ family, custom.opening.length + custom.closing.length ≤ codes)
    {fuel : Nat} {opened : List (NodeId × String)} : (body : Body) → body.Uses family →
    body.print.length + codes + 2 ≤ fuel →
    TakesUp family fuel 1 opened body.tokens body.items body.shapes
  | .done, _, _ => .nil
  | .part first rest, ⟨usesFirst, usesRest⟩, enough => by
      rw [Body.print, List.length_append] at enough
      have one : TakesUp family fuel 1 opened first.tokens first.items first.shapes :=
        first.taken short usesFirst (by omega)
      have two : TakesUp family fuel 1 opened rest.tokens rest.items rest.shapes :=
        rest.taken short usesRest (by omega)
      exact one.append two

end

/-! ## Sources -/

namespace Engine

/-- Nothing is bound to the names of environments that have no meaning. -/
theorem Stands.await {opened : List (NodeId × String)} {tokens : List Token}
    (stands : Stands [] [] opened tokens engine)
    (unbound : ∀ custom ∈ family, engine.scopes.command? custom.name = none) :
    Stands [] family opened tokens engine := by
  refine ⟨stands.ahead, stands.inner, ?_, stands.buffer⟩
  refine ⟨stands.base.categories, stands.base.aliases, stands.base.commands, by simp, ?_⟩
  intro custom member
  rw [← stands.command?, unbound custom member]

/-- At the beginning of a source, no environment has been defined. -/
theorem stands_fresh (settings : Settings) (files : Files) (date : Date) {source : String}
    {tokens : List Token}
    (ahead : (Reader.ofText source "<string>").ahead .initial = tokens.map Token.bare) :
    Stands [] [] [] tokens ((fresh settings files date .empty).withText source) := by
  obtain ⟨reading, _⟩ := (begins_fresh settings files date).withText ahead
  have started := (idle_fresh settings files date).withText source
  refine ⟨reading.ahead, reading.inner, ?_, started.buffer⟩
  refine ⟨reading.base.categories, reading.base.aliases, ?_, by simp, by simp⟩
  have notDate : ∀ name ∈ Builtin.structureNames, ∀ part ∈ ["year", "month", "day"],
      part ≠ name := by decide
  intro name member
  exact BuiltIn.fresh settings files date (Builtin.ne_of_mem_structureNames member)
    (notDate name member)

/-- The root takes up a body behind the definitions of its environments. -/
theorem runs_digestRoot_body (idle : engine.Idle) (distinct : (family.map Custom.name).Nodup)
    (short : ∀ custom ∈ family, custom.opening.length + custom.closing.length ≤ codes)
    {body : Body} (uses : body.Uses family)
    (stands : Stands [] family [] (family.flatMap Custom.tokens ++ body.tokens) engine)
    {fuel : Nat} (enough : body.print.length + family.length + codes + 3 ≤ fuel) :
    Runs (digestRoot (Engine.interpreter fuel)) engine fun _ =>
      Holding .shape engine Document.root body.shapes := by
  obtain ⟨less, rfl⟩ : ∃ less, fuel = less + 1 + 1 := ⟨fuel - 2, by omega⟩
  obtain ⟨defined, advances, standsDefined⟩ :=
    stands.skips_definitions (idles_interpreter less) family distinct
  rw [List.append_nil] at standsDefined
  have fewer : family.length + 1 < less + 1 := by omega
  have taking : Taking (less + 1) 1 engine Document.root [] family [] (body.tokens ++ [])
      engine := by
    rw [List.append_nil]
    exact ⟨idle.holding .shape, idle.steady, family.length, defined, fewer, advances, standsDefined⟩
  obtain ⟨after, untilEnd, taken⟩ :=
    (body.taken short uses (by omega)).follow (takes_digestRootWithin idle.digest_root)
      taking
  have few := body.items_le
  obtain ⟨steps, isLimit⟩ : ∃ steps, less + 1 + 1 = body.items + (steps + 1) :=
    ⟨less + 1 - body.items, by omega⟩
  have nothing := taken.approaches.runs_nextItem fun target stands steps =>
    stands.runs_nextItemWithin_nil steps
  obtain ⟨_, last, isItem, rfl, produced⟩ := nothing.sat (sat_nextItem taken.steady (less + 1))
  have item : (Engine.interpreter (less + 1 + 1)).run .nextItem after = .ok none last := isItem
  have reached := untilEnd (steps + 1)
  rw [← isLimit] at reached
  unfold digestRoot Runs
  change ∃ result final, digestRootWithin _ (less + 1 + 1) engine = _ ∧ _
  rw [reached, digestRootWithin]
  simp only [bind, EStateM.bind, item]
  exact ⟨(), last, rfl, taken.holding.produce produced⟩

end Engine

end TexTree
