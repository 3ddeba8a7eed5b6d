import TexTree.Proofs.Engine.Opened

/-!
# Digestion mirrors the nesting

In a flow without breaks, declarations, items and headings nothing ends early: a node
takes up exactly what stands between what opens it and what closes it, and the flow goes
on behind it (`Mirrors`).  Therefore the tree below the root is that of the source
(`parse_mirrored`).
-/

namespace TexTree

namespace Engine

variable {β : Type} {gauge : Gauge β} {stack : Openings β} {frames : List Frame} {frame : Frame}
  {content inside after taken : List β} {size bound : Nat} {engine start : Engine}
  {interpreter : Interpreter} {id parent : NodeId} {opening : Opening}

/-! ## Loops -/

/-- A node takes up another one, which digests before. -/
theorem Holding.takeUp (builds : interpreter.Builds) (mirrors : Mirrors gauge interpreter bound)
    (short : size ≤ bound) (holding : Holding gauge start parent taken engine)
    (steady : engine.Steady) (ready : engine.document.Ready id) (new : start.document.size ≤ id)
    (suits : engine.document.Suits parent id)
    (arrives : Arrives gauge false stack frames content size (some (.node id)) engine)
    (opens : (engine.document.node id).isCloser = false) {α : Type} {next : TexM α}
    {post : α → Engine → Prop}
    (continues : ∀ (own rest : List β) (less : Nat) (last : Engine), own ++ rest = content →
      less < size → Holding gauge start parent (taken ++ own) last → last.Steady →
      Following gauge false stack frames rest less last → Runs next last post) :
    Runs (do
      interpreter.run (.digest id)
      appendNode parent id
      next) engine post := by
  refine ((mirrors.digest short steady ready arrives opens).sat
    (builds.digest engine id steady ready)).bind ?_
  rintro _ digested ⟨isTaken, isDigested⟩
  cases isTaken with
  | intro level empty following shorter =>
      have held := holding.append ready new suits isDigested level
      apply runs_modify_bind
      exact continues _ _ _ _ rfl shorter held (held.filling.waiting.steady empty)
        (following.same rfl rfl rfl)

/-- A node takes up what it encloses, up to what closes it. -/
theorem Mirrors.runs_digestWithin (builds : interpreter.Builds)
    (mirrors : Mirrors gauge interpreter bound)
    (opened : Opened opening stack (start.document.node id)) (steps : Nat) (short : size ≤ bound)
    (enough : size < steps) (holding : Holding gauge start id taken engine)
    (steady : engine.Steady)
    (following : Following gauge false ((opening, after) :: stack) (frame :: frames) inside size
      engine) :
    Runs (digestWithin interpreter id (start.document.node id) steps false) engine
      fun hasBreak last => hasBreak = false ∧ Holding gauge start id (taken ++ inside) last ∧
        last.buffer = [] ∧ ∃ less, Following gauge false stack frames after less last ∧
          less < size := by
  induction steps generalizing engine taken inside size with
  | zero => exact absurd enough (Nat.not_lt_zero size)
  | succ steps ih =>
      unfold digestWithin
      refine ((mirrors.nextItem short steady following).sat
        (builds.nextItem engine steady.waiting)).bind ?_
      rintro item last ⟨arrives, produced⟩
      have held := holding.produce produced
      replace steady := produced.grown.steady
      rcases item with _ | token | next
      · cases arrives
      · cases arrives with
        | @character _ _ later _ less _ _ plain followingBehind shorter =>
            have accepted : accepts last.document id token = true := by
              have isDigest := Node.digest_eq_of_traits_eq held.filling.traits
              have notItem : opening.digest ≠ .item := by
                cases opening <;> simp [Opening.digest]
              simp [accepts, isDigest, opened.digest, notItem]
            have appended := held.appendText token.text
            simp only [plain.ne_endOfList, if_false]
            apply runs_get
            simp only [accepted, if_true]
            apply runs_modify_bind
            refine (ih (by omega) (by omega) appended
              (appended.filling.waiting.steady steady.buffer)
              (followingBehind.same rfl rfl rfl)).mono ?_
            rintro hasBreak final ⟨noBreak, isHeld, empty, fewer, goesOn, isLess⟩
            rw [List.append_assoc] at isHeld
            exact ⟨noBreak, isHeld, empty, fewer, goesOn, by omega⟩
        | marker => exact absurd rfl opened.notArgument
      · have new := holding.filling.le_of_produced produced
        apply runs_nodeOf
        rcases arrives.inner_or_closes with
          inner | ⟨_, _, _, _, _, isStack, isFrames, rfl, _, closes⟩
        · have reaction := opened.reaction_takeUp inner
          have suits : last.document.Suits id next :=
            .inl ((Node.takes_congr held.filling.traits rfl).mpr (.inl reaction))
          rw [reaction]
          apply held.takeUp builds mirrors short steady (produced.ready next rfl) new suits arrives
            inner.opens
          rintro own rest less final rfl isLess isHeld isSteady goesOn
          refine (ih (by omega) (by omega) isHeld isSteady goesOn).mono ?_
          rintro hasBreak done ⟨noBreak, isDone, empty, fewer, behind, isFewer⟩
          rw [List.append_assoc] at isDone
          exact ⟨noBreak, isDone, empty, fewer, behind, by omega⟩
        · obtain ⟨sameEntry, rfl⟩ := List.cons_eq_cons.mp isStack
          obtain ⟨rfl, rfl⟩ := Prod.mk.inj sameEntry
          obtain ⟨_, rfl⟩ := List.cons_eq_cons.mp isFrames
          rw [opening.reaction_finish opened.digest opened.form opened.level opened.notArgument
            closes.form closes.level, List.append_nil]
          exact runs_pure ⟨rfl, held, steady.buffer, closes.following⟩

/-- A node that has opened something digests, and it contributes what it encloses. -/
theorem Mirrors.runs_digest (builds : interpreter.Builds) (mirrors : Mirrors gauge interpreter size)
    (enough : size < interpreter.limit) (steady : engine.Steady)
    (opened : Opened opening stack (engine.document.node id))
    (isElement : (engine.document.node id).kind = .element)
    (holding : Holding gauge engine id [] engine)
    (following : Following gauge false ((opening, after) :: stack) (frame :: frames) inside size
      engine) :
    Runs (Engine.digest interpreter id) engine fun _ =>
      Taken gauge stack frames id (gauge.element opening.form inside ++ after) size := by
  unfold Engine.digest
  apply runs_nodeOf
  rw [if_neg opened.takes]
  refine (Mirrors.runs_digestWithin builds mirrors opened interpreter.limit (Nat.le_refl _) enough
    holding steady following).bind ?_
  rintro _ last ⟨rfl, held, empty, behind, followingBehind, fewer⟩
  have traits := held.filling.traits
  have taken : Taken gauge stack frames id (gauge.element opening.form inside ++ after) size
      last := by
    have isForm : (last.document.node id).form = opening.form := by
      have same := congrArg Node.form traits
      exact same.trans opened.form
    have gauged : last.document.gauged gauge id =
        gauge.element (last.document.node id).form (last.document.within gauge id) :=
      held.filling.waiting.orderly.sound.gauged_element (held.kind.trans isElement)
    rw [isForm, held.within, List.nil_append] at gauged
    rw [← gauged]
    refine .intro ?_ empty followingBehind fewer
    rw [Node.level_eq_of_traits_eq traits]
    exact opened.level_ne_par
  rw [opened.digest]
  cases opening with
  | argument => exact absurd rfl opened.notArgument
  | environment _ | formula => exact runs_pure taken
  | group =>
      -- No paragraph break was taken up, so that there is nothing to regroup.
      have unbroken := held.unbroken (by rw [opened.digest]; simp [Opening.digest])
      refine runs_modify ?_
      beta_reduce
      rw [unbroken.paragraphs]
      exact taken

/-- A node that has arrived and closes nothing digests what it encloses. -/
theorem runs_digest_mirrored (builds : interpreter.Builds)
    (mirrors : ∀ less < bound, Mirrors gauge interpreter less) (short : size ≤ bound)
    (enough : bound ≤ interpreter.limit) (steady : engine.Steady)
    (ready : engine.document.Ready id)
    (arrives : Arrives gauge false stack frames content size (some (.node id)) engine)
    (opens : (engine.document.node id).isCloser = false) :
    Runs (digest interpreter id) engine fun _ => Taken gauge stack frames id content size := by
  cases arrives with
  | @opened _ _ _ _ _ _ less _ _ opening _ form digest level depth childless delivered notArgument
      shorter =>
      have opened : Opened opening stack (engine.document.node id) :=
        ⟨delivered.form.trans form, delivered.digest.trans digest, delivered.level.trans level,
          delivered.depth.trans depth, notArgument⟩
      have holding : Holding gauge engine id [] engine := by
        refine ⟨⟨steady.filling ready.inside ready.free, rfl, delivered.within⟩, ?_⟩
        intro notEnvironment child member
        have isGroup : opening = .group := by
          cases opening with
          | group => rfl
          | argument => exact absurd rfl notArgument
          | environment _ | formula => exact absurd opened.digest notEnvironment
        rw [childless isGroup] at member
        cases member
      refine (Mirrors.runs_digest builds (mirrors less (by omega)) (by omega) steady opened
        delivered.kind holding delivered.following).mono ?_
      intro _ last taken
      exact taken.weaken (Nat.le_of_lt shorter)
  | closed form level notArgument delivered shorter =>
      have closes := Opening.isCloser_of_closer notArgument (delivered.form.trans form)
      rw [opens] at closes
      cases closes
  | enclosed known form digest level depth delivered shorter =>
      have gauged : engine.document.gauged gauge id =
          gauge.element (engine.document.node id).form (engine.document.within gauge id) :=
        steady.orderly.sound.gauged_element delivered.kind
      rw [delivered.form.trans form, delivered.within] at gauged
      unfold Engine.digest
      apply runs_nodeOf
      rw [delivered.digest.trans digest, if_pos rfl, ← gauged]
      refine runs_pure (.intro ?_ steady.buffer delivered.following shorter)
      rw [delivered.level.trans level]
      simp [Level.command, Level.par]
  | passed isLoose => cases isLoose

/-- A fragment takes up everything before its marker. -/
theorem Mirrors.runs_digestUntilWithin (builds : interpreter.Builds)
    (mirrors : Mirrors gauge interpreter bound)
    (idle : (start.document.node parent).digest = .nothing) (steps : Nat) (short : size ≤ bound)
    (enough : size < steps) (holding : Holding gauge start parent taken engine)
    (steady : engine.Steady)
    (following : Following gauge false ((.argument, after) :: stack) (frame :: frames) content size
      engine) :
    Runs (digestUntilWithin interpreter parent "arg" steps) engine fun _ last =>
      last.document.within gauge parent = taken ++ content ∧
        last.mathStack = formulasIn stack ∧
        ∃ tokens, (Flow gauge false stack tokens after ∧ tokens.length < size) ∧
          Reading (frame :: frames) tokens last := by
  induction steps generalizing engine taken content size with
  | zero => exact absurd enough (Nat.not_lt_zero size)
  | succ steps ih =>
      unfold digestUntilWithin
      refine ((mirrors.nextItem short steady following).sat
        (builds.nextItem engine steady.waiting)).bind ?_
      rintro item last ⟨arrives, produced⟩
      have held := holding.produce produced
      replace steady := produced.grown.steady
      rcases item with _ | token | next
      · cases arrives
      · cases arrives with
        | @character _ _ later _ less _ _ plain followingBehind shorter =>
            have appended := held.appendText token.text
            simp only [plain.ne_endOfList, if_false]
            apply runs_modify_bind
            refine (ih (by omega) (by omega) appended
              (appended.filling.waiting.steady steady.buffer)
              (followingBehind.same rfl rfl rfl)).mono ?_
            rintro _ final ⟨isContent, formulas, tokens, ⟨flow, fewer⟩, reading⟩
            rw [List.append_assoc] at isContent
            exact ⟨isContent, formulas, tokens, ⟨flow, by omega⟩, reading⟩
        | @marker _ _ _ _ _ _ tokens _ isMarker reading framed flow formulas shorter =>
            have isEnd : token.category = .endOfList := category_of_bare isMarker
            have isArgument : token.text = "arg" := congrArg Token.text isMarker
            simp only [isEnd, isArgument, if_true, BEq.rfl]
            refine runs_pure ⟨?_, formulas, tokens, ⟨flow, shorter⟩, reading⟩
            rw [held.within, List.append_nil]
      · have new := holding.filling.le_of_produced produced
        rcases arrives.inner_or_closes with
          inner | ⟨_, _, _, _, _, isStack, _, _, notArgument, _⟩
        · have suits := held.filling.suits_of_idle idle inner.opens
          have opens := inner.opens
          rw [Node.isCloser] at opens
          apply runs_nodeOf
          simp only [opens, Bool.not_false, if_true]
          apply held.takeUp builds mirrors short steady (produced.ready next rfl) new suits arrives
            inner.opens
          rintro own rest less final rfl isLess isHeld isSteady goesOn
          refine (ih (by omega) (by omega) isHeld isSteady goesOn).mono ?_
          rintro _ done ⟨isContent, formulas, tokens, ⟨flow, fewer⟩, reading⟩
          rw [List.append_assoc] at isContent
          exact ⟨isContent, formulas, tokens, ⟨flow, by omega⟩, reading⟩
        · obtain ⟨sameEntry, _⟩ := List.cons_eq_cons.mp isStack
          exact absurd (congrArg Prod.fst sameEntry).symm notArgument

/-- The root takes up everything. -/
theorem Mirrors.runs_digestRootWithin (builds : interpreter.Builds)
    (mirrors : Mirrors gauge interpreter bound)
    (idle : (start.document.node Document.root).digest = .nothing) (steps : Nat)
    (short : size ≤ bound) (enough : size < steps)
    (holding : Holding gauge start Document.root taken engine) (steady : engine.Steady)
    (following : Following gauge false [] [] content size engine) :
    Runs (digestRootWithin interpreter steps) engine fun _ =>
      Holding gauge start Document.root (taken ++ content) := by
  induction steps generalizing engine taken content size with
  | zero => exact absurd enough (Nat.not_lt_zero size)
  | succ steps ih =>
      unfold digestRootWithin
      refine ((mirrors.nextItem short steady following).sat
        (builds.nextItem engine steady.waiting)).bind ?_
      rintro item last ⟨arrives, produced⟩
      have held := holding.produce produced
      replace steady := produced.grown.steady
      rcases item with _ | token | next
      · cases arrives
        rw [List.append_nil]
        exact runs_pure held
      · cases arrives with
        | @character _ _ later _ less _ _ plain followingBehind shorter =>
            have appended := held.appendText token.text
            simp only [plain.ne_endOfList, ne_eq, not_false_eq_true, if_true]
            apply runs_modify_bind
            rw [← List.append_assoc]
            exact ih (by omega) (by omega) appended
              (appended.filling.waiting.steady steady.buffer)
              (followingBehind.same rfl rfl rfl)
      · have new := holding.filling.le_of_produced produced
        rcases arrives.inner_or_closes with inner | ⟨_, _, _, _, _, isStack, _⟩
        · have suits := held.filling.suits_of_idle idle inner.opens
          have opens := inner.opens
          rw [Node.isCloser] at opens
          apply runs_nodeOf
          simp only [opens, Bool.not_false, if_true]
          apply held.takeUp builds mirrors short steady (produced.ready next rfl) new suits arrives
            inner.opens
          rintro own rest less final rfl isLess isHeld isSteady goesOn
          rw [← List.append_assoc]
          exact ih (by omega) (by omega) isHeld isSteady goesOn
        · cases isStack

/-! ## All tasks -/

/-- An argument is interpreted with all its content. -/
theorem Mirrors.readsArguments (builds : interpreter.Builds) {count : Nat}
    (mirrors : ∀ length < count, Mirrors gauge interpreter length)
    (enough : count ≤ interpreter.limit) : ReadsArguments gauge false interpreter count := by
  apply readsArguments_of_fragmented
  intro stack content after frames start engine fragment length short fragmented
  obtain ⟨frame, outside, rfl, _, _⟩ := fragmented.following.framed.exists_cons
  have filling := fragmented.filling
  have idle : (engine.document.node fragment).digest = .nothing :=
    (Node.digest_eq_of_traits_eq filling.traits).trans fragmented.idle
  have holding : Holding gauge engine fragment [] engine :=
    fragmented.steady.holding filling.inside filling.free fragmented.childless
  exact Mirrors.runs_digestUntilWithin builds (mirrors length short) idle _ (Nat.le_refl _)
    (by omega) holding fragmented.steady fragmented.following

/-- Enough tasks inside of each other mirror a flow, by induction on their number. -/
theorem mirrors_interpreter (gauge : Gauge β) (fuel bound : Nat) (enough : bound + 2 ≤ fuel) :
    Mirrors gauge (Engine.interpreter fuel) bound := by
  induction fuel generalizing bound with
  | zero => exact absurd enough (Nat.not_succ_le_zero _)
  | succ fuel ih =>
      have builds := builds_interpreter fuel
      have mirrors : ∀ less < bound, Mirrors gauge (Engine.interpreter fuel) less :=
        fun less isLess => ih less (by omega)
      obtain ⟨fewer, rfl⟩ : ∃ fewer, fuel = fewer + 1 := Nat.exists_eq_add_one.mpr (by omega)
      constructor
      · intro stack frames content size engine short steady following
        have reads : ReadsArguments gauge false (Engine.interpreter (fewer + 1)) size := by
          apply Mirrors.readsArguments builds
          · intro length smaller
            exact mirrors length (by omega)
          · change size ≤ fewer + 1
            omega
        exact following.runs_nextItem builds (idles_interpreter fewer) (Nat.succ_pos fewer) reads
          (by simp) steady
      · intro stack frames content size engine id short steady ready arrives opens
        refine runs_digest_mirrored builds mirrors short ?_ steady ready arrives opens
        change bound ≤ fewer + 1
        omega

/-- The root of an empty document holds nothing. -/
theorem Idle.holding (gauge : Gauge β) (idle : engine.Idle) :
    Holding gauge engine Document.root [] engine := by
  refine idle.steady.holding idle.fill.inside idle.fill.free ?_
  rw [idle.document]
  rfl

/-- The root mirrors a source. -/
theorem runs_digestRoot_mirrored {tokens : List Token} (idle : engine.Idle)
    (reading : Reading [] tokens engine) (formulas : engine.mathStack = [])
    (flow : Flow gauge false [] tokens content) {fuel : Nat}
    (enough : tokens.length + 2 ≤ fuel) :
    Runs (digestRoot (Engine.interpreter fuel)) engine fun _ =>
      Holding gauge engine Document.root content := by
  refine Mirrors.runs_digestRootWithin (builds_interpreter fuel)
    (mirrors_interpreter gauge fuel _ enough) idle.digest_root _ (Nat.le_refl _) ?_
    (idle.holding gauge) idle.steady ⟨⟨tokens, reading, flow, rfl⟩, .nil, formulas⟩
  change _ < fuel
  omega

/-- A source is parsed if its items fill the root, and its document holds what the root
does. -/
theorem parse_held (idle : engine.Idle) {source : String} {fuel : Nat}
    (runs : Runs (digestRoot (Engine.interpreter fuel)) (engine.withText source) fun _ =>
      Holding gauge (engine.withText source) Document.root content) :
    ∃ document after, parseTextWithin fuel source engine = .ok document after ∧
      document.Sound ∧ (document.node Document.root).kind = .document ∧
      document.within gauge Document.root = content := by
  have started := idle.withText source
  obtain ⟨done, after, parses, held⟩ := runs_parse runs
  have notEnvironment : ((engine.withText source).document.node Document.root).digest ≠
      .environment := by
    rw [started.digest_root]
    simp
  have kept : done.complete.1 = done.document := (held.unbroken notEnvironment).paragraphs
  refine ⟨_, after, parses, ?_⟩
  rw [kept]
  refine ⟨held.filling.waiting.orderly.sound, held.kind.trans ?_, held.within⟩
  rw [started.document]
  rfl

/-- A source is parsed, and its document is that of the flow. -/
theorem parse_mirrored (idle : engine.Idle) (begins : engine.Begins) {source : String}
    {tokens : List Token} (ahead : (Reader.ofText source "<string>").ahead .initial = tokens)
    (flow : Flow gauge false [] tokens content) {fuel : Nat}
    (enough : tokens.length + 2 ≤ fuel) :
    ∃ document after, parseTextWithin fuel source engine = .ok document after ∧
      document.Sound ∧ (document.node Document.root).kind = .document ∧
      document.within gauge Document.root = content := by
  obtain ⟨reading, formulas⟩ := begins.withText ahead
  exact parse_held idle
    (runs_digestRoot_mirrored (idle.withText source) reading formulas flow enough)

end Engine

end TexTree
