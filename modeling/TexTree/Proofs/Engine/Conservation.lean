import TexTree.Proofs.Engine.Beginning
import TexTree.Proofs.Engine.Conserving

/-!
# Digestion keeps the visible text

Fragments and the root take up everything up to their end, with its text.  All tasks of
the interpreter keep the text by induction on the number of tasks inside of each other
(`conserves_interpreter`), and so does the parse of a source (`parse_visible`).
-/

namespace TexTree.Engine

variable {base : Openings Char} {frames : List Frame} {text : List Char} {size : Nat}
  {engine : Engine} {interpreter : Interpreter}

/-! ## Fragments and the root -/

/-- A node that is taken up brings its text along, and one that closes something has none. -/
theorem Filling.runs_takeUp (builds : interpreter.Builds) {bound : Nat}
    (keeps : KeepsText interpreter bound) (bounded : Bounded base) {start : Engine}
    {parent id : NodeId} (idle : (start.document.node parent).digest = .nothing)
    (filling : Filling start parent engine) {after : Engine}
    (produced : engine.Produced (some (.node id)) after)
    (isElement : (after.document.node id).kind = .element)
    (closes : (after.document.node id).isCloser = true →
      after.document.within .visible id = [])
    {later : List Char} (short : size ≤ bound) (ahead : Ahead base frames later size after)
    {α : Type} {next : TexM α} {post : α → Engine → Prop}
    (continues : ∀ (last : Engine) (rest : List Char), Filling start parent last →
      Outstanding base frames rest size last →
      (last.document.node parent).kind = (after.document.node parent).kind →
      last.document.within .visible parent ++ rest =
        after.document.within .visible parent ++
          (after.document.within .visible id ++ later) → Runs next last post) :
    Runs (do
      let node ← nodeOf id
      if !(node.mode == .closing || node.closesGroup) then
        interpreter.run (.digest id)
        appendNode parent id
      next) after post := by
  have filled := filling.produce produced
  have steady := produced.grown.steady
  have ready := produced.ready id rfl
  have new := filling.le_of_produced produced
  apply runs_nodeOf
  dsimp only
  split
  · next opens =>
      have isOpen : (after.document.node id).isCloser = false := by
        simpa [Node.isCloser] using opens
      refine ((keeps bounded short steady ready (ahead.outstanding steady.buffer)).sat
        (builds.digest after id steady ready)).bind ?_
      rintro _ digested ⟨⟨sameKind, rest, outstanding, kept⟩, isDigested⟩
      apply runs_modify_bind
      refine continues _ rest
        (filled.digestAndAppend new ready (filled.suits_of_idle idle isOpen) isDigested)
        (filled.outstanding_append new isDigested outstanding)
        (filled.kind_append new isDigested) ?_
      rw [filled.visible_append ready new isDigested (sameKind.trans isElement),
        List.append_assoc, kept]
  · next isCloser =>
      have closed : (after.document.node id).isCloser = true := by
        simpa [Node.isCloser, Decidable.or_iff_not_imp_left] using isCloser
      refine continues after later filled (ahead.outstanding steady.buffer) rfl ?_
      rw [closes closed, List.nil_append]

/-- A fragment is filled with the text up to its marker. -/
theorem runs_digestUntilWithin (builds : interpreter.Builds) {bound : Nat}
    (gives : GivesItems interpreter bound) (keeps : ∀ less < bound, KeepsText interpreter less)
    {outer : Openings Char} {frame : Frame} {outside : List Frame} {behind : List Char}
    {start : Engine} {parent : NodeId} (steps : Nat)
    (idle : (start.document.node parent).digest = .nothing) (short : size ≤ bound)
    (enough : size < steps) (filling : Filling start parent engine)
    (outstanding : Outstanding ((.argument, behind) :: outer) (frame :: outside) text size
      engine) :
    Runs (digestUntilWithin interpreter parent "arg" steps) engine fun _ after =>
      after.document.within .visible parent =
          engine.document.within .visible parent ++ text ∧
        after.mathStack = formulasIn outer ∧
        ∃ tokens, (Flow .visible true outer tokens behind ∧ 2 * tokens.length + 2 ≤ size) ∧
          Reading (frame :: outside) tokens after := by
  have bounded : Bounded ((.argument, behind) :: outer) := by simp [Bounded]
  induction steps generalizing engine text size with
  | zero => exact absurd enough (Nat.not_lt_zero size)
  | succ steps ih =>
      unfold digestUntilWithin
      refine ((gives bounded short filling.waiting outstanding).sat
        (builds.nextItem engine filling.waiting)).bind ?_
      rintro item after ⟨given, produced⟩
      have filled := filling.produce produced
      have steady := produced.grown.steady
      rw [← filling.within_produced produced]
      cases given with
      | ended isBase => cases isBase
      | @character later _ less token _ plain ahead shorter =>
          simp only [plain.ne_endOfList, if_false]
          apply runs_modify_bind
          have stillAhead : Outstanding ((.argument, behind) :: outer) (frame :: outside) later
              less { after with document := after.document.appendText parent token.text } := by
            refine Ahead.outstanding ?_ steady.buffer
            exact ahead.same rfl rfl rfl
          refine (ih (by omega) (by omega) (filled.appendText token.text) stillAhead).mono ?_
          rintro _ final ⟨isText, formulas, tokens, ⟨flow, fewer⟩, reading⟩
          refine ⟨?_, formulas, tokens, ⟨flow, by omega⟩, reading⟩
          rw [isText, steady.orderly.sound.within_appendText filled.inside filled.free,
            List.append_assoc]
          rfl
      | @marker _ _ _ _ _ token tokens _ isBase isFrames isMarker reading framed flow formulas
            shorter =>
          obtain ⟨sameEntry, rfl⟩ := List.cons_eq_cons.mp isBase
          obtain rfl : behind = _ := congrArg Prod.snd sameEntry
          obtain ⟨rfl, rfl⟩ := List.cons_eq_cons.mp isFrames
          have isEnd : token.category = .endOfList := category_of_bare isMarker
          have isArgument : token.text = "arg" := congrArg Token.text isMarker
          simp only [isEnd, isArgument, if_true, BEq.rfl]
          exact runs_pure ⟨by rw [List.append_nil], formulas, tokens, ⟨flow, shorter⟩, reading⟩
      | node isElement closes ahead shorter =>
          have isLess := Nat.lt_of_lt_of_le shorter short
          apply filling.runs_takeUp builds (keeps _ isLess) bounded idle produced isElement closes
            (Nat.le_refl _) ahead
          intro last rest filled outstanding _ kept
          refine (ih (by omega) (by omega) filled outstanding).mono ?_
          rintro _ final ⟨isText, formulas, tokens, ⟨flow, fewer⟩, reading⟩
          exact ⟨isText.trans kept, formulas, tokens, ⟨flow, by omega⟩, reading⟩

/-- An argument is interpreted with all its text. -/
theorem readsArguments (builds : interpreter.Builds) {count : Nat}
    (gives : ∀ size < 2 * count - 1, GivesItems interpreter size)
    (keeps : ∀ size < 2 * count - 1, ∀ less < size, KeepsText interpreter less)
    (enough : 2 * count ≤ interpreter.limit + 1) :
    ReadsArguments .visible true interpreter count := by
  apply readsArguments_of_fragmented
  intro stack content after frames start engine fragment length short fragmented
  obtain ⟨frame, outside, rfl, _, _⟩ := fragmented.following.framed.exists_cons
  have outstanding : Outstanding ((.argument, after) :: stack) (frame :: outside) content
      (2 * length) engine :=
    Ahead.outstanding ⟨[], [], content, length, by simp, rfl, fragmented.following, by simp,
      Nat.le_refl _⟩ fragmented.steady.buffer
  refine (runs_digestUntilWithin builds (gives _ (by omega)) (keeps _ (by omega)) _
    fragmented.idle (Nat.le_refl _) (by omega) fragmented.filling outstanding).mono ?_
  rintro _ last ⟨isText, formulas, tokens, ⟨flow, fewer⟩, reading⟩
  rw [Document.within_of_childless fragmented.childless, List.nil_append] at isText
  exact ⟨isText, formulas, tokens, ⟨flow, by omega⟩, reading⟩

/-- The root is filled with the text up to the end. -/
theorem runs_digestRootWithin (builds : interpreter.Builds) {bound : Nat}
    (gives : GivesItems interpreter bound) (keeps : ∀ less < bound, KeepsText interpreter less)
    {start : Engine} (steps : Nat)
    (idle : (start.document.node Document.root).digest = .nothing) (short : size ≤ bound)
    (enough : size < steps) (filling : Filling start Document.root engine)
    (outstanding : Outstanding [] [] text size engine) :
    Runs (digestRootWithin interpreter steps) engine fun _ after =>
      (after.document.node Document.root).kind = (engine.document.node Document.root).kind ∧
        after.document.within .visible Document.root =
          engine.document.within .visible Document.root ++ text := by
  have bounded : Bounded [] := by simp [Bounded]
  induction steps generalizing engine text size with
  | zero => exact absurd enough (Nat.not_lt_zero size)
  | succ steps ih =>
      unfold digestRootWithin
      refine ((gives bounded short filling.waiting outstanding).sat
        (builds.nextItem engine filling.waiting)).bind ?_
      rintro item after ⟨given, produced⟩
      have filled := filling.produce produced
      have steady := produced.grown.steady
      rw [← filling.kind_produced produced, ← filling.within_produced produced]
      cases given with
      | ended => exact runs_pure ⟨rfl, by rw [List.append_nil]⟩
      | @character later _ less token _ plain ahead shorter =>
          simp only [plain.ne_endOfList, ne_eq, not_false_eq_true, if_true]
          apply runs_modify_bind
          have stillAhead : Outstanding [] [] later less
              { after with
                document := after.document.appendText Document.root token.text } := by
            refine Ahead.outstanding ?_ steady.buffer
            exact ahead.same rfl rfl rfl
          refine (ih (by omega) (by omega) (filled.appendText token.text) stillAhead).mono ?_
          rintro _ final ⟨isKind, isText⟩
          refine ⟨isKind.trans (steady.orderly.sound.kind_appendText filled.inside _), ?_⟩
          rw [isText, steady.orderly.sound.within_appendText filled.inside filled.free,
            List.append_assoc]
          rfl
      | marker isBase => cases isBase
      | node isElement closes ahead shorter =>
          have isLess := Nat.lt_of_lt_of_le shorter short
          apply filling.runs_takeUp builds (keeps _ isLess) bounded idle produced isElement closes
            (Nat.le_refl _) ahead
          intro last rest filled outstanding isKind kept
          refine (ih (by omega) (by omega) filled outstanding).mono ?_
          rintro _ final ⟨finalKind, isText⟩
          exact ⟨finalKind.trans isKind, isText.trans kept⟩

/-! ## All tasks -/

/-- Enough tasks inside of each other keep the text, by induction on their number. -/
theorem conserves_interpreter (fuel : Nat) :
    (∀ bound, bound + 2 ≤ fuel → GivesItems (Engine.interpreter fuel) bound) ∧
      ∀ bound, bound + 3 ≤ fuel → KeepsText (Engine.interpreter fuel) bound := by
  induction fuel with
  | zero =>
      refine ⟨fun bound enough => ?_, fun bound enough => ?_⟩
      · exact absurd enough (Nat.not_succ_le_zero _)
      · exact absurd enough (Nat.not_succ_le_zero _)
  | succ fuel ih =>
      obtain ⟨gives, keeps⟩ := ih
      have builds := builds_interpreter fuel
      refine ⟨?_, ?_⟩
      · intro bound enough base frames text size engine bounded short waiting outstanding
        obtain ⟨fewer, rfl⟩ : ∃ fewer, fuel = fewer + 1 := Nat.exists_eq_add_one.mpr (by omega)
        have reads : ∀ count, 2 * count ≤ bound →
            ReadsArguments .visible true (Engine.interpreter (fewer + 1)) count := by
          intro count isShort
          apply readsArguments builds
          · intro size smaller
            exact gives size (by omega)
          · intro size smaller less isLess
            exact keeps less (by omega)
          · change _ ≤ fewer + 1 + 1
            omega
        exact runs_nextItem_given builds (idles_interpreter fewer) (Nat.succ_pos fewer) reads
          bounded short waiting outstanding
      · intro bound enough base frames text size engine id bounded short steady ready outstanding
        refine runs_digest builds (gives bound (by omega)) ?_ bounded short ?_ steady ready
          outstanding
        · intro less isLess
          exact keeps less (by omega)
        · change bound < fuel
          omega

/-- The root gets the visible text of a plain source, in its order. -/
theorem runs_digestRoot {tokens : List Token} (idle : engine.Idle)
    (reading : Reading [] tokens engine) (formulas : engine.mathStack = [])
    (flow : Flow .visible true [] tokens text) {fuel : Nat}
    (enough : 2 * tokens.length + 2 ≤ fuel) :
    Runs (digestRoot (Engine.interpreter fuel)) engine fun _ after =>
      (after.document.node Document.root).kind = .document ∧
        after.document.within .visible Document.root = text := by
  have conserves := conserves_interpreter fuel
  have steady := idle.steady
  have filling : Filling engine Document.root engine := idle.fill
  have outstanding : Outstanding [] [] text (2 * tokens.length) engine := by
    refine Ahead.outstanding ⟨[], [], text, _, by simp, rfl,
      ⟨⟨tokens, reading, flow, rfl⟩, .nil, formulas⟩, by simp, Nat.le_refl _⟩ steady.buffer
  refine (runs_digestRootWithin (builds_interpreter fuel) (conserves.1 _ enough) ?_ _
    idle.digest_root (Nat.le_refl _) ?_ filling outstanding).mono ?_
  · intro less isLess
    exact conserves.2 less (by omega)
  · change _ < fuel
    omega
  · rintro _ after ⟨isKind, isText⟩
    rw [idle.document] at isKind isText
    exact ⟨isKind, isText⟩

/-- A plain source is parsed, and its document has the visible text of the source. -/
theorem parse_visible (idle : engine.Idle) (begins : engine.Begins) {source : String}
    {tokens : List Token} (ahead : (Reader.ofText source "<string>").ahead .initial = tokens)
    (flow : Flow .visible true [] tokens text) {fuel : Nat}
    (enough : 2 * tokens.length + 2 ≤ fuel) :
    ∃ document after, parseTextWithin fuel source engine = .ok document after ∧
      Text.visible (document.textContent Document.root).toList = text := by
  obtain ⟨reading, formulas⟩ := begins.withText ahead
  have started := idle.withText source
  have runs : Runs (digestRoot (interpreter fuel)) (engine.withText source) fun _ done =>
      ((done.document.node Document.root).kind = .document ∧
        done.document.within .visible Document.root = text) ∧
      Filling (engine.withText source) Document.root done :=
    (runs_digestRoot started reading formulas flow enough).sat (sat_digestRoot fuel started)
  obtain ⟨done, after, parses, ⟨isRoot, isText⟩, filled⟩ := runs_parse runs
  refine ⟨_, after, parses, ?_⟩
  have sound := (filled.returned started).orderly.sound
  have stillRoot : (done.complete.1.node Document.root).kind = .document :=
    (filled.kind_complete).trans isRoot
  have gathered : done.complete.1.gauged .visible Document.root =
      done.complete.1.within .visible Document.root := sound.gauged_visible (by simp [stillRoot])
  change done.complete.1.gauged .visible Document.root = text
  rw [gathered, ← isText]
  exact filled.waiting.orderly.visible_paragraphs filled.inside false

end TexTree.Engine
