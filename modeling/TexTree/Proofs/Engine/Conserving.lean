import Mathlib.Data.Nat.Basic
import Mathlib.Order.Basic
import TexTree.Proofs.Engine.Filling
import TexTree.Proofs.Engine.Given

/-!
# Steps of digestion and the visible text

A node that digests may stop early, and hand a node that it has read to the node around
it.  Where a text ends up can therefore not be read off the nesting of the source.
But whatever is taken up by a node, kept for another one or still to be read, together
they are always the same text in the same order (`Outstanding`), at each step of digestion
(`Conserved`).
-/

namespace TexTree.Engine

variable {base : Openings Char} {frames : List Frame} {text : List Char} {size : Nat}
  {engine : Engine} {interpreter : Interpreter}

/-! ## Digestion -/

theorem Ahead.outstanding (ahead : Ahead base frames text size engine)
    (empty : engine.buffer = []) : Outstanding base frames text size engine where
  ahead := ⟨text, size, ahead, by simp [empty], by simp [empty]⟩
  elements := by simp [empty]
  closers := by simp [empty]

theorem Outstanding.weaken {more : Nat} (outstanding : Outstanding base frames text size engine)
    (fewer : size ≤ more) : Outstanding base frames text more engine := by
  obtain ⟨later, less, ahead, isText, short⟩ := outstanding.ahead
  exact ⟨⟨later, less, ahead, isText, Nat.le_trans short fewer⟩, outstanding.elements,
    outstanding.closers⟩

/-- A change of the document that leaves alone what was read too early. -/
theorem Outstanding.setDocument (outstanding : Outstanding base frames text size engine)
    {document : Document}
    (essence : ∀ id ∈ engine.buffer,
      (document.node id).essence = (engine.document.node id).essence)
    (within : ∀ id ∈ engine.buffer,
      document.within .visible id = engine.document.within .visible id) :
    Outstanding base frames text size { engine with document } := by
  obtain ⟨later, less, ahead, isText, short⟩ := outstanding.ahead
  refine ⟨⟨later, less, ahead.same rfl rfl rfl, ?_, short⟩, ?_, ?_⟩
  · rw [isText]
    congr 1
    exact List.flatMap_congr fun id member => (within id member).symm
  · intro id member
    exact (Node.kind_eq_of_essence_eq (essence id member)).trans (outstanding.elements id member)
  · intro id member closes
    have sameCloser : (document.node id).isCloser = (engine.document.node id).isCloser := by
      have same := congrArg Node.isCloser (essence id member)
      exact same
    exact (within id member).trans (outstanding.closers id member (sameCloser.symm.trans closes))

section Filling

variable {start after : Engine} {id next : NodeId}

/-- A node that has been digested is appended with its text. -/
theorem Filling.visible_append (filling : Filling start id engine)
    (ready : engine.document.Ready next) (new : start.document.size ≤ next)
    (digested : engine.Digested next after)
    (isElement : (after.document.node next).kind = .element) :
    (after.document.append id next).within .visible id =
      engine.document.within .visible id ++ after.document.within .visible next := by
  rw [filling.within_append ready new digested,
    digested.waiting.orderly.sound.gauged_visible (by simp [isElement])]

/-- Appending a node does not concern the text that is outstanding. -/
theorem Filling.outstanding_append (filling : Filling start id engine)
    (new : start.document.size ≤ next) (digested : engine.Digested next after)
    (outstanding : Outstanding base frames text size after) :
    Outstanding base frames text size
      { after with document := after.document.append id next } := by
  obtain ⟨inside, free, different⟩ := filling.free_of_digested new digested
  apply outstanding.setDocument
  · intro other _
    exact Node.essence_eq_of_core_eq (Document.core_append after.document id next other)
  · intro other early
    have later := digested.new other early
    exact digested.waiting.orderly.sound.within_append_elsewhere inside free
      digested.ready.inside digested.ready.free digested.ready.whole different
      (Nat.ne_of_gt (Nat.lt_of_lt_of_le filling.inside later))

end Filling

/-- A node is dropped only if it closes something. -/
theorem isCloser_of_finish {node next : Node} (finishes : node.reaction next = .finish) :
    next.isCloser = true := by
  unfold Node.reaction at finishes
  unfold Node.isCloser
  cases digest : node.digest with
  | nothing => simp [digest] at finishes
  | sectioning =>
      simp only [digest] at finishes
      split at finishes <;> cases finishes
  | item =>
      simp only [digest] at finishes
      split at finishes <;> cases finishes
  | environment =>
      simp only [digest] at finishes
      grind
  | group =>
      simp only [digest] at finishes
      grind
  | declaration =>
      simp only [digest] at finishes
      grind

/-- A node is still of its kind, and its text together with the text that is outstanding is
what it was before, followed by the given one. -/
def Conserved (base : Openings Char) (frames : List Frame) (size : Nat) (before : Document)
    (id : NodeId) (text : List Char) (after : Engine) : Prop :=
  (after.document.node id).kind = (before.node id).kind ∧
    ∃ later, Outstanding base frames later size after ∧
      after.document.within .visible id ++ later = before.within .visible id ++ text

section Conserving

variable {before middle : Document} {later : List Char} {less : Nat} {start after : Engine}
  {id next : NodeId}

/-- What is still outstanding is conserved. -/
theorem Outstanding.conserved (outstanding : Outstanding base frames text size after) :
    Conserved base frames size after.document id text after :=
  ⟨rfl, text, outstanding, rfl⟩

/-- Two steps are taken after each other. -/
theorem Conserved.since (conserved : Conserved base frames less middle id later engine)
    (kind : (middle.node id).kind = (before.node id).kind)
    (kept : middle.within .visible id ++ later = before.within .visible id ++ text)
    (fewer : less ≤ size) : Conserved base frames size before id text engine := by
  obtain ⟨sameKind, rest, outstanding, same⟩ := conserved
  exact ⟨sameKind.trans kind, rest, outstanding.weaken fewer, same.trans kept⟩

/-- A character is taken up, or it is a blank that is dropped. -/
theorem Filling.runs_character (filled : Filling start id after)
    (ready : after.document.Ready id) (empty : after.buffer = []) {token : Token}
    (ahead : Ahead base frames later less after) (fewer : less ≤ size) {rest : TexM Bool}
    (continues : ∀ last, Filling start id last → last.document.Ready id →
      Outstanding base frames later less last →
      Runs rest last fun _ => Conserved base frames less last.document id later) :
    Runs (do
      if accepts (← get).document id token then Engine.appendText id token.text
      rest) after fun _ => Conserved base frames size after.document id
        (Text.visible token.text.toList ++ later) := by
  have orderly := filled.waiting.orderly
  have outstanding := ahead.outstanding empty
  apply runs_get
  split
  · apply runs_modify_bind
    have appended : Outstanding base frames later less
        { after with document := after.document.appendText id token.text } :=
      Ahead.outstanding (ahead.same rfl rfl rfl) empty
    refine (continues _ (filled.appendText token.text) (ready.appendText orderly token.text)
      appended).mono ?_
    intro _ final conserved
    refine conserved.since (orderly.sound.kind_appendText filled.inside token.text) ?_ fewer
    rw [orderly.sound.within_appendText filled.inside filled.free, List.append_assoc]
    rfl
  · next refused =>
      have blank : (Text.trim token.text).isEmpty = true := by
        simp only [accepts, Bool.or_eq_true, not_or, Bool.not_eq_true,
          Bool.not_eq_false'] at refused
        exact refused.2
      refine (continues after filled ready outstanding).mono ?_
      intro _ final conserved
      refine conserved.since rfl ?_ fewer
      rw [Text.visible_of_trim_isEmpty blank, List.nil_append]

/-- A node that has been digested is taken up, and brings its text along. -/
theorem Filling.runs_appendNode (filled : Filling start id after)
    (ready : after.document.Ready id) (nextReady : after.document.Ready next)
    (new : start.document.size ≤ next)
    (taken : (start.document.node id).Takes (after.document.node next))
    (digested : after.Digested next engine) {rest : List Char}
    (isElement : (engine.document.node next).kind = .element)
    (outstanding : Outstanding base frames rest less engine)
    (kept : engine.document.within .visible next ++ rest =
      after.document.within .visible next ++ later)
    (fewer : less ≤ size) {goOn : TexM Bool}
    (continues : ∀ last, Filling start id last → last.document.Ready id →
      Outstanding base frames rest less last →
      Runs goOn last fun _ => Conserved base frames less last.document id rest) :
    Runs (do appendNode id next; goOn) engine fun _ =>
      Conserved base frames size after.document id
        (after.document.within .visible next ++ later) := by
  have suits : after.document.Suits id next :=
    .inl ((Node.takes_congr filled.traits rfl).mpr taken)
  apply runs_modify_bind
  refine (continues _ (filled.digestAndAppend new nextReady suits digested)
    (filled.ready_digestAndAppend ready new nextReady suits digested)
    (filled.outstanding_append new digested outstanding)).mono ?_
  intro _ final conserved
  refine conserved.since (filled.kind_append new digested) ?_ fewer
  rw [filled.visible_append nextReady new digested isElement, List.append_assoc, kept]

end Conserving

/-- The marker behind an argument is put back, so that nothing is outstanding in front of it. -/
theorem Reading.runs_putBack_marker {outer : Openings Char} {frame : Frame}
    {outside : List Frame} {behind : List Char} {token : Token} {tokens : List Token}
    (isMarker : token.bare = .argumentEnd) (reading : Reading (frame :: outside) tokens engine)
    (framed : Framed outer outside) (flow : Flow .visible true outer tokens behind)
    (formulas : engine.mathStack = formulasIn outer) (shorter : 2 * tokens.length + 2 ≤ size)
    (empty : engine.buffer = []) {hasBreak : Bool} {id : NodeId} :
    Runs (do putBack token; return hasBreak) engine fun _ =>
      Conserved ((.argument, behind) :: outer) (frame :: outside) size engine.document id [] := by
  refine (reading.runs_putBack token).bind ?_
  intro _ last moved
  have isAhead : Ahead ((.argument, behind) :: outer) (frame :: outside) [] size last := by
    refine ⟨[], [], [], tokens.length + 1, by simp, rfl,
      ⟨⟨.argumentEnd :: tokens, ?_, .argumentEnd flow, rfl⟩, .cons trivial framed, ?_⟩,
      rfl, by omega⟩
    · rw [← isMarker]
      exact moved.reading
    · rw [moved.formulas, formulas]
      exact (formulasIn_other (by decide) behind outer).symm
  refine runs_pure ?_
  rw [← moved.document]
  exact (isAhead.outstanding (moved.buffer.trans empty)).conserved

/-- A node takes up items, and keeps the text. -/
theorem runs_digestWithin (builds : interpreter.Builds) {bound : Nat}
    (gives : GivesItems interpreter bound) (keeps : ∀ less < bound, KeepsText interpreter less)
    (bounded : Bounded base) {start : Engine} {id : NodeId} (steps : Nat) (hasBreak : Bool)
    (short : size ≤ bound) (enough : size < steps)
    (filling : Filling start id engine) (ready : engine.document.Ready id)
    (outstanding : Outstanding base frames text size engine) :
    Runs (digestWithin interpreter id (start.document.node id) steps hasBreak) engine
      fun _ => Conserved base frames size engine.document id text := by
  induction steps generalizing engine hasBreak text size with
  | zero => exact absurd enough (Nat.not_lt_zero size)
  | succ steps ih =>
      unfold digestWithin
      refine ((gives bounded short filling.waiting outstanding).sat
        (builds.nextItem engine filling.waiting)).bind ?_
      rintro item after ⟨given, produced⟩
      have filled := filling.produce produced
      have steady := produced.grown.steady
      have stillReady := produced.grown.ext.ready filling.waiting.orderly.sound ready (by simp)
      -- Reading an item does not concern the node, so that what follows starts from there.
      suffices step : Runs _ after fun _ => Conserved base frames size after.document id text from
        step.mono fun _ _ conserved => conserved.since (filling.kind_produced produced)
          (by rw [filling.within_produced produced]) (Nat.le_refl _)
      cases given with
      | ended isBase ahead =>
          dsimp only
          split
          · refine runs_modify_bind (runs_pure (Outstanding.conserved ?_))
            exact Ahead.outstanding (ahead.same rfl rfl rfl) steady.buffer
          · exact runs_pure (ahead.outstanding steady.buffer).conserved
      | character plain ahead shorter =>
          simp only [plain.ne_endOfList, if_false]
          apply filled.runs_character stillReady steady.buffer ahead shorter.le
          intro last filling ready outstanding
          exact ih hasBreak (by omega) (by omega) filling ready outstanding
      | marker isBase isFrames isMarker reading framed flow formulas shorter =>
          subst isBase isFrames
          simp only [category_of_bare isMarker]
          exact Reading.runs_putBack_marker isMarker reading framed flow formulas shorter
            steady.buffer
      | @node later _ less next _ isElement closes ahead shorter =>
          have nextReady := produced.ready next rfl
          have new := filling.le_of_produced produced
          have isLess : less < bound := Nat.lt_of_lt_of_le shorter short
          apply runs_nodeOf
          cases reaction : (start.document.node id).reaction (after.document.node next) with
          | takeUp =>
              refine ((keeps less isLess bounded (Nat.le_refl _) steady nextReady
                (ahead.outstanding steady.buffer)).sat
                (builds.digest after next steady nextReady)).bind ?_
              rintro _ digested ⟨⟨nextKind, rest, outstanding, kept⟩, isDigested⟩
              apply filled.runs_appendNode stillReady nextReady new (.inl reaction) isDigested
                (nextKind.trans isElement) outstanding kept shorter.le
              intro last filling ready outstanding
              exact ih hasBreak (by omega) (by omega) filling ready outstanding
          | append =>
              apply filled.runs_appendNode stillReady nextReady new (.inr reaction)
                (steady.digested nextReady) isElement (ahead.outstanding steady.buffer) rfl
                shorter.le
              intro last filling ready outstanding
              exact ih true (by omega) (by omega) filling ready outstanding
          | leave =>
              refine runs_modify_bind (runs_pure (Outstanding.conserved ?_))
              refine ⟨⟨later, less, ahead.same rfl rfl rfl, ?_, ?_⟩, ?_, ?_⟩
              · simp [steady.buffer]
              · simpa [steady.buffer, Nat.succ_le_iff] using shorter
              · simpa [steady.buffer] using isElement
              · simpa [steady.buffer] using closes
          | finish =>
              rw [closes (isCloser_of_finish reaction), List.nil_append]
              exact runs_pure ((ahead.weaken shorter.le).outstanding steady.buffer).conserved

/-- Regrouping a node keeps its text and what is outstanding. -/
theorem Filling.outstanding_regroup {start : Engine} {id : NodeId}
    (filling : Filling start id engine) (force : Bool)
    (outstanding : Outstanding base frames text size engine) :
    ((engine.document.paragraphs id force).node id).kind = (engine.document.node id).kind ∧
      (engine.document.paragraphs id force).within .visible id =
        engine.document.within .visible id ∧
      Outstanding base frames text size
        { engine with document := engine.document.paragraphs id force } := by
  have orderly := filling.waiting.orderly
  refine ⟨?_, orderly.visible_paragraphs filling.inside force, ?_⟩
  all_goals rcases orderly.sound.paragraphs filling.inside force with same | ⟨parts, regrouped⟩
  · rw [same]
  · exact Node.kind_eq_of_core_eq (regrouped.core id filling.inside)
  · rw [same]
    exact outstanding
  · have ext := Document.Extends.of_regrouped (.refl _) orderly.sound regrouped
    have apart : ∀ other ∈ engine.buffer, some id ≠ some other ∧
        engine.document.Untouched (some id) other := by
      intro other early
      have different : id ≠ other := Ne.symm (filling.ne_of_buffer early)
      have isPending := filling.waiting.pending other early
      exact ⟨by simpa using different,
        Document.Extends.untouched_of_free isPending.free (by simpa using different)⟩
    apply outstanding.setDocument
    · intro other early
      exact ext.essence other (filling.waiting.pending other early).inside (apart other early).2
    · intro other early
      have isPending := filling.waiting.pending other early
      apply ext.within orderly.sound regrouped.sound isPending.inside
      intro node isNode
      rw [← Option.some.inj isNode]
      exact ⟨filling.free, isPending.free, Ne.symm (filling.ne_of_buffer early)⟩

/-- A node that digests keeps the text. -/
theorem runs_digest (builds : interpreter.Builds) {bound : Nat}
    (gives : GivesItems interpreter bound) (keeps : ∀ less < bound, KeepsText interpreter less)
    (bounded : Bounded base) {id : NodeId} (short : size ≤ bound)
    (enough : bound < interpreter.limit) (steady : engine.Steady)
    (ready : engine.document.Ready id)
    (outstanding : Outstanding base frames text size engine) :
    Runs (digest interpreter id) engine fun _ =>
      Conserved base frames size engine.document id text := by
  have filling := steady.filling ready.inside ready.free
  unfold digest
  apply runs_nodeOf
  split
  · exact runs_pure outstanding.conserved
  · next takes =>
      refine ((runs_digestWithin builds gives keeps bounded _ false short
        (Nat.lt_of_le_of_lt short enough) filling ready outstanding).sat
        (sat_digestWithin builds _ false filling ready)).bind ?_
      rintro hasBreak after ⟨conserved, filled, stillReady⟩
      have regroups : ∀ force, Runs (modifyDocument (·.paragraphs id force)) after fun _ =>
          Conserved base frames size engine.document id text := by
        intro force
        obtain ⟨sameKind, later, outstanding, kept⟩ := conserved
        obtain ⟨regroupedKind, regroupedText, stillOutstanding⟩ :=
          filled.outstanding_regroup force outstanding
        refine runs_modify ⟨regroupedKind.trans sameKind, later, stillOutstanding, ?_⟩
        rw [← kept]
        exact congrArg (· ++ later) regroupedText
      cases rule : (engine.document.node id).digest with
      | nothing => exact absurd rule takes
      | environment =>
          dsimp only
          split
          · exact regroups true
          · exact runs_pure conserved
      | sectioning => exact regroups true
      | item => exact regroups true
      | group => exact regroups false
      | declaration => exact regroups false

end TexTree.Engine
