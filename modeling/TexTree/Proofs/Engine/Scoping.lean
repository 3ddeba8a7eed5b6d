import TexTree.Proofs.Engine.Enclosed

/-!
# Scopes that open and close

Groups and environments can be opened and closed in any order.  The end of an environment
closes everything up to its beginning, and so does the brace that closes a group; what is
open between them is closed as well, whether it has ended or not (`Engine.outside`).

For each command that opens or closes a scope, this module says which item it gives, how the
engine is changed by it, and what is open behind it.
-/

namespace TexTree.Engine

variable {engine after : Engine} {name : String}

/-- What is left around an environment that begins.  Only the document closes all scopes. -/
def around (name : String) (opened : List OpenScope) : List OpenScope :=
  if name = "document" then [] else opened

theorem around_of_ne (other : name ≠ "document") (opened : List OpenScope) :
    around name opened = opened := if_neg other

theorem mem_of_mem_around {enclosed : OpenScope} {opened : List OpenScope}
    (member : enclosed ∈ around name opened) : enclosed ∈ opened := by
  unfold around at member
  split at member
  · cases member
  · exact member

namespace Encloses

variable {opened : List OpenScope} {tokens : List Token} {first : Token}
  {interpreter : Interpreter}

/-- The scope of an environment that begins comes on top of those around it, if there are any
left. -/
theorem scopesInside_eq (encloses : Encloses opened tokens engine) (name : String) :
    engine.scopesInside name =
      { engine.scopes with
        inner := plainFrame (some (ownerOf (Builtin.enclosure name) .opening engine.document.size))
          (Builtin.enclosure name).locals ::
            if name = "document" then [] else engine.scopes.inner } := by
  by_cases isDocument : name = "document"
  · have base : engine.scopes.base.categories = .initial := encloses.base.categories
    subst isDocument
    simp only [scopesInside, Scopes.push, ownerOf, Builtin.enclosure, Option.any_some, if_true,
      beq_self_eq_true, Scopes.categories, Scopes.top, List.headD_nil, base]
    rfl
  · rw [scopesInside, Scopes.push_of_inner, encloses.categories, if_neg isDocument]
    · rfl
    · simp [ownerOf, Builtin.level_enclosure isDocument, Builtin.environment_ne_document]

/-- What is open behind the beginning of an environment. -/
theorem opens (encloses : Encloses opened tokens engine) (isName : name ∈ Builtin.enclosureNames)
    (changed : Engine) (scopes : changed.scopes = engine.scopesInside name)
    (input : changed.input = engine.input) (buffer : changed.buffer = engine.buffer)
    {after : Engine} (changes : after = { changed with expansions := 0 }) :
    Comes changed (.environment name :: around name opened) tokens after := by
  subst changes
  rw [encloses.scopesInside_eq] at scopes
  refine ⟨rfl, encloses.change (input ▸ encloses.ahead) ?_ ?_ ?_ buffer⟩
  · simp only [scopes, around]
    refine .cons ⟨_, rfl⟩ ?_
    split
    · exact .nil
    · exact encloses.inner
  · intro enclosed member
    rcases List.mem_cons.mp member with rfl | outer
    · exact isName
    · exact encloses.known enclosed (mem_of_mem_around outer)
  · rw [scopes]

/-- An environment begins. -/
theorem runs_begin (idles : Idles interpreter) (isName : name ∈ Builtin.enclosureNames)
    (encloses : Encloses opened (.control "begin" :: braced name tokens) engine) (steps : Nat) :
    Runs (nextItemWithin interpreter (steps + 1)) engine fun result after =>
      ∃ item, result = some item ∧ item = .node engine.document.size ∧
        ∃ position, Comes (engine.opened name position)
          (.environment name :: around name opened) tokens after := by
  have nonempty : ∀ name ∈ Builtin.enclosureNames, name.isEmpty = false := by decide
  have isKnown : name ∈ enclosingNames := List.mem_append_right _ isName
  refine encloses.runs_change idles rfl
    ((encloses.command? (by decide)).trans Builtin.meaning?_begin) rfl ?_ steps
  intro token rest _ reads
  have begins : Runs (beginEnvironment interpreter token) { engine with input := rest }
      fun node after => node = engine.document.size ∧
        Comes (engine.opened name token.position) (.environment name :: around name opened) tokens
          (noted node token after) := by
    unfold beginEnvironment
    refine (reads.runs_readName isName).bind ?_
    rintro _ _ ⟨rfl, rest', rfl, left⟩
    have goesOn := reads.reads left
    simp only [nonempty _ isName, Bool.false_eq_true, if_false]
    refine (Engine.runs_lookup ((goesOn.command? isKnown).trans
      (Builtin.meaning?_enclosure isName))).bind ?_
    rintro _ _ ⟨rfl, rfl⟩
    simp only [Builtin.isEnvironment_enclosure, if_true]
    refine (runs_invokeOpening _ token).mono ?_
    rintro _ _ ⟨rfl, rfl⟩
    have comes := goesOn.opens isName (Engine.opened _ _ token.position) rfl rfl rfl noted_opened
    exact ⟨rfl, comes.changes, comes.encloses⟩
  exact runs_making begins

/-- A delimiter opens a formula. -/
theorem runs_openFormula (idles : Idles interpreter) (kind : FormulaKind)
    (encloses : Encloses opened (.control kind.opener :: tokens) engine) (steps : Nat) :
    Runs (nextItemWithin interpreter (steps + 1)) engine fun result after =>
      ∃ item, result = some item ∧ item = .node engine.document.size ∧
        ∃ position, Comes (engine.formulaOpened kind.name ("\\" ++ kind.opener) position)
          (.environment kind.name :: opened) tokens after := by
  have isKnown : kind.opener ∈ enclosingNames := by cases kind <;> decide
  have named : (Token.control kind.opener).commandName? = some kind.opener := rfl
  refine encloses.runs_change idles named
    ((encloses.command? isKnown).trans kind.meaning?_opener) rfl ?_ steps
  intro token rest _ reads
  refine runs_making ((runs_openByDelimiter kind.name_mem token ("\\" ++ kind.opener)).mono ?_)
  rintro _ _ ⟨rfl, rfl⟩
  have comes := reads.opens kind.name_mem_enclosureNames
    (formulaOpened _ _ ("\\" ++ kind.opener) token.position) rfl rfl rfl (noted_formulaOpened _)
  rw [around_of_ne kind.name_ne_document] at comes
  exact ⟨rfl, comes.changes, comes.encloses⟩

/-- A paragraph ends. -/
theorem runs_paragraph (idles : Idles interpreter)
    (encloses : Encloses opened (.control "par" :: tokens) engine) (steps : Nat) :
    Runs (nextItemWithin interpreter (steps + 1)) engine fun result after =>
      ∃ item, result = some item ∧ item = .node engine.document.size ∧
        ∃ position, Comes (engine.parted position) opened tokens after := by
  refine encloses.runs_change idles rfl
    ((encloses.command? (by decide)).trans Builtin.meaning?_par) rfl ?_ steps
  intro token rest _ reads
  refine (runs_invokeBreak token).bind ?_
  rintro _ _ ⟨rfl, rfl⟩
  refine runs_pure ⟨_, rfl, rfl, ?_⟩
  rw [noted_parted]
  exact ⟨rfl, reads.change reads.ahead reads.inner reads.known rfl rfl⟩

/-- A group is opened. -/
theorem runs_beginGroup (idles : Idles interpreter)
    (encloses : Encloses opened (.beginGroup :: tokens) engine) (steps : Nat) :
    Runs (nextItemWithin interpreter (steps + 1)) engine fun result after =>
      ∃ item, result = some item ∧ item = .node engine.document.size ∧
        ∃ position, Comes (engine.grouped position) (.group :: opened) tokens after := by
  refine encloses.runs_change idles rfl
    ((encloses.command? (by decide)).trans Builtin.meaning?_bgroup) rfl ?_ steps
  intro token rest same reads
  refine runs_making ((runs_openGroup (category_of_bare same)).mono ?_)
  rintro _ after ⟨rfl, drafted⟩
  refine ⟨rfl, ?_⟩
  have inside : engine.scopes.push none [] =
      { engine.scopes with inner := plainFrame none [] :: engine.scopes.inner } := by
    simp only [Scopes.push, Option.any_none, Bool.false_eq_true, if_false, encloses.categories]
    rfl
  rw [drafted]
  refine ⟨rfl, reads.change reads.ahead ?_ ?_ ?_ rfl⟩
  · simp only [grouped, inside]
    exact .cons rfl encloses.inner
  · intro other member
    rcases List.mem_cons.mp member with rfl | outer
    · trivial
    · exact encloses.known other outer
  · simp only [grouped, inside]

end Encloses

/-- What stays open when the innermost scope of a kind is closed with everything in it. -/
def outside (enclosed : OpenScope) (opened : List OpenScope) : List OpenScope :=
  (opened.dropWhile fun inner => !(inner == enclosed)).drop 1

theorem mem_of_mem_outside {enclosed other : OpenScope} {opened : List OpenScope}
    (member : other ∈ outside enclosed opened) : other ∈ opened :=
  (List.dropWhile_sublist _).subset (List.mem_of_mem_drop member)

/-- The end of an environment closes what is open in it. -/
theorem closeFrames_encloses {opened : List OpenScope} {frames : List Frame}
    (inner : List.Forall₂ Frame.Encloses opened frames)
    (known : ∀ enclosed ∈ opened, enclosed.Known) (isName : name ∈ Builtin.enclosureNames) :
    List.Forall₂ Frame.Encloses (outside (.environment name) opened)
      (Scopes.closeFrames { node := none, name, mode := .closing } none frames) := by
  induction inner with
  | nil => exact .nil
  | @cons enclosed frame opened frames fits rest ih =>
      have notParent : Scopes.isParent { node := none, name, mode := .closing } none frame =
          false := by
        cases owned : frame.owner with
        | none => simp [Scopes.isParent, owned]
        | some owner => cases isNode : owner.node <;> simp [Scopes.isParent, owned, isNode]
      rw [Scopes.closeFrames, notParent, fits.endsAt (known enclosed List.mem_cons_self) isName]
      simp only [Bool.false_eq_true, if_false]
      by_cases same : enclosed = .environment name
      · simpa [outside, same] using rest
      · simpa [outside, same] using
          ih fun other member => known other (List.mem_cons_of_mem _ member)

/-- The end of a group closes what is open in it. -/
theorem pop_encloses {opened : List OpenScope} {frames : List Frame}
    (inner : List.Forall₂ Frame.Encloses opened frames) :
    List.Forall₂ Frame.Encloses (outside .group opened)
      ((frames.dropWhile fun frame => !frame.isGroup).drop 1) := by
  induction inner with
  | nil => exact .nil
  | @cons enclosed frame opened frames fits rest ih =>
      by_cases same : enclosed = .group
      · simpa [outside, fits.isGroup, same] using rest
      · simpa [outside, fits.isGroup, same] using ih

namespace Encloses

variable {opened : List OpenScope} {tokens : List Token} {first : Token}
  {interpreter : Interpreter}

theorem hasOpenGroup (encloses : Encloses opened tokens engine) (isOpen : .group ∈ opened) :
    engine.scopes.hasOpenGroup = true := by
  have groups : ∀ {opened : List OpenScope} {frames : List Frame},
      List.Forall₂ Frame.Encloses opened frames →
      frames.any Frame.isGroup = opened.any (· == .group) := by
    intro opened frames inner
    induction inner with
    | nil => rfl
    | cons fits _ ih => rw [List.any_cons, List.any_cons, fits.isGroup, ih]
  rw [Scopes.hasOpenGroup, groups encloses.inner]
  exact List.any_eq_true.mpr ⟨.group, isOpen, beq_self_eq_true _⟩

/-- What is open behind the end of an environment. -/
theorem closes (encloses : Encloses opened tokens engine) (isName : name ∈ Builtin.enclosureNames)
    (changed : Engine) (scopes : changed.scopes = engine.scopesOutside name)
    (input : changed.input = engine.input) (buffer : changed.buffer = engine.buffer)
    {after : Engine} (changes : after = { changed with expansions := 0 }) :
    Comes changed (outside (.environment name) opened) tokens after := by
  subst changes
  refine ⟨rfl, encloses.change (input ▸ encloses.ahead) ?_ ?_ ?_ buffer⟩
  · simp only [scopes]
    exact closeFrames_encloses encloses.inner encloses.known isName
  · exact fun other member => encloses.known other (mem_of_mem_outside member)
  · rw [scopes]
    rfl

/-- The end of an environment is looked at: its name is read, and it is open. -/
theorem runs_endEnvironment (isOpen : .environment name ∈ opened)
    (encloses : Encloses opened (braced name tokens) engine) (token : Token)
    {post : Option NodeId → Engine → Prop}
    (invokes : ∀ rest, Encloses opened tokens { engine with input := rest } →
      Runs (some <$> invokeElement interpreter (Builtin.enclosure name) token .closing)
        { engine with input := rest } post) :
    Runs (endEnvironment interpreter token) engine post := by
  have isName : name ∈ Builtin.enclosureNames := encloses.known _ isOpen
  have isKnown : name ∈ enclosingNames := List.mem_append_right _ isName
  unfold endEnvironment
  refine (encloses.runs_readName isName).bind ?_
  rintro _ _ ⟨rfl, rest, rfl, left⟩
  have goesOn := encloses.reads left
  obtain ⟨id, found⟩ := (goesOn.find?_owners _).1 isOpen
  have isAny := List.any_eq_true.mpr ⟨_, List.mem_of_find?_eq_some found,
    List.find?_some found⟩
  apply runs_get
  simp only [isAny, (goesOn.command? isKnown).trans (Builtin.meaning?_enclosure isName),
    Builtin.isEnvironment_enclosure, Bool.not_true, Bool.false_eq_true, if_false, if_true]
  exact invokes rest goesOn

/-- An environment ends, together with everything that is open in it. -/
theorem runs_end (idles : Idles interpreter) (other : name ≠ "document")
    (isOpen : .environment name ∈ opened)
    (encloses : Encloses opened (.control "end" :: braced name tokens) engine) (steps : Nat) :
    Runs (nextItemWithin interpreter (steps + 1)) engine fun result after =>
      ∃ item, result = some item ∧ item = .node engine.document.size ∧
        ∃ position, Comes (engine.closed name position) (outside (.environment name) opened) tokens
          after := by
  refine encloses.runs_change idles rfl
    ((encloses.command? (by decide)).trans Builtin.meaning?_end) rfl ?_ steps
  intro token rest _ reads
  have ends : Runs (endEnvironment interpreter token) { engine with input := rest }
      fun result after => ∃ node, result = some node ∧ node = engine.document.size ∧
        Comes (engine.closed name token.position) (outside (.environment name) opened) tokens
          (noted node token after) := by
    refine reads.runs_endEnvironment isOpen token fun unread goesOn => Runs.map ?_
    refine (runs_invokeClosing other token).mono ?_
    rintro _ _ ⟨rfl, rfl⟩
    have comes := goesOn.closes (encloses.known _ isOpen) (closed _ _ token.position) rfl rfl
      rfl noted_closed
    exact ⟨_, rfl, rfl, comes.changes, comes.encloses⟩
  refine ends.bind ?_
  rintro _ after ⟨node, rfl, drafted⟩
  exact runs_pure ⟨node, rfl, drafted⟩

/-- The document ends, and the input with it. -/
theorem runs_endDocument (idles : Idles interpreter) (isOpen : .environment "document" ∈ opened)
    (encloses : Encloses opened (.control "end" :: braced "document" tokens) engine)
    (steps : Nat) :
    Runs (nextItemWithin interpreter (steps + 1)) engine fun result after =>
      ∃ item, result = some item ∧ item = .node engine.document.size ∧
        ∃ position left, Comes (engine.closed "document" position)
          (outside (.environment "document") opened) left after := by
  have item : Runs (nextItemWithin interpreter (steps + 1)) engine fun result after =>
      ∃ node, result = some (.node node) ∧ ∃ position, node = engine.document.size ∧
        ∃ left, Comes (engine.closed "document" position)
          (outside (.environment "document") opened) left after := by
    refine encloses.runs_command idles rfl
      ((encloses.command? (by decide)).trans Builtin.meaning?_end) rfl ?_ steps
    intro token rest _ reads
    have ends : Runs (endEnvironment interpreter token) { engine with input := rest }
        fun result after => ∃ node, result = some node ∧ node = engine.document.size ∧
          ∃ left, Comes (engine.closed "document" token.position)
            (outside (.environment "document") opened) left (noted node token after) := by
      refine reads.runs_endEnvironment isOpen token fun unread goesOn => Runs.map ?_
      refine (runs_invokeDocumentEnd token).mono ?_
      rintro _ _ ⟨rfl, rfl⟩
      have stopped : Encloses opened (unread.endInput.ahead .initial)
          { engine with input := unread.endInput } := goesOn.reads rfl
      have comes := stopped.closes (encloses.known _ isOpen) (closed _ _ token.position) rfl rfl
        rfl noted_closed
      exact ⟨_, rfl, rfl, _, comes.changes, comes.encloses⟩
    refine ends.bind ?_
    rintro _ after ⟨node, rfl, drafted⟩
    exact runs_pure ⟨node, rfl, drafted⟩
  refine item.mono ?_
  rintro _ after ⟨_, rfl, position, rfl, comes⟩
  exact ⟨_, rfl, rfl, position, comes⟩

/-- A delimiter closes a formula, together with everything that is open in it. -/
theorem runs_closeFormula (idles : Idles interpreter) (kind : FormulaKind)
    (inside : engine.mathStack.head? = some kind.name)
    (encloses : Encloses opened (.control kind.closer :: tokens) engine) (steps : Nat) :
    Runs (nextItemWithin interpreter (steps + 1)) engine fun result after =>
      ∃ item, result = some item ∧ item = .node engine.document.size ∧
        ∃ position, Comes (engine.formulaClosed kind.name position)
          (outside (.environment kind.name) opened) tokens after := by
  have isKnown : kind.closer ∈ enclosingNames := by cases kind <;> decide
  have named : (Token.control kind.closer).commandName? = some kind.closer := rfl
  refine encloses.runs_change idles named
    ((encloses.command? isKnown).trans kind.meaning?_closer) rfl ?_ steps
  intro token rest _ reads
  have closes : Runs (closeMath interpreter token kind.name) { engine with input := rest }
      fun node after => node = engine.document.size ∧
        Comes (engine.formulaClosed kind.name token.position)
          (outside (.environment kind.name) opened) tokens (noted node token after) := by
    have stillInside : (mathStack { engine with input := rest }).head? = some kind.name := inside
    refine (runs_closeByDelimiter kind.name_mem stillInside token).mono ?_
    rintro _ _ ⟨rfl, rfl⟩
    have comes := reads.closes kind.name_mem_enclosureNames (formulaClosed _ _ token.position)
      rfl rfl rfl noted_formulaClosed
    exact ⟨rfl, comes.changes, comes.encloses⟩
  exact runs_making closes

/-- A group is closed, together with everything that is open in it. -/
theorem runs_endGroup (idles : Idles interpreter) (isOpen : .group ∈ opened)
    (encloses : Encloses opened (.endGroup :: tokens) engine) (steps : Nat) :
    Runs (nextItemWithin interpreter (steps + 1)) engine fun result after =>
      ∃ item, result = some item ∧ item = .node engine.document.size ∧
        ∃ position, Comes (engine.ungrouped position) (outside .group opened) tokens after := by
  refine encloses.runs_change idles rfl
    ((encloses.command? (by decide)).trans Builtin.meaning?_egroup) rfl ?_ steps
  intro token rest same reads
  refine runs_making ((runs_closeGroup (category_of_bare same) (reads.hasOpenGroup isOpen)).mono ?_)
  rintro _ after ⟨rfl, drafted⟩
  refine ⟨rfl, ?_⟩
  rw [drafted]
  refine ⟨rfl, reads.change reads.ahead (pop_encloses encloses.inner) ?_ rfl rfl⟩
  exact fun other member => encloses.known other (mem_of_mem_outside member)

end Encloses

end TexTree.Engine
