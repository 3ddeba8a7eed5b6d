import TexTree.Proofs.Document.Children
import TexTree.Proofs.Engine.Bookkeeping

/-!
# Recording entries

An engine records what is said about it (`Engine.Records`) if the scopes are open that are
said to be, and if what it keeps beside its scopes is what is said.  Then it mirrors its
scopes exactly if the bookkeeping does.

Characters, and environments and formulas that begin, may stand in the argument of a command
as well as outside of one.  Each of them is an item, and is recorded.  In an argument it also
matters which item it is (`Engine.Offered`).
-/

namespace TexTree

/-- Whether a node is that of an environment that has begun under so many frames. -/
structure Node.Opens (depth : Nat) (node : Node) : Prop where
  digest : node.digest = .environment
  level : node.level = Level.environment
  mode : node.mode = .opening
  notGroup : node.closesGroup = false
  depth : node.depth = depth

namespace Engine

variable {engine after : Engine} {interpreter : Interpreter} {book : Bookkeeping}
  {tokens : List Token} {name : String}

/-- The bookkeeping of an engine mirrors its scopes. -/
structure MirrorsScopes (engine : Engine) : Prop where
  environments : engine.environments =
    (engine.scopes.owners.filter fun owner => owner.mode == .opening).map FrameOwner.name
  listDepth : engine.listDepth =
    min ((engine.scopes.owners.filter fun owner => owner.mode == .opening).countP
      fun owner => owner.name ∈ Builtin.listNames) maxListDepth

/-- An engine has recorded what is said, and the tokens are ahead. -/
structure Records (book : Bookkeeping) (tokens : List Token) (engine : Engine) : Prop where
  encloses : Encloses book.opened tokens engine
  formulas : engine.mathStack = book.formulas
  environments : engine.environments = book.environments
  listDepth : engine.listDepth = book.listDepth

theorem Records.mirrors_iff (records : Records book tokens engine) :
    engine.MirrorsScopes ↔ book.Mirrored := by
  have names : (engine.scopes.owners.filter fun owner => owner.mode == .opening).map
      FrameOwner.name = environmentsIn book.opened := records.encloses.names_owners
  have lists : (engine.scopes.owners.filter fun owner => owner.mode == .opening).countP
      (fun owner => owner.name ∈ Builtin.listNames) = listsIn book.opened := by
    rw [listsIn, ← names, List.countP_map]
    rfl
  rw [Bookkeeping.Mirrored, ← records.environments, ← records.listDepth, ← names, ← lists]
  exact ⟨fun mirrors => ⟨mirrors.environments, mirrors.listDepth⟩,
    fun mirrored => ⟨mirrored.1, mirrored.2⟩⟩

/-- What is recorded for a change is recorded behind it. -/
theorem Comes.records {changed : Engine} (comes : Comes changed book.opened tokens after)
    (formulas : changed.mathStack = book.formulas)
    (environments : changed.environments = book.environments)
    (listDepth : changed.listDepth = book.listDepth) : Records book tokens after where
  encloses := comes.encloses
  formulas := by
    rw [comes.changes]
    exact formulas
  environments := by
    rw [comes.changes]
    exact environments
  listDepth := by
    rw [comes.changes]
    exact listDepth

/-! ## Items -/

/-- An item of an argument: a character, or the node of an environment that begins inside of
what is open. -/
inductive Offered (engine : Engine) : Item → Engine → Prop where
  | character {token : Token} {after : Engine} (isCharacter : token.category ≠ .endOfList)
      (document : after.document = engine.document) (scopes : after.scopes = engine.scopes) :
      Offered engine (.token token) after
  | opening {name : String} {after : Engine} (other : name ≠ "document")
      (opens : (after.document.node engine.document.size).Opens after.scopes.depth)
      (size : after.document.size = engine.document.size + 1)
      (scopes : after.scopes = engine.scopesInside name) :
      Offered engine (.node engine.document.size) after

/-- The node of an environment that begins. -/
theorem opens_openingNode (isName : name ∈ Builtin.enclosureNames) (other : name ≠ "document")
    (position : Option Position) (depth : Nat) (source : String) :
    Node.Opens depth { openingNode name position depth with argumentSource := source } where
  digest := rfl
  level := Builtin.level_enclosure other
  mode := rfl
  notGroup := by
    have isOther : ∀ name ∈ Builtin.enclosureNames, name ≠ "egroup" ∧ name ≠ "endgroup" := by
      decide
    obtain ⟨first, second⟩ := isOther name isName
    simp [Node.closesGroup, openingNode, draftOf, Document.element, first, second]
  depth := rfl

theorem Comes.offered_opening {opened : List OpenScope} {changed : Engine}
    (comes : Comes changed opened tokens after) (isName : name ∈ Builtin.enclosureNames)
    (other : name ≠ "document") (scopes : changed.scopes = engine.scopesInside name)
    {position : Option Position} {source : String}
    (document : changed.document = (engine.document.create
      { openingNode name position (engine.scopesInside name).depth with
        argumentSource := source }).2) :
    Offered engine (.node engine.document.size) after := by
  have sameScopes : after.scopes = engine.scopesInside name := by
    rw [comes.changes]
    exact scopes
  have sameDocument : after.document = changed.document := by
    rw [comes.changes]
  refine .opening other ?_ ?_ sameScopes
  · rw [sameDocument, document, Document.node_create_self, sameScopes]
    exact opens_openingNode isName other position _ source
  · rw [sameDocument, document, Document.size_create]

theorem behind_braced (name : String) (tokens : List Token) :
    braced name [] ++ tokens = braced name tokens := by
  simp [braced]

/-- An entry is an item, and is recorded. -/
theorem Records.runs_entry (idles : Idles interpreter) {entry : Event.Entry}
    (records : Records book (entry.tokens ++ tokens) engine) (allowed : entry.Allowed)
    (steps : Nat) :
    Runs (nextItemWithin interpreter (steps + 1)) engine fun result after =>
      ∃ item, result = some item ∧ Offered engine item after ∧
        Records (book.enter entry) tokens after := by
  obtain ⟨encloses, formulas, environments, listDepth⟩ := records
  cases entry with
  | character token =>
      refine (encloses.runs_character allowed steps).mono ?_
      rintro _ after ⟨item, rfl, ⟨read, rfl, same⟩, comes⟩
      refine ⟨_, rfl, .character ?_ ?_ ?_, comes.records formulas environments listDepth⟩
      · rw [category_of_bare same]
        rcases allowed with isKind | isKind | isKind <;> simp [isKind]
      all_goals rw [comes.changes]
  | openEnvironment name =>
      obtain ⟨isName, other⟩ := allowed
      rw [Event.Entry.tokens, List.cons_append, behind_braced] at encloses
      refine (encloses.runs_begin idles isName steps).mono ?_
      rintro _ after ⟨item, rfl, rfl, position, comes⟩
      refine ⟨_, rfl, comes.offered_opening isName other rfl rfl, comes.records ?_ ?_ ?_⟩
      · exact formulas
      · rw [opened, environments]
        rfl
      · rw [opened, listDepth]
        rfl
  | openFormula kind =>
      refine (encloses.runs_openFormula idles kind steps).mono ?_
      rintro _ after ⟨item, rfl, rfl, position, comes⟩
      rw [← around_of_ne kind.name_ne_document book.opened] at comes
      have offered := comes.offered_opening kind.name_mem_enclosureNames kind.name_ne_document
        rfl rfl
      refine ⟨_, rfl, offered, comes.records ?_ ?_ ?_⟩
      · rw [formulaOpened, formulas]
        rfl
      · rw [formulaOpened, opened, environments]
        rfl
      · rw [formulaOpened, opened, listDepth]
        rfl

end Engine

end TexTree
