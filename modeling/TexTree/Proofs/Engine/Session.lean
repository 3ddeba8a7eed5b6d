import TexTree.Proofs.Engine.Digestion

/-!
# Sources one after the other

A source is interpreted into the root of an empty document.  The root has no rule
of digestion, so that it is filled like a fragment.  Whether a source succeeds or
not, the engine is as ready for the next one as it was before (`Idle`); therefore
the document of every source is orderly, no matter how many there were before.
-/

namespace TexTree

/-- A document that consists of its root has no links. -/
theorem Document.orderly_empty : Document.empty.Orderly := by
  have nodes : ∀ id, Document.empty.node id = Document.rootNode ∨
      Document.empty.node id = default := by
    intro id
    cases id with
    | zero => exact .inl rfl
    | succ id => exact .inr rfl
  have childless : ∀ id, Document.empty.children id = [] := by
    intro id
    unfold Document.children
    rcases nodes id with isRoot | isDefault
    · rw [isRoot]
      rfl
    · rw [isDefault]
      rfl
  refine ⟨⟨?_, ?_, ?_, ⟨fun _ => 0, ?_⟩⟩, ?_, ?_⟩
  · intro id child
    have parentless : Document.empty.parent? child = none := by
      unfold Document.parent?
      rcases nodes child with isRoot | isDefault
      · rw [isRoot]
        rfl
      · rw [isDefault]
        rfl
    simp [childless, parentless]
  · simp [childless]
  · simp [childless]
  · simp [childless]
  · intro id
    rcases nodes id with isRoot | isDefault
    · rw [isRoot]
      constructor <;> simp [Document.rootNode, Level.document, Level.par]
    · rw [isDefault]
      constructor <;> decide
  · simp [childless]

namespace Engine

variable {engine : Engine}

/-- An engine between two sources. -/
structure Idle (engine : Engine) : Prop where
  sane : engine.Sane
  document : engine.document = .empty
  buffer : engine.buffer = []

/-- The engines that have interpreted any number of sources, with the built-in commands
at the beginning. -/
inductive Used : Engine → Prop where
  | fresh (settings : Settings) (files : Files) (date : Date) :
      Used (fresh settings files date .empty)
  | text {engine : Engine} (used : Used engine) (fuel : Nat) (text : String) :
      Used (left (parseTextWithin fuel text engine))
  | file {engine : Engine} (used : Used engine) (fuel : Nat) (path : String) :
      Used (left (parseFileWithin fuel path engine))

theorem Idle.steady (idle : engine.Idle) : engine.Steady where
  sane := idle.sane
  orderly := by
    rw [idle.document]
    exact Document.orderly_empty
  buffer := idle.buffer

theorem idle_fresh (settings : Settings) (files : Files) (date : Date) :
    (fresh settings files date .empty).Idle := by
  unfold fresh
  dsimp only
  generalize isBare : Engine.mk _ _ _ _ _ _ _ _ _ _ _ _ _ _ _ _ _ _ _ _ = bare
  have sane : bare.Sane := by
    subst isBare
    refine ⟨Builtin.regular_scopes, ?_⟩
    intro name elements found
    cases found
  have dated : bare.Quiet (bare.createDateRegisters date) :=
    (((Quiet.refl bare).createRegister _ _).createRegister _ _).createRegister _ _
  have quiet : bare.Quiet (bare.createDateRegisters date).createEnumerationCounters := by
    refine Quiet.setTemplate (Quiet.setTemplate (Quiet.setTemplate ?_ _ _) _ _) _ _
    apply dated.foldl
    intro engine entry quiet
    exact quiet.createCounter entry.1 entry.2 0
  refine ⟨quiet.sane sane, quiet.document.trans ?_, quiet.buffer.trans ?_⟩
  · rw [← isBare]
  · rw [← isBare]

/-- The root is filled with all items. -/
theorem sat_digestRootWithin {interpreter : Interpreter} (builds : interpreter.Builds)
    (steps : Nat) {start : Engine} (idle : (start.document.node Document.root).digest = .nothing)
    (filling : Filling start Document.root engine) :
    Sat (digestRootWithin interpreter steps) engine fun _ after =>
      Filling start Document.root after := by
  induction steps generalizing engine with
  | zero => exact sat_fail.mpr filling.waiting.sane
  | succ steps ih =>
      unfold digestRootWithin
      refine (builds.nextItem engine filling.waiting).bind ?_
      intro item after produced
      have filled := filling.produce produced
      have steady := produced.grown.steady
      match item, produced with
      | none, _ => exact sat_pure.mpr filled
      | some (.token character), _ =>
          dsimp only
          split
          · refine sat_bind.mpr (sat_modify.mpr ?_)
            exact ih (filled.appendText character.text)
          · exact ih filled
      | some (.node id), produced =>
          exact filling.sat_takeUp builds idle produced fun _ filled => ih filled

/-- The root of an empty document can be filled. -/
theorem Idle.fill (idle : engine.Idle) : Filling engine Document.root engine := by
  refine idle.steady.filling ?_ ?_
  · rw [idle.document]
    decide
  · rw [idle.document]
    rfl

theorem Idle.digest_root (idle : engine.Idle) :
    (engine.document.node Document.root).digest = .nothing := by
  rw [idle.document]
  rfl

/-- The root is orderly filled when the input has come to its end. -/
theorem sat_digestRoot (fuel : Nat) (idle : engine.Idle) :
    Sat (digestRoot (interpreter fuel)) engine fun _ after =>
      Filling engine Document.root after :=
  sat_digestRootWithin (builds_interpreter fuel) _ idle.digest_root idle.fill

/-- Leaving a source makes the engine ready for the next one. -/
theorem Sane.idle_abandon (sane : engine.Sane) : engine.abandon.Idle :=
  ⟨⟨sane.scopes.unwind, sane.libraries⟩, rfl, rfl⟩

theorem Sane.idle_complete (sane : engine.Sane) : engine.complete.2.Idle :=
  ⟨⟨sane.scopes.unwind, sane.libraries⟩, rfl, rfl⟩

/-- What is known about the document of a source. -/
structure Returned (document : Document) : Prop where
  orderly : document.Orderly
  root : (document.node Document.root).traits = Document.rootNode.traits

theorem Returned.level_root {document : Document} (returned : Returned document) :
    (document.node Document.root).level = Level.document :=
  Node.level_eq_of_traits_eq returned.root

theorem Filling.traits_root (idle : engine.Idle) {after : Engine}
    (filled : Filling engine Document.root after) :
    (after.document.node Document.root).traits = Document.rootNode.traits := by
  rw [filled.traits, idle.document]
  rfl

/-- The children of the root suit it. -/
theorem Filling.suits_root (idle : engine.Idle) {after : Engine}
    (filled : Filling engine Document.root after) :
    ∀ child ∈ after.document.children Document.root, after.document.Suits Document.root child := by
  intro child member
  have level : (after.document.node Document.root).level = Level.document :=
    Node.level_eq_of_traits_eq (filled.traits_root idle)
  rcases filled.waiting.orderly.held Document.root child member with suits | ⟨isParagraph, _⟩
  · exact suits
  · rw [level] at isParagraph
    exact absurd isParagraph (by decide)

/-- Regrouping the root at the end keeps its kind. -/
theorem Filling.kind_complete {start after : Engine}
    (filled : Filling start Document.root after) :
    (after.complete.1.node Document.root).kind = (after.document.node Document.root).kind := by
  change ((after.document.paragraphs Document.root false).node _).kind = _
  rcases filled.waiting.orderly.sound.paragraphs filled.inside false with
    same | ⟨parts, regrouped⟩
  · rw [same]
  · exact Node.kind_eq_of_core_eq (regrouped.core _ filled.inside)

/-- The root is regrouped at the end. -/
theorem Filling.returned (idle : engine.Idle) {after : Engine}
    (filled : Filling engine Document.root after) : Returned after.complete.1 := by
  have orderly := filled.waiting.orderly
  have root := filled.traits_root idle
  change Returned (after.document.paragraphs Document.root false)
  rcases orderly.sound.paragraphs filled.inside false with same | ⟨parts, regrouped⟩
  · rw [same]
    exact ⟨orderly, root⟩
  · refine ⟨orderly.of_regrouped (filled.suits_root idle) regrouped, ?_⟩
    rw [Node.traits_eq_of_core_eq (regrouped.core _ filled.inside)]
    exact root

/-- The document that was returned, if there is one. -/
def document? : EStateM.Result TexError Engine Document → Option Document
  | .ok document _ => some document
  | .error _ _ => none

/-- A source gave an orderly document, if it succeeded, and the engine can go on in any
case. -/
structure Interpreted (result : EStateM.Result TexError Engine Document) : Prop where
  returned : ∀ document, document? result = some document → Returned document
  idle : (left result).Idle

theorem interpreted_interpret (fuel : Nat) (idle : engine.Idle) :
    Interpreted (interpret fuel engine) := by
  have sat := sat_digestRoot fuel idle
  unfold interpret
  cases outcome : digestRoot (interpreter fuel) engine with
  | ok value after =>
      have filled := sat.ok outcome
      refine ⟨?_, filled.waiting.sane.idle_complete⟩
      intro document equal
      rw [← Option.some.inj equal]
      exact filled.returned idle
  | error error after =>
      refine ⟨?_, (sat.error outcome).idle_abandon⟩
      intro document equal
      cases equal

theorem Idle.of_same (idle : engine.Idle) {other : Engine} (scopes : other.scopes = engine.scopes)
    (libraries : other.libraries = engine.libraries)
    (document : other.document = engine.document) (buffer : other.buffer = engine.buffer) :
    other.Idle := by
  refine ⟨⟨?_, ?_⟩, document.trans idle.document, buffer.trans idle.buffer⟩
  · rw [scopes]
    exact idle.sane.scopes
  · rw [libraries]
    exact idle.sane.libraries

theorem interpreted_text (fuel : Nat) (text : String) (idle : engine.Idle) :
    Interpreted (parseTextWithin fuel text engine) :=
  interpreted_interpret fuel (idle.of_same rfl rfl rfl rfl)

/-- A file that cannot be read leaves the engine as it was.  Otherwise its text is
interpreted: until then the engine may only get another name for its job, a report and the
text. -/
theorem parseFileWithin_eq (fuel : Nat) (path : String) (engine : Engine) :
    (∃ error, parseFileWithin fuel path engine = .error error engine) ∨
      ∃ started : Engine, parseFileWithin fuel path engine = interpret fuel started ∧
        (engine.Idle → started.Idle) := by
  cases isRead : engine.files.tree.read path with
  | error fault =>
      have fails : parseFileWithin fuel path engine = .error ⟨.unreadable fault, none⟩ engine := by
        simp only [parseFileWithin, bind, EStateM.bind, get_run, isRead]
        rfl
      exact .inl ⟨_, fails⟩
  | ok text =>
      right
      simp only [parseFileWithin, bind, EStateM.bind, get_run, isRead]
      refine ⟨_, rfl, fun idle => ?_⟩
      apply idle.of_same
      all_goals
        dsimp only
        split
        · rfl
        · rfl

theorem interpreted_file (fuel : Nat) (path : String) (idle : engine.Idle) :
    Interpreted (parseFileWithin fuel path engine) := by
  rcases parseFileWithin_eq fuel path engine with ⟨error, fails⟩ | ⟨started, parses, idles⟩
  · rw [fails]
    refine ⟨?_, idle⟩
    intro document equal
    cases equal
  · rw [parses]
    exact interpreted_interpret fuel (idles idle)

theorem Used.idle (used : engine.Used) : engine.Idle := by
  induction used with
  | fresh settings files date => exact idle_fresh settings files date
  | text used fuel text ih => exact (interpreted_text fuel text ih).idle
  | file used fuel path ih => exact (interpreted_file fuel path ih).idle

/-- The engine returns the document for some text or file. -/
def Returns (engine : Engine) (document : Document) : Prop :=
  ∃ fuel, (∃ text, document? (parseTextWithin fuel text engine) = some document) ∨
    ∃ path, document? (parseFileWithin fuel path engine) = some document

theorem Used.returned (used : engine.Used) {document : Document}
    (returns : engine.Returns document) : Returned document := by
  obtain ⟨fuel, ⟨text, success⟩ | ⟨path, success⟩⟩ := returns
  · exact (interpreted_text fuel text used.idle).returned document success
  · exact (interpreted_file fuel path used.idle).returned document success

end Engine

end TexTree
