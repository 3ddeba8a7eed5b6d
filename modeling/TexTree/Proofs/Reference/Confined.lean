import TexTree.Proofs.Engine.Session

/-!
# References stay in their document

Labels and references are kept from one source to the next, together with the
indices of the nodes that they were made for.  What a source adds to them concerns
nodes of its own document: a node that is labelled, numbered or refers to a label
has been made before.

The invariant is `Engine.Confined`: apart from what is left over from earlier
sources, all labels and references concern nodes that are in the document.
`Confining` says of a computation that it keeps the invariant, and what is known
about its result in terms of the size that the document has by then.
-/

namespace TexTree

namespace References

/-- The targets that references may have in a document of the given size, if some
labels are left over. -/
def Allowed (old : References) (bound : Nat) (label : String) (target : NodeId) : Prop :=
  target < bound ∨ old.labels.get? label = some target

/-- What is known about labels and references in a document of the given size, if some
of them are left over. -/
structure Confined (old : References) (bound : Nat) (references : References) : Prop where
  labels : ∀ label target, references.labels.get? label = some target →
    old.Allowed bound label target
  pending : ∀ label waiting, references.pending.get? label = some waiting →
    ∀ entry ∈ waiting, entry.1 < bound ∨ entry ∈ (old.pending.get? label).getD []
  current : ∀ target, references.current = some target → target < bound

variable {old references : References} {bound later : Nat} {document : Document}

theorem Allowed.mono {label : String} {target : NodeId} (allowed : old.Allowed bound label target)
    (larger : bound ≤ later) : old.Allowed later label target :=
  allowed.imp (Nat.lt_of_lt_of_le · larger) id

theorem Confined.mono (confined : Confined old bound references) (larger : bound ≤ later) :
    Confined old later references where
  labels label target found := (confined.labels label target found).mono larger
  pending label waiting found entry member :=
    (confined.pending label waiting found entry member).imp (Nat.lt_of_lt_of_le · larger) id
  current target isCurrent := Nat.lt_of_lt_of_le (confined.current target isCurrent) larger

/-- Completed references have the node of the label as their target. -/
theorem refers_complete {allowed : String → NodeId → Prop} {label : String} {target : NodeId}
    (isAllowed : allowed label target) (waiting : List (NodeId × String))
    (refers : document.Refers allowed) :
    (complete document label target waiting).Refers allowed := by
  induction waiting generalizing document with
  | nil => exact refers
  | cons entry rest ih =>
      apply ih
      apply refers.setAttribute
      apply Value.targets_reference
      intro node equal
      exact Option.some.inj equal ▸ isAllowed

/-- A label is attached to the current node, which is in the document. -/
theorem Confined.attach (confined : Confined old document.size references)
    (refers : document.Refers (old.Allowed document.size)) {text : String}
    {references' : References} {document' : Document} {reports : List LogEntry}
    (attached : references.attach document text none = (references', document', reports)) :
    document'.size = document.size ∧ Confined old document.size references' ∧
      document'.Refers (old.Allowed document.size) := by
  unfold References.attach at attached
  dsimp only at attached
  split at attached
  · cases attached
    exact ⟨rfl, confined, refers⟩
  · split at attached
    · cases attached
      exact ⟨rfl, confined, refers⟩
    · next target isCurrent =>
        cases attached
        have inside : target < document.size := confined.current target (by simpa using isCurrent)
        refine ⟨by simp, ⟨?_, ?_, confined.current⟩, ?_⟩
        · intro label node found
          rw [Table.get?_insert] at found
          split at found
          · exact .inl (Option.some.inj found ▸ inside)
          · exact confined.labels label node found
        · intro label waiting found
          exact confined.pending label waiting (Table.get?_of_get?_erase found)
        · refine refers_complete (Or.inl inside) _ ?_
          exact refers.of_keeps (.modify _ _ fun _ => rfl)

/-- A node of the document may refer to any label. -/
theorem Confined.refer (confined : Confined old document.size references)
    (refers : document.Refers (old.Allowed document.size)) {node : NodeId}
    (inside : node < document.size) {field text : String} {references' : References}
    {document' : Document}
    (referred : references.refer document node field text = (references', document')) :
    document'.size = document.size ∧ Confined old document.size references' ∧
      document'.Refers (old.Allowed document.size) := by
  unfold References.refer at referred
  dsimp only at referred
  split at referred
  · cases referred
    exact ⟨rfl, confined, refers⟩
  · cases referred
    refine ⟨Document.size_modify _ _ _, ⟨confined.labels, ?_, confined.current⟩, ?_⟩
    · intro label waiting found
      dsimp only at found
      split at found
      · rw [Table.get?_insert] at found
        split at found
        · next same =>
            subst same
            rw [← Option.some.inj found]
            intro entry member
            rcases List.mem_append.mp member with early | new
            · cases known : references.pending.get? (Text.trim text) with
              | none => simp [known] at early
              | some list =>
                  exact confined.pending _ list known entry (by simpa [known] using early)
            · rw [List.mem_singleton.mp new]
              exact .inl inside
        · exact confined.pending label waiting found
      · exact confined.pending label waiting found
    · apply refers.setAttribute
      apply Value.targets_reference
      intro target found
      exact confined.labels _ target found

end References

namespace Engine

/-- The references of the engine stay in its document, apart from those that are left
over. -/
structure Confined (old : References) (engine : Engine) : Prop where
  sane : engine.Sane
  references : old.Confined engine.document.size engine.references
  document : engine.document.Refers (old.Allowed engine.document.size)

variable {old : References} {engine after : Engine}

/-- Documents may get new nodes as long as the attributes are kept. -/
theorem Confined.setDocument (confined : engine.Confined old) {document : Document}
    (keeps : engine.document.KeepsAttributes document) :
    Confined old { engine with document } where
  sane := ⟨confined.sane.scopes, confined.sane.libraries⟩
  references := confined.references.mono keeps.size_le
  document := (confined.document.of_keeps keeps).mono
    fun _ _ allowed => allowed.mono keeps.size_le

/-- A change that does not concern the document, the references and the elements. -/
theorem Confined.same (confined : engine.Confined old)
    (scopes : engine.scopes.Regular → after.scopes.Regular)
    (libraries : after.libraries = engine.libraries)
    (references : after.references = engine.references)
    (document : after.document = engine.document) : after.Confined old where
  sane := ⟨scopes confined.sane.scopes, by rw [libraries]; exact confined.sane.libraries⟩
  references := by
    rw [references, document]
    exact confined.references
  document := by
    rw [document]
    exact confined.document

theorem Quiet.references {before after : Engine} (quiet : before.Quiet after) :
    after.references = before.references := by
  have same := congrArg Engine.references quiet.1
  exact same

theorem Confined.quiet (confined : engine.Confined old) (quiet : engine.Quiet after) :
    after.Confined old := by
  refine confined.same quiet.2.2 ?_ quiet.references quiet.document
  have same := congrArg Engine.libraries quiet.1
  exact same

/-- A computation that keeps references where they belong, in documents that have at
least the given size.  Its result is as stated for the size that the document has
then. -/
def Confining {α : Type} (old : References) (bound : Nat) (holds : α → Nat → Prop)
    (computation : TexM α) : Prop :=
  ∀ engine : Engine, bound ≤ engine.document.size → engine.Confined old →
    Sat computation engine fun value after =>
      engine.document.size ≤ after.document.size ∧ after.Confined old ∧
        holds value after.document.size

/-- A computation that keeps references where they belong. -/
abbrev Keeping {α : Type} (old : References) (bound : Nat) (computation : TexM α) : Prop :=
  Confining old bound (fun _ _ => True) computation

/-- A computation whose result is a node of the document. -/
abbrev Locating (old : References) (bound : Nat) (computation : TexM NodeId) : Prop :=
  Confining old bound (fun node size => node < size) computation

namespace Confining

variable {α β : Type} {bound : Nat}

theorem yields {holds : α → Nat → Prop} {value : α}
    (isSo : ∀ size, bound ≤ size → holds value size) : Confining old bound holds (pure value) :=
  fun _ large confined => sat_pure.mpr ⟨Nat.le_refl _, confined, isSo _ large⟩

theorem fail {holds : α → Nat → Prop} (fault : Fault) :
    Confining old bound holds (fail fault) :=
  fun _ _ confined => sat_fail.mpr confined.sane

/-- What follows may use what is known about the result, and that the document has not
become smaller. -/
theorem bind {holds : α → Nat → Prop} {holds' : β → Nat → Prop} {first : TexM α}
    {second : α → TexM β} (confining : Confining old bound holds first)
    (next : ∀ value size, bound ≤ size → holds value size →
      Confining old size holds' (second value)) :
    Confining old bound holds' (first >>= second) := by
  intro engine large confined
  refine (confining engine large confined).bind ?_
  rintro value middle ⟨grown, stillConfined, isSo⟩
  refine (next value _ (Nat.le_trans large grown) isSo middle (Nat.le_refl _) stillConfined).mono ?_
  rintro result last ⟨later, atLast, isSoAtLast⟩
  exact ⟨Nat.le_trans grown later, atLast, isSoAtLast⟩

theorem weaken {holds : α → Nat → Prop} {computation : TexM α}
    (confining : Confining old bound holds computation) : Keeping old bound computation := by
  intro engine large confined
  refine (confining engine large confined).mono ?_
  rintro value last ⟨grown, atLast, _⟩
  exact ⟨grown, atLast, trivial⟩

theorem map {holds : β → Nat → Prop} {change : α → β} {computation : TexM α}
    (confining : Confining old bound (fun value size => holds (change value) size) computation) :
    Confining old bound holds (change <$> computation) :=
  fun engine large confined => sat_map.mpr (confining engine large confined)

theorem done (value : α) : Keeping old bound (pure value) := .yields fun _ _ => trivial

/-- A computation behind one about whose result nothing has to be known. -/
theorem next {holds : β → Nat → Prop} {first : TexM α} {second : α → TexM β}
    (keeping : Keeping old bound first)
    (behind : ∀ value size, bound ≤ size → Confining old size holds (second value)) :
    Confining old bound holds (first >>= second) :=
  Confining.bind keeping fun value size large _ => behind value size large

/-- A node that was in the document is still there behind a computation. -/
theorem nextWith {holds : β → Nat → Prop} {first : TexM α} {second : α → TexM β} {node : NodeId}
    (keeping : Keeping old bound first) (inside : node < bound)
    (behind : ∀ value size, node < size → Confining old size holds (second value)) :
    Confining old bound holds (first >>= second) :=
  keeping.next fun value size large => behind value size (Nat.lt_of_lt_of_le inside large)

theorem quiet {computation : TexM α}
    (isQuiet : ∀ before : Engine, Retains before.Quiet computation) :
    Keeping old bound computation := by
  intro engine _ confined
  refine (Sat.quiet confined.sane (isQuiet engine)).mono ?_
  intro value after quiet
  exact ⟨by rw [quiet.document], confined.quiet quiet, trivial⟩

theorem get : Keeping old bound (get : TexM Engine) :=
  fun _ _ confined => sat_get.mpr ⟨Nat.le_refl _, confined, trivial⟩

theorem nodeOf (id : NodeId) : Keeping old bound (nodeOf id) :=
  fun _ _ confined => sat_nodeOf.mpr ⟨Nat.le_refl _, confined, trivial⟩

/-- A change that does not concern the document, the references and the elements. -/
theorem modify {change : Engine → Engine}
    (scopes : ∀ engine, engine.scopes.Regular → (change engine).scopes.Regular)
    (libraries : ∀ engine, (change engine).libraries = engine.libraries)
    (references : ∀ engine, (change engine).references = engine.references)
    (document : ∀ engine, (change engine).document = engine.document) :
    Keeping old bound (modify change) := by
  intro engine _ confined
  refine sat_modify.mpr ⟨by rw [document], ?_, trivial⟩
  exact confined.same (scopes engine) (libraries engine) (references engine) (document engine)

theorem modifyDocument {change : Document → Document}
    (keeps : ∀ document : Document, document.KeepsAttributes (change document)) :
    Keeping old bound (modifyDocument change) :=
  fun _ _ confined => sat_modify.mpr ⟨(keeps _).size_le, confined.setDocument (keeps _), trivial⟩

theorem modifyNode (id : NodeId) {change : Node → Node}
    (kept : ∀ node, (change node).attributes = node.attributes) :
    Keeping old bound (modifyNode id change) :=
  Confining.modifyDocument fun document => .modify document id kept

/-- A change of a node that does not concern its attributes, before something else. -/
theorem modifying {holds : β → Nat → Prop} {second : TexM β} (id : NodeId)
    {change : Node → Node}
    (behind : ∀ size, bound ≤ size → Confining old size holds second)
    (kept : ∀ node, (change node).attributes = node.attributes) :
    Confining old bound holds (do Engine.modifyNode id change; second) :=
  (modifyNode id kept).next fun _ => behind

theorem recordDepth (id : NodeId) : Keeping old bound (recordDepth id) :=
  fun engine _ confined => sat_modify.mpr
    ⟨Nat.le_of_eq (Document.size_modify _ _ _).symm,
      confined.setDocument (.modify engine.document id fun _ => rfl), trivial⟩

theorem appendText (id : NodeId) (text : String) : Keeping old bound (appendText id text) :=
  Confining.modifyDocument fun document => .appendText document id text

theorem appendNode (parent child : NodeId) : Keeping old bound (appendNode parent child) :=
  Confining.modifyDocument fun document => .append document parent child

/-- An attribute may get any value whose targets are in the document. -/
theorem setAttribute (id : NodeId) (name : String) {value : Value}
    (within : value.Targets (old.Allowed bound)) :
    Keeping old bound (setAttribute id name value) := by
  intro engine large confined
  have size : (engine.document.setAttribute id name value).size = engine.document.size :=
    Document.size_modify _ _ _
  refine sat_modify.mpr ⟨Nat.le_of_eq size.symm,
    ⟨⟨confined.sane.scopes, confined.sane.libraries⟩, ?_, ?_⟩, trivial⟩
  · change old.Confined (engine.document.setAttribute id name value).size engine.references
    rw [size]
    exact confined.references
  · change Document.Refers (old.Allowed (engine.document.setAttribute id name value).size) _
    rw [size]
    apply confined.document.setAttribute
    exact within.mono fun _ _ allowed => allowed.mono large

/-- Labels are attached to a node of the document. -/
theorem setCurrentLabel {id : NodeId} (inside : id < bound) :
    Keeping old bound (setCurrentLabel (some id)) := by
  intro engine large confined
  refine sat_modify.mpr ⟨Nat.le_refl _,
    ⟨⟨confined.sane.scopes, confined.sane.libraries⟩, ⟨?_, ?_, ?_⟩, confined.document⟩, trivial⟩
  · exact confined.references.labels
  · exact confined.references.pending
  · intro target isCurrent
    exact Option.some.inj isCurrent ▸ Nat.lt_of_lt_of_le inside large

theorem forIn {items : List α} {step : α → TexM β}
    (each : ∀ item ∈ items, ∀ size, bound ≤ size → Keeping old size (step item)) :
    Keeping old bound (forIn items PUnit.unit fun item _ => do
      let _ ← step item
      Pure.pure (ForInStep.yield PUnit.unit)) := by
  induction items generalizing bound with
  | nil => exact done _
  | cons item rest ih =>
      rw [List.forIn_cons]
      apply next (next (each item List.mem_cons_self bound (Nat.le_refl _)) fun _ _ _ => done _)
      intro outcome size large
      cases outcome with
      | done value => exact done value
      | yield value =>
          apply ih
          intro other member size' larger
          exact each other (List.mem_cons_of_mem item member) size' (Nat.le_trans large larger)

theorem forM {items : List α} {step : α → TexM PUnit}
    (each : ∀ item ∈ items, ∀ size, bound ≤ size → Keeping old size (step item)) :
    Keeping old bound (items.forM step) := by
  induction items generalizing bound with
  | nil => exact done _
  | cons item rest ih =>
      apply next (each item List.mem_cons_self bound (Nat.le_refl _))
      intro _ size large
      apply ih
      intro other member size' larger
      exact each other (List.mem_cons_of_mem item member) size' (Nat.le_trans large larger)

end Confining

theorem locating_createElement (bound : Nat) (name : String) (level : Level) (mode : Mode) :
    Locating old bound (createElement name level mode) := by
  intro engine _ confined
  refine sat_modifyGet.mpr ⟨?_, confined.setDocument (.create engine.document rfl), ?_⟩
  · simp [Document.createElement]
  · simp [Document.createElement]

theorem keeping_createFragment (bound : Nat) : Keeping old bound createFragment := by
  intro engine _ confined
  refine sat_modifyGet.mpr ⟨?_, confined.setDocument (.create engine.document rfl), trivial⟩
  simp [Document.createFragment]

end Engine

open Engine

/-- An interpreter whose tasks keep references where they belong. -/
structure Interpreter.Confines (old : References) (interpreter : Interpreter) : Prop where
  calm : interpreter.Calm
  nextItem : Keeping old 0 (interpreter.run .nextItem)
  digest : ∀ node, Keeping old 0 (interpreter.run (.digest node))

namespace Engine

variable {old : References} {interpreter : Interpreter} {bound : Nat}

theorem Confining.larger {α : Type} {holds : α → Nat → Prop} {computation : TexM α} {least : Nat}
    (confining : Confining old least holds computation) (large : least ≤ bound) :
    Confining old bound holds computation :=
  fun engine larger confined => confining engine (Nat.le_trans large larger) confined

end Engine

end TexTree
