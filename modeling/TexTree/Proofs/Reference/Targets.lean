import TexTree.Document.Paragraph
import TexTree.Proofs.Document.Links
import TexTree.Reference

/-!
# The targets of references

A reference is a value of an attribute, possibly inside of a list or a dictionary.
Its target is the index of a node, which means something only together with the
document that the label was attached in.

Attributes are changed by giving one of them another value and in no other way: all
other operations on documents keep the attributes of all nodes
(`Document.KeepsAttributes`), and new nodes have none.
-/

namespace TexTree

namespace Value

mutual

/-- The labels that a value refers to and that are attached to a node, with that
node. -/
def targets : Value → List (String × NodeId)
  | .reference label (some target) => [(label, target)]
  | .list items => targetsOfItems items
  | .dictionary entries => targetsOfEntries entries
  | _ => []

/-- The targets of the items of a list. -/
def targetsOfItems : List Value → List (String × NodeId)
  | [] => []
  | item :: rest => targets item ++ targetsOfItems rest

/-- The targets of the entries of a dictionary. -/
def targetsOfEntries : List (String × Value) → List (String × NodeId)
  | [] => []
  | entry :: rest => targetsOfEntry entry ++ targetsOfEntries rest

/-- The targets of an entry of a dictionary. -/
def targetsOfEntry : String × Value → List (String × NodeId)
  | (_, value) => targets value

end

/-- All targets of the value are allowed. -/
def Targets (allowed : String → NodeId → Prop) (value : Value) : Prop :=
  ∀ reference ∈ value.targets, allowed reference.1 reference.2

theorem Targets.mono {allowed allowed' : String → NodeId → Prop} {value : Value}
    (within : value.Targets allowed)
    (weaken : ∀ label target, allowed label target → allowed' label target) :
    value.Targets allowed' :=
  fun reference member => weaken _ _ (within reference member)

theorem targets_of_eq_nil {allowed : String → NodeId → Prop} {value : Value}
    (plain : value.targets = []) : value.Targets allowed := by
  simp [Targets, plain]

theorem targets_reference {allowed : String → NodeId → Prop} {label : String}
    {target : Option NodeId} (isAllowed : ∀ node, target = some node → allowed label node) :
    (Value.reference label target).Targets allowed := by
  cases target with
  | none => exact targets_of_eq_nil rfl
  | some node =>
      intro reference member
      rw [targets, List.mem_singleton] at member
      rw [member]
      exact isAllowed node rfl

theorem targets_list {allowed : String → NodeId → Prop} {items : List Value}
    (each : ∀ item ∈ items, item.Targets allowed) : (Value.list items).Targets allowed := by
  intro reference member
  change reference ∈ targetsOfItems items at member
  induction items with
  | nil => cases member
  | cons item rest ih =>
      rw [targetsOfItems, List.mem_append] at member
      rcases member with first | later
      · exact each item List.mem_cons_self reference first
      · exact ih (fun other isItem => each other (List.mem_cons_of_mem item isItem)) later

theorem targets_dictionary {allowed : String → NodeId → Prop} {entries : List (String × Value)}
    (each : ∀ entry ∈ entries, entry.2.Targets allowed) :
    (Value.dictionary entries).Targets allowed := by
  intro reference member
  change reference ∈ targetsOfEntries entries at member
  induction entries with
  | nil => cases member
  | cons entry rest ih =>
      rw [targetsOfEntries, targetsOfEntry, List.mem_append] at member
      rcases member with first | later
      · exact each entry List.mem_cons_self reference first
      · exact ih (fun other isEntry => each other (List.mem_cons_of_mem entry isEntry)) later

end Value

theorem Node.mem_insertAttribute {name : String} {value : Value}
    {attributes : List (String × Value)} {entry : String × Value}
    (member : entry ∈ insertAttribute name value attributes) :
    entry.2 = value ∨ entry ∈ attributes := by
  induction attributes with
  | nil =>
      rw [insertAttribute, List.mem_singleton] at member
      exact .inl (by rw [member])
  | cons first rest ih =>
      rw [insertAttribute] at member
      split at member
      · rcases List.mem_cons.mp member with equal | later
        · exact .inl (by rw [equal])
        · exact .inr (List.mem_cons_of_mem first later)
      · rcases List.mem_cons.mp member with equal | later
        · exact .inr (equal ▸ List.mem_cons_self)
        · rcases ih later with same | old
          · exact .inl same
          · exact .inr (List.mem_cons_of_mem first old)

namespace Document

/-- All references of the document have allowed targets. -/
def Refers (allowed : String → NodeId → Prop) (document : Document) : Prop :=
  ∀ id, ∀ entry ∈ (document.node id).attributes, entry.2.Targets allowed

/-- Nodes were added, but no attribute has changed. -/
structure KeepsAttributes (before after : Document) : Prop where
  size_le : before.size ≤ after.size
  attributes : ∀ id, (after.node id).attributes = (before.node id).attributes

variable {before document after : Document} {allowed : String → NodeId → Prop}

theorem Refers.of_keeps (refers : before.Refers allowed) (keeps : before.KeepsAttributes after) :
    after.Refers allowed := by
  intro id entry member
  rw [keeps.attributes] at member
  exact refers id entry member

theorem Refers.mono {allowed' : String → NodeId → Prop} (refers : document.Refers allowed)
    (weaken : ∀ label target, allowed label target → allowed' label target) :
    document.Refers allowed' :=
  fun id entry member => (refers id entry member).mono weaken

theorem Refers.setAttribute (refers : document.Refers allowed) (id : NodeId) (name : String)
    {value : Value} (within : value.Targets allowed) :
    (document.setAttribute id name value).Refers allowed := by
  intro other entry member
  rw [Document.setAttribute, node_modify] at member
  split at member
  · rcases Node.mem_insertAttribute member with equal | old
    · rw [equal]
      exact within
    · exact refers other entry old
  · exact refers other entry member

/-- An attribute that is looked up has allowed targets. -/
theorem Refers.attribute? (refers : document.Refers allowed) {id : NodeId} {name : String}
    {value : Value} (found : (document.node id).attribute? name = some value) :
    value.Targets allowed := by
  obtain ⟨entry, isEntry, rfl⟩ := Option.map_eq_some_iff.mp found
  exact refers id entry (List.mem_of_find?_eq_some isEntry)

namespace KeepsAttributes

theorem refl (document : Document) : document.KeepsAttributes document :=
  ⟨Nat.le_refl _, fun _ => rfl⟩

theorem trans (first : before.KeepsAttributes document)
    (second : document.KeepsAttributes after) : before.KeepsAttributes after :=
  ⟨Nat.le_trans first.size_le second.size_le,
    fun id => (second.attributes id).trans (first.attributes id)⟩

theorem modify (document : Document) (id : NodeId) {change : Node → Node}
    (kept : ∀ node, (change node).attributes = node.attributes) :
    document.KeepsAttributes (document.modify id change) := by
  refine ⟨by simp, fun other => ?_⟩
  rw [node_modify]
  split
  · exact kept _
  · rfl

theorem create (document : Document) {node : Node} (bare : node.attributes = []) :
    document.KeepsAttributes (document.create node).2 := by
  refine ⟨by simp, fun other => ?_⟩
  rw [node_create]
  split
  · next equal =>
      rw [bare, node_of_size_le (Nat.le_of_eq equal.symm)]
      rfl
  · rfl

/-- Moving nodes about changes links only. -/
theorem of_core (sameSize : after.size = before.size)
    (core : ∀ id, (after.node id).core = (before.node id).core) :
    before.KeepsAttributes after := by
  refine ⟨Nat.le_of_eq sameSize.symm, fun id => ?_⟩
  have same := congrArg Node.attributes (core id)
  exact same

theorem append (document : Document) (parent child : NodeId) :
    document.KeepsAttributes (document.append parent child) :=
  of_core (size_append document parent child) (core_append document parent child)

theorem appendText (document : Document) (parent : NodeId) (content : String) :
    document.KeepsAttributes (document.appendText parent content) := by
  unfold Document.appendText
  dsimp only
  split
  · apply modify
    intro node
    rfl
  · exact (create document rfl).trans (append _ _ _)

theorem foldl {α : Type} {step : Document → α → Document}
    (each : ∀ (document : Document) (item : α), document.KeepsAttributes (step document item))
    (items : List α)
    (document : Document) : document.KeepsAttributes (items.foldl step document) := by
  induction items generalizing document with
  | nil => exact refl document
  | cons item rest ih => exact (each document item).trans (ih _)

theorem setChildren (document : Document) (parent : NodeId) (children : List NodeId) :
    document.KeepsAttributes (document.setChildren parent children) := by
  have emptied : document.KeepsAttributes
      (document.modify parent fun node => { node with children := [] }) :=
    modify document parent fun _ => rfl
  refine (emptied.trans (foldl ?_ (document.children parent) _)).trans
    (foldl (fun document child => append document parent child) children _)
  intro document child
  exact modify document child fun _ => rfl

theorem openParagraph (document : Document) (reversed : List NodeId) :
    document.KeepsAttributes (Regrouping.openParagraph document reversed).document :=
  create document rfl

theorem add (state : Regrouping) (child : NodeId) :
    state.document.KeepsAttributes (state.add child).document := by
  unfold Regrouping.add
  dsimp only
  split
  · exact refl _
  · split
    · exact openParagraph _ _
    · exact append _ _ _

theorem paragraphs (document : Document) (id : NodeId) (force : Bool) :
    document.KeepsAttributes (document.paragraphs id force) := by
  have regroups : ∀ (children : List NodeId) (state : Regrouping),
      state.document.KeepsAttributes (children.foldl Regrouping.add state).document := by
    intro children
    induction children with
    | nil => exact fun state => refl _
    | cons child rest ih => exact fun state => (add state child).trans (ih _)
  unfold Document.paragraphs
  dsimp only
  split
  · exact ((openParagraph document []).trans (regroups _ _)).trans (setChildren _ _ _)
  · exact refl document

end KeepsAttributes

end Document

/-- Completing references changes attributes only, so no node is added. -/
@[simp] theorem References.size_complete (document : Document) (label : String) (target : NodeId)
    (waiting : List (NodeId × String)) :
    (References.complete document label target waiting).size = document.size := by
  induction waiting generalizing document with
  | nil => rfl
  | cons entry rest ih => exact (ih _).trans (Document.size_modify _ _ _)

end TexTree
