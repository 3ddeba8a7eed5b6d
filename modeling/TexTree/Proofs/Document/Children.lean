import TexTree.Proofs.Document.Links

/-!
# Links when text is appended and children are released

Text is appended to the last child if that is a text, and gets a node of its own
otherwise; the links are the same in both cases.  The children of a node can be replaced as
a whole: those that it had are released before the new ones are given to it.
-/

namespace TexTree

namespace Document

/-! ## Appending text -/

/-- The node of a new text. -/
def textNode (content : String) : Node :=
  { kind := .text content, name := "#text", level := Level.command }

/-- Text goes on with a text at the end of its parent, or becomes a new node there. -/
theorem appendText_cases (document : Document) (parent : NodeId) (content : String) :
    (∃ last start, (document.children parent).getLast? = some last ∧
      (document.node last).kind = .text start ∧
      document.appendText parent content =
        document.modify last fun node => { node with kind := .text (start ++ content) }) ∨
    (∀ last start, (document.children parent).getLast? = some last →
      (document.node last).kind ≠ .text start) ∧
      document.appendText parent content =
        (document.create (textNode content)).2.attach parent document.size := by
  simp only [appendText]
  split
  · next last start found =>
      left
      obtain ⟨id, isLast, isText⟩ := Option.bind_eq_some_iff.mp found
      obtain ⟨text, isStart, equal⟩ := Option.map_eq_some_iff.mp isText
      cases equal
      refine ⟨last, start, isLast, ?_, rfl⟩
      unfold Node.text? at isStart
      split at isStart
      · next equal =>
          cases isStart
          exact equal
      · cases isStart
  · next missing =>
      right
      constructor
      · intro last start isLast isText
        simp [isLast, Node.text?, isText] at missing
      · apply append_of_not_fragment
        simp [createText, create, node]

/-- Appending text leaves everything alone but the children of the node and the text
at their end. -/
structure TextAppended (document : Document) (parent : NodeId) (result : Document) : Prop where
  size_le : document.size ≤ result.size
  traits : ∀ id, id < document.size → (result.node id).traits = (document.node id).traits
  fragments : ∀ id, id < document.size →
    ((result.node id).kind = .fragment ↔ (document.node id).kind = .fragment)
  parents : ∀ id, id < document.size → result.parent? id = document.parent? id
  children : ∀ id, id ≠ parent → result.children id = document.children id
  mem : ∀ child ∈ result.children parent, child ∈ document.children parent ∨
    child = document.size ∧ ∃ content, (result.node child).core = (textNode content).core

theorem textAppended {document : Document} {parent : NodeId} (inside : parent < document.size)
    (content : String) : TextAppended document parent (document.appendText parent content) := by
  rcases document.appendText_cases parent content with
    ⟨last, start, isLast, isText, equal⟩ | ⟨_, equal⟩
  · rw [equal]
    have children := children_modify (fun node => { node with kind := .text (start ++ content) })
      (fun _ => rfl) document last
    constructor
    · simp
    · intro id _
      apply traits_modify
      intro node
      rfl
    · intro id _
      rw [node_modify]
      split
      · next same =>
          obtain ⟨rfl, _⟩ := same
          simp [isText]
      · rfl
    · intro id _
      apply parent?_modify
      intro node
      rfl
    · intro id _
      exact children id
    · intro child member
      rw [children] at member
      exact .inl member
  · rw [equal]
    have createdInside : parent < (document.create (textNode content)).2.size := by
      rw [size_create]
      exact Nat.lt_succ_of_lt inside
    have core : ∀ id, id < document.size →
        (((document.create (textNode content)).2.attach parent document.size).node id).core =
          (document.node id).core := by
      intro id old
      rw [core_attach, node_create_of_lt _ old]
    have free : (document.create (textNode content)).2.parent? document.size = none := by
      rw [parent?_create rfl, parent?_of_size_le (Nat.le_refl _)]
    have children : ∀ id,
        ((document.create (textNode content)).2.attach parent document.size).children id =
          document.children id ++ if id = parent then [document.size] else [] := by
      intro id
      rw [children_attach createdInside, detach_of_parent?_eq_none free, children_create rfl]
    constructor
    · simp
    · intro id old
      exact Node.traits_eq_of_core_eq (core id old)
    · intro id old
      rw [Node.kind_eq_of_core_eq (core id old)]
    · intro id old
      rw [parent?_attach (by simp), if_neg (Nat.ne_of_lt old), parent?_create rfl]
    · intro id different
      rw [children, if_neg different, List.append_nil]
    · intro child member
      rw [children, if_pos rfl, List.mem_append, List.mem_singleton] at member
      rcases member with old | rfl
      · exact .inl old
      · refine .inr ⟨rfl, content, ?_⟩
        rw [core_attach, node_create_self]

/-! ## Releasing the children of a node -/

/-- Tell nodes that they have no parent. -/
def orphan (document : Document) (nodes : List NodeId) : Document :=
  nodes.foldl
    (fun document child => document.modify child fun node => { node with parent := none })
    document

theorem orphan_cons (document : Document) (child : NodeId) (rest : List NodeId) :
    document.orphan (child :: rest) =
      (document.modify child fun node => { node with parent := none }).orphan rest := rfl

@[simp] theorem size_orphan (document : Document) (nodes : List NodeId) :
    (document.orphan nodes).size = document.size := by
  induction nodes generalizing document with
  | nil => rfl
  | cons child rest ih => rw [orphan_cons, ih, size_modify]

theorem core_orphan (document : Document) (nodes : List NodeId) (id : NodeId) :
    ((document.orphan nodes).node id).core = (document.node id).core := by
  induction nodes generalizing document with
  | nil => rfl
  | cons child rest ih =>
      rw [orphan_cons, ih, core_modify]
      intro node
      rfl

theorem children_orphan (document : Document) (nodes : List NodeId) (id : NodeId) :
    (document.orphan nodes).children id = document.children id := by
  induction nodes generalizing document with
  | nil => rfl
  | cons child rest ih =>
      rw [orphan_cons, ih, children_modify]
      intro node
      rfl

theorem parent?_orphan (document : Document) (nodes : List NodeId) (id : NodeId) :
    (document.orphan nodes).parent? id =
      if id ∈ nodes then none else document.parent? id := by
  induction nodes generalizing document with
  | nil => rfl
  | cons child rest ih =>
      have step : (document.modify child fun node => { node with parent := none }).parent? id =
          if id = child then none else document.parent? id := by
        simp only [parent?, node_modify]
        by_cases equal : child = id
        · subst equal
          by_cases inside : child < document.size
          · simp [inside]
          · simp [inside, node_of_size_le (Nat.le_of_not_lt inside)]
            rfl
        · simp [equal, Ne.symm equal]
      rw [orphan_cons, ih, step]
      by_cases later : id ∈ rest
      · simp [later]
      · by_cases equal : id = child <;> simp [later, equal]

/-- Take all children from a node. -/
def release (document : Document) (id : NodeId) : Document :=
  (document.modify id fun node => { node with children := [] }).orphan (document.children id)

@[simp] theorem size_release (document : Document) (id : NodeId) :
    (document.release id).size = document.size := by
  simp [release]

theorem core_release (document : Document) (id other : NodeId) :
    ((document.release id).node other).core = (document.node other).core := by
  rw [release, core_orphan, core_modify]
  intro node
  rfl

theorem children_release (document : Document) (id other : NodeId) :
    (document.release id).children other = if other = id then [] else document.children other := by
  rw [release, children_orphan]
  simp only [children, node_modify]
  by_cases equal : id = other
  · subst equal
    by_cases inside : id < document.size
    · simp [inside]
    · simp [inside, node_of_size_le (Nat.le_of_not_lt inside)]
      rfl
  · simp [equal, Ne.symm equal]

theorem parent?_release (document : Document) (id other : NodeId) :
    (document.release id).parent? other =
      if other ∈ document.children id then none else document.parent? other := by
  rw [release, parent?_orphan, parent?_modify]
  intro node
  rfl

/-- Replacing the children of a node releases them and attaches the new ones. -/
theorem setChildren_eq {document : Document} {parent : NodeId} {children : List NodeId}
    (whole : ∀ child ∈ children, (document.node child).kind ≠ .fragment) :
    document.setChildren parent children = (document.release parent).attachAll parent children := by
  have released : ∀ child ∈ children,
      ((document.release parent).node child).kind ≠ .fragment := by
    intro child member
    rw [Node.kind_eq_of_core_eq (core_release ..)]
    exact whole child member
  rw [← foldl_append released]
  rfl

/-- New children that no other node lists are the children afterwards. -/
theorem children_setChildren {document : Document} {parent : NodeId} {children : List NodeId}
    (inside : parent < document.size)
    (whole : ∀ child ∈ children, (document.node child).kind ≠ .fragment)
    (nodup : children.Nodup)
    (unlisted : ∀ child ∈ children, ∀ id, id ≠ parent → child ∉ document.children id)
    (id : NodeId) :
    (document.setChildren parent children).children id =
      if id = parent then children else document.children id := by
  rw [setChildren_eq whole, children_attachAll (by simpa using inside) nodup, children_release]
  · split <;> simp
  · intro child member other
    rw [children_release]
    split
    · exact List.not_mem_nil
    · next different => exact unlisted child member other different

theorem parent?_setChildren {document : Document} {parent : NodeId} {children : List NodeId}
    (whole : ∀ child ∈ children, (document.node child).kind ≠ .fragment)
    (inside : ∀ child ∈ children, child < document.size) (id : NodeId) :
    (document.setChildren parent children).parent? id =
      if id ∈ children then some parent
      else if id ∈ document.children parent then none else document.parent? id := by
  rw [setChildren_eq whole, parent?_attachAll, parent?_release]
  intro child member
  simpa using inside child member

theorem size_setChildren {document : Document} {parent : NodeId} {children : List NodeId}
    (whole : ∀ child ∈ children, (document.node child).kind ≠ .fragment) :
    (document.setChildren parent children).size = document.size := by
  rw [setChildren_eq whole, size_attachAll, size_release]

theorem core_setChildren {document : Document} {parent : NodeId} {children : List NodeId}
    (whole : ∀ child ∈ children, (document.node child).kind ≠ .fragment) (id : NodeId) :
    ((document.setChildren parent children).node id).core = (document.node id).core := by
  rw [setChildren_eq whole, core_attachAll, core_release]

end Document

end TexTree
