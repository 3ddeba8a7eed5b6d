import TexTree.Proofs.Engine.Filling
import TexTree.Proofs.Engine.Numbering

/-!
# Lists that are collected

While a node takes up lists, more and more nodes get their numbers.  What the node has
collected so far is therefore known for every assignment of numbers that agrees with the
document (`Engine.Collects`).  Whatever happens to the document afterwards keeps the numbers
that it has, so that nothing that has been collected is lost.

A node that has been created and read, but not taken up, is as it was when it was created
(`Document.Created`).
-/

namespace TexTree

namespace Document

variable {document after : Document} {own : Option NodeId} {id parent child : NodeId} {data : Node}

/-- A node has been created with the given data, and has taken up nothing since. -/
structure Created (document : Document) (id : NodeId) (data : Node) : Prop where
  essence : (document.node id).essence = data.essence
  number : (document.node id).number = data.number
  childless : document.children id = []

/-- A node that is created is as it is created. -/
theorem created_create (document : Document) (childless : data.children = []) :
    (document.create data).2.Created document.size data where
  essence := by rw [node_create_self]
  number := by rw [node_create_self]
  childless := by rw [children_create childless, children_of_size_le (Nat.le_refl _)]

namespace Created

theorem traits (created : document.Created id data) :
    (document.node id).traits = data.traits :=
  Node.traits_eq_of_essence_eq created.essence

/-- A node stays as it was created while another one is worked on. -/
theorem elsewhere (created : document.Created id data) (ext : Extends own document after)
    (keeps : document.KeepsNumbers after) (inside : id < document.size)
    (free : document.parent? id = none) (other : own ≠ some id) : after.Created id data := by
  have untouched := Extends.untouched_of_free free other
  refine ⟨?_, ?_, ?_⟩
  · rw [ext.essence id inside untouched, created.essence]
  · rw [keeps.number id inside, created.number]
  · rw [ext.children id inside untouched, created.childless]

/-- A node stays as it was created while another one is regrouped. -/
theorem paragraphs (created : document.Created id data) (sound : document.Sound)
    (ready : document.Ready id) (inside : parent < document.size) (other : id ≠ parent)
    (force : Bool) : (document.paragraphs parent force).Created id data := by
  have keeps := sound.keepsNumbers_paragraphs inside force
  rcases sound.paragraphs inside force with same | ⟨parts, regrouped⟩
  · rw [same]
    exact created
  · have ext : Extends (some parent) document (document.paragraphs parent force) :=
      .of_regrouped (.refl _) sound regrouped
    refine created.elsewhere ext keeps ready.inside ready.free ?_
    simpa using Ne.symm other

/-- A node stays as it was created while others are linked. -/
theorem append (created : document.Created id data) (inside : parent < document.size)
    (ready : document.Ready child) (other : id ≠ parent) :
    (document.append parent child).Created id data := by
  have core := core_append document parent child id
  refine ⟨?_, ?_, ?_⟩
  · rw [Node.essence_eq_of_core_eq core, created.essence]
  · rw [number_eq_of_core_eq core, created.number]
  · rw [append_of_not_fragment ready.whole, children_attach inside,
      detach_of_parent?_eq_none ready.free, if_neg other, List.append_nil, created.childless]

end Created

/-- A document gives its nodes the numbers that it has. -/
theorem agrees_number (document : Document) :
    document.Agrees fun id => (document.node id).number :=
  fun _ _ => rfl

end Document

namespace Engine

variable {start engine after : Engine} {id next : NodeId} {item : Option Item}
  {content more : List (Numbered (Option String))}

/-- A node has collected the given lists and items, since an earlier engine. -/
structure Collects (start : Engine) (id : NodeId) (content : List (Numbered (Option String)))
    (engine : Engine) : Prop where
  keeps : start.document.KeepsNumbers engine.document
  gathering : ∀ number, engine.document.Agrees number →
    Gathering (.numbered number) start id content engine

/-- In a later document, a node contains the given lists and items. -/
structure Contains (start : Engine) (id : NodeId) (content : List (Numbered (Option String)))
    (document : Document) : Prop where
  keeps : start.document.KeepsNumbers document
  kind : (document.node id).kind = (start.document.node id).kind
  within : ∀ number, document.Agrees number → document.within (.numbered number) id = content

/-- A node that holds nothing has collected nothing. -/
theorem Steady.collects (steady : engine.Steady) (inside : id < engine.document.size)
    (free : engine.document.parent? id = none) (childless : engine.document.children id = []) :
    Collects engine id [] engine where
  keeps := .refl _
  gathering _ _ := steady.gathering inside free childless

namespace Collects

theorem filling (collects : Collects start id content engine) : Filling start id engine :=
  (collects.gathering _ engine.document.agrees_number).filling

theorem kind (collects : Collects start id content engine) :
    (engine.document.node id).kind = (start.document.node id).kind :=
  (collects.gathering _ engine.document.agrees_number).kind

/-- The next item is produced. -/
theorem produce (collects : Collects start id content engine)
    (produced : engine.Produced item after)
    (keeps : engine.document.KeepsNumbers after.document) :
    Collects start id content after where
  keeps := collects.keeps.trans keeps
  gathering number agrees :=
    (collects.gathering number (keeps.agrees agrees)).produce produced

/-- Texts have no lists. -/
theorem appendText (collects : Collects start id content engine) (text : String) :
    Collects start id content
      { engine with document := engine.document.appendText id text } where
  keeps := collects.keeps.trans (engine.document.keepsNumbers_appendText id text)
  gathering number agrees := by
    have keeps := engine.document.keepsNumbers_appendText id text
    have gathering := (collects.gathering number (keeps.agrees agrees)).appendText text
    rwa [show (Tally.numbered number).spelled text = [] from rfl, List.append_nil] at gathering

/-- A node that has been digested is taken up with what it has collected. -/
theorem append (collects : Collects start id content engine)
    (ready : engine.document.Ready next) (new : start.document.size ≤ next)
    (suits : engine.document.Suits id next) (digested : engine.Digested next after)
    (keeps : engine.document.KeepsNumbers after.document)
    (gauged : ∀ number, after.document.Agrees number →
      after.document.gauged (.numbered number) next = more) :
    Collects start id (content ++ more)
      { after with document := after.document.append id next } where
  keeps := (collects.keeps.trans keeps).trans (after.document.keepsNumbers_append id next)
  gathering number agrees := by
    have before := (after.document.keepsNumbers_append id next).agrees agrees
    rw [← gauged number before]
    exact (collects.gathering number (keeps.agrees before)).append ready new suits digested

/-- A node that ends what comes before it is kept for the node around. -/
theorem keep (collects : Collects start id content engine) (steady : engine.Steady)
    (ready : engine.document.Ready next) (new : start.document.size ≤ next) :
    Collects start id content { engine with buffer := next :: engine.buffer } where
  keeps := collects.keeps
  gathering number agrees :=
    have gathering := collects.gathering number agrees
    ⟨gathering.filling.keep steady ready new, gathering.kind, gathering.within⟩

/-- What has been collected is what the node contains. -/
theorem contains (collects : Collects start id content engine) :
    Contains start id content engine.document :=
  ⟨collects.keeps, collects.kind, fun number agrees => (collects.gathering number agrees).within⟩

/-- Regrouping changes nothing in it. -/
theorem contains_paragraphs (collects : Collects start id content engine) (force : Bool) :
    Contains start id content (engine.document.paragraphs id force) := by
  have inside := collects.filling.inside
  have orderly := collects.filling.waiting.orderly
  have keeps := orderly.sound.keepsNumbers_paragraphs inside force
  refine ⟨collects.keeps.trans keeps, ?_, fun number agrees => ?_⟩
  · rw [← collects.kind]
    rcases orderly.sound.paragraphs inside force with same | ⟨parts, regrouped⟩
    · rw [same]
    · exact Node.kind_eq_of_core_eq (regrouped.core id inside)
  · rw [orderly.sound.within_paragraphs (Tally.ignoresParagraphs_numbered number)
      orderly.textsInline inside force]
    exact (collects.gathering number (keeps.agrees agrees)).within

end Collects

end Engine

end TexTree
