import TexTree.Proofs.Document.Gauge
import TexTree.Proofs.Engine.Fragments

/-!
# What a node holds while it is filled

A node that is filled takes up texts and nodes, one after the other.  Each of them
contributes behind what the node has gathered already (`Gathering`), and reading the next
item changes nothing in it.

Regrouping leaves a node alone in which no paragraph break has been taken up (`Holding`).
-/

namespace TexTree

namespace Document

/-- A node without a paragraph break among its children. -/
def Unbroken (document : Document) (id : NodeId) : Prop :=
  ∀ child ∈ document.children id, (document.node child).level ≠ Level.par

/-- Without paragraph breaks there is nothing to regroup. -/
theorem Unbroken.paragraphs {document : Document} {id : NodeId}
    (unbroken : document.Unbroken id) : document.paragraphs id false = document := by
  have none : (document.children id).any (fun child =>
      (document.node child).level = Level.par) = false := by
    simpa [Unbroken] using unbroken
  simp [Document.paragraphs, none]

end Document

namespace Engine

variable {β : Type} {tally : Tally β} {gauge : Gauge β} {start engine after : Engine}
  {id next : NodeId} {content : List β}

namespace Filling

/-- While a node is filled, other nodes that are read too early stay as they are. -/
theorem ne_of_buffer (filling : Filling start id engine) {other : NodeId}
    (early : other ∈ engine.buffer) : other ≠ id :=
  Nat.ne_of_gt (Nat.lt_of_lt_of_le filling.old (filling.new other early))

/-- The node stays free while another one is digested. -/
theorem free_of_digested (filling : Filling start id engine) (new : start.document.size ≤ next)
    (digested : engine.Digested next after) :
    id < after.document.size ∧ after.document.parent? id = none ∧ next ≠ id := by
  have different : next ≠ id := Nat.ne_of_gt (Nat.lt_of_lt_of_le filling.old new)
  refine ⟨Nat.lt_of_lt_of_le filling.inside digested.ext.size_le, ?_, different⟩
  rw [digested.ext.parents id filling.inside
    (Document.Extends.untouched_of_free filling.free (by simpa using different))]
  exact filling.free

/-- A node that has been digested contributes behind what the node holds. -/
theorem within_append (filling : Filling start id engine) (ready : engine.document.Ready next)
    (new : start.document.size ≤ next) (digested : engine.Digested next after) :
    (after.document.append id next).within tally id =
      engine.document.within tally id ++ after.document.gauged tally next := by
  obtain ⟨inside, free, different⟩ := filling.free_of_digested new digested
  have sound := digested.waiting.orderly.sound
  have kept : after.document.within tally id = engine.document.within tally id := by
    apply digested.ext.within filling.waiting.orderly.sound sound filling.inside
    intro node isNode
    rw [← Option.some.inj isNode]
    exact ⟨ready.free, filling.free, different⟩
  rw [sound.within_append inside free digested.ready.inside digested.ready.free
    digested.ready.whole different, kept]

/-- Digesting and appending another node keeps the kind of the node. -/
theorem kind_append (filling : Filling start id engine) (new : start.document.size ≤ next)
    (digested : engine.Digested next after) :
    ((after.document.append id next).node id).kind = (engine.document.node id).kind := by
  obtain ⟨_, _, different⟩ := filling.free_of_digested new digested
  have untouched : engine.document.Untouched (some next) id :=
    Document.Extends.untouched_of_free filling.free (by simpa using different)
  rw [Node.kind_eq_of_core_eq (Document.core_append _ _ _ _),
    Node.kind_eq_of_essence_eq (digested.ext.essence id filling.inside untouched)]

/-- Producing the next item keeps what the node holds. -/
theorem within_produced (filling : Filling start id engine) {item : Option Item}
    (produced : engine.Produced item after) :
    after.document.within tally id = engine.document.within tally id :=
  produced.grown.ext.within filling.waiting.orderly.sound produced.grown.steady.orderly.sound
    filling.inside (by simp)

/-- Producing the next item keeps the kind of the node. -/
theorem kind_produced (filling : Filling start id engine) {item : Option Item}
    (produced : engine.Produced item after) :
    (after.document.node id).kind = (engine.document.node id).kind :=
  Node.kind_eq_of_essence_eq
    (produced.grown.ext.essence id filling.inside (Document.untouched_none _ _))

end Filling

/-- A node is filled, and it has gathered what contributes the given list. -/
structure Gathering (tally : Tally β) (start : Engine) (id : NodeId) (content : List β)
    (engine : Engine) : Prop where
  filling : Filling start id engine
  kind : (engine.document.node id).kind = (start.document.node id).kind
  within : engine.document.within tally id = content

/-- A node without children and without a parent has gathered nothing. -/
theorem Steady.gathering (steady : engine.Steady) (inside : id < engine.document.size)
    (free : engine.document.parent? id = none) (childless : engine.document.children id = []) :
    Gathering tally engine id [] engine where
  filling := steady.filling inside free
  kind := rfl
  within := Document.within_of_childless childless

namespace Gathering

/-- Producing the next item changes nothing in the node. -/
theorem produce (gathering : Gathering tally start id content engine) {item : Option Item}
    (produced : engine.Produced item after) : Gathering tally start id content after where
  filling := gathering.filling.produce produced
  kind := (gathering.filling.kind_produced produced).trans gathering.kind
  within := (gathering.filling.within_produced produced).trans gathering.within

/-- A text is taken up. -/
theorem appendText (gathering : Gathering tally start id content engine) (text : String) :
    Gathering tally start id (content ++ tally.spelled text)
      { engine with document := engine.document.appendText id text } := by
  have filling := gathering.filling
  have sound := filling.waiting.orderly.sound
  constructor
  · exact filling.appendText text
  · exact (sound.kind_appendText filling.inside text).trans gathering.kind
  · exact (sound.within_appendText filling.inside filling.free text).trans
      (congrArg (· ++ tally.spelled text) gathering.within)

/-- A node that has been digested is taken up. -/
theorem append (gathering : Gathering tally start id content engine)
    (ready : engine.document.Ready next) (new : start.document.size ≤ next)
    (suits : engine.document.Suits id next) (digested : engine.Digested next after) :
    Gathering tally start id (content ++ after.document.gauged tally next)
      { after with document := after.document.append id next } := by
  have filling := gathering.filling
  constructor
  · exact filling.digestAndAppend new ready suits digested
  · exact (filling.kind_append new digested).trans gathering.kind
  · exact (filling.within_append ready new digested).trans
      (congrArg (· ++ _) gathering.within)

end Gathering

/-- A node has gathered what contributes the given list.  Unless it is an environment, no
paragraph break has been taken up. -/
structure Holding (gauge : Gauge β) (start : Engine) (id : NodeId) (content : List β)
    (engine : Engine) : Prop extends Gathering gauge start id content engine where
  unbroken : (start.document.node id).digest ≠ .environment → engine.document.Unbroken id

/-- A node without children and without a parent holds nothing. -/
theorem Steady.holding (steady : engine.Steady) (inside : id < engine.document.size)
    (free : engine.document.parent? id = none) (childless : engine.document.children id = []) :
    Holding gauge engine id [] engine where
  toGathering := steady.gathering inside free childless
  unbroken _ child member := by
    rw [childless] at member
    cases member

namespace Holding

/-- Producing the next item changes nothing in the node. -/
theorem produce (holding : Holding gauge start id content engine) {item : Option Item}
    (produced : engine.Produced item after) : Holding gauge start id content after where
  toGathering := holding.toGathering.produce produced
  unbroken notEnvironment child member := by
    have ext := produced.grown.ext
    have filling := holding.filling
    rw [ext.children id filling.inside (Document.untouched_none engine.document id)] at member
    have inner := filling.waiting.orderly.sound.lt_size member
    rw [Node.level_eq_of_traits_eq (ext.traits child inner)]
    exact holding.unbroken notEnvironment child member

/-- A text is taken up. -/
theorem appendText (holding : Holding gauge start id content engine) (text : String) :
    Holding gauge start id (content ++ gauge.spelled text)
      { engine with document := engine.document.appendText id text } where
  toGathering := holding.toGathering.appendText text
  unbroken notEnvironment child member := by
    have filling := holding.filling
    have appended := Document.textAppended filling.inside text
    rcases appended.mem child member with old | ⟨_, other, core⟩
    · have inner := filling.waiting.orderly.sound.lt_size old
      rw [Node.level_eq_of_traits_eq (appended.traits child inner)]
      exact holding.unbroken notEnvironment child old
    · rw [Node.level_eq_of_traits_eq (Node.traits_eq_of_core_eq core)]
      simp [Document.textNode, Level.command, Level.par]

/-- A node that has been digested is taken up. -/
theorem append (holding : Holding gauge start id content engine)
    (ready : engine.document.Ready next) (new : start.document.size ≤ next)
    (suits : engine.document.Suits id next) (digested : engine.Digested next after)
    (level : (after.document.node next).level ≠ Level.par) :
    Holding gauge start id (content ++ after.document.gauged gauge next)
      { after with document := after.document.append id next } where
  toGathering := holding.toGathering.append ready new suits digested
  unbroken notEnvironment child member := by
    have filling := holding.filling
    obtain ⟨inside, _, different⟩ := filling.free_of_digested new digested
    have untouched : engine.document.Untouched (some next) id :=
      Document.Extends.untouched_of_free filling.free (by simpa using different)
    have core := Document.core_append after.document id next child
    rw [Document.append_of_not_fragment digested.ready.whole, Document.children_attach inside,
      Document.detach_of_parent?_eq_none digested.ready.free, if_pos rfl,
      digested.ext.children id filling.inside untouched] at member
    rw [Node.level_eq_of_traits_eq (Node.traits_eq_of_core_eq core)]
    rcases List.mem_append.mp member with old | isNext
    · have inner := filling.waiting.orderly.sound.lt_size old
      rw [Node.level_eq_of_traits_eq (digested.ext.traits child inner)]
      exact holding.unbroken notEnvironment child old
    · rw [List.mem_singleton.mp isNext]
      exact level

end Holding

end Engine

end TexTree
