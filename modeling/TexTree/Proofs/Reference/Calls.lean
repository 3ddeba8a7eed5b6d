import TexTree.Proofs.Reference.Targets

/-!
# Calls that attach labels and refer to them

Labels are attached and referred to in any order.  What becomes of a reference is described
by the calls alone: `targets` lists the nodes that a label was attached to, in the order of
the calls, and `slotsOf` the places that refer to it.
-/

namespace TexTree

namespace Table

variable {α : Type}

theorem mem_names_iff (table : Table α) (name : String) :
    name ∈ table.names ↔ (table.get? name).isSome = true := by
  simp [names, get?]

end Table

namespace Node

theorem find?_insertAttribute (name other : String) (value : Value)
    (attributes : List (String × Value)) :
    ((insertAttribute name value attributes).find? fun entry => entry.1 == other).map Prod.snd =
      if name = other then some value
      else (attributes.find? fun entry => entry.1 == other).map Prod.snd := by
  induction attributes with
  | nil => by_cases same : name = other <;> simp [insertAttribute, same]
  | cons entry rest ih =>
      obtain ⟨key, stored⟩ := entry
      rw [insertAttribute]
      by_cases found : key = name
      · by_cases same : name = other <;> simp_all
      · by_cases isOther : key = other
        · subst isOther
          simp [found, Ne.symm found]
        · simpa [found, isOther] using ih

end Node

namespace Document

theorem attribute?_setAttribute (document : Document) {id : NodeId} (inside : id < document.size)
    (name : String) (value : Value) (other : NodeId) (field : String) :
    ((document.setAttribute id name value).node other).attribute? field =
      if (id, name) = (other, field) then some value
      else (document.node other).attribute? field := by
  by_cases same : id = other
  · subst same
    rw [setAttribute, node_modify_self _ inside]
    simpa [Node.attribute?] using Node.find?_insertAttribute name field value _
  · rw [setAttribute, node_modify_of_ne _ same]
    simp [same]

end Document

namespace References

/-- The ways to use labels. -/
inductive Call where
  /-- Attach a label to a node, or to the current one if none is given. -/
  | attach (text : String) (node : Option NodeId)
  /-- Let a field of a node refer to a label. -/
  | refer (node : NodeId) (field text : String)
  deriving DecidableEq

namespace Call

/-- The label that a call is about. -/
def label : Call → String
  | .attach text _ => Text.trim text
  | .refer _ _ text => Text.trim text

/-- The node that a call addresses, where labels without a node belong to the given
one. -/
def node? (current : Option NodeId) : Call → Option NodeId
  | .attach _ node => node <|> current
  | .refer node _ _ => some node

/-- The node that a call attaches a label to. -/
def target? (current : Option NodeId) (label : String) : Call → Option NodeId
  | .attach text node => if Text.trim text = label then node <|> current else none
  | .refer _ _ _ => none

/-- The field that a call lets refer to something. -/
def slot? : Call → Option (NodeId × String)
  | .attach _ _ => none
  | .refer node field _ => some (node, field)

/-- The field that a call lets refer to a label. -/
def slotOf? (label : String) : Call → Option (NodeId × String)
  | .attach _ _ => none
  | .refer node field text => if Text.trim text = label then some (node, field) else none

/-- Make a call. -/
def perform (state : References × Document) : Call → References × Document
  | .attach text node =>
      let (references, document, _) := state.1.attach state.2 text node
      (references, document)
  | .refer node field text => state.1.refer state.2 node field text

end Call

/-- Make calls one after the other. -/
def performAll (state : References × Document) (calls : List Call) : References × Document :=
  calls.foldl Call.perform state

/-- The nodes that a label is attached to, in the order of the calls. -/
def targets (current : Option NodeId) (label : String) (calls : List Call) : List NodeId :=
  calls.filterMap (·.target? current label)

/-- The fields that refer to a label, in the order of the calls. -/
def slotsOf (label : String) (calls : List Call) : List (NodeId × String) :=
  calls.filterMap (·.slotOf? label)

/-- The node that a reference between the given calls is completed with: the last one
that the label was attached to before, or else the first one after it. -/
def resolution (current : Option NodeId) (label : String) (before after : List Call) :
    Option NodeId :=
  (targets current label before).getLast? <|> (targets current label after).head?

/-- The fields that wait for a label. -/
def waiting (current : Option NodeId) (label : String) (calls : List Call) :
    List (NodeId × String) :=
  if targets current label calls = [] then slotsOf label calls else []

theorem mem_slotsOf {label : String} {calls : List Call} {node : NodeId} {field : String} :
    (node, field) ∈ slotsOf label calls ↔
      ∃ text, Call.refer node field text ∈ calls ∧ Text.trim text = label := by
  rw [slotsOf, List.mem_filterMap]
  constructor
  · rintro ⟨call, member, isSlot⟩
    cases call with
    | attach text target => simp [Call.slotOf?] at isSlot
    | refer node' field' text =>
        simp only [Call.slotOf?, Option.ite_none_right_eq_some, Option.some.injEq,
          Prod.mk.injEq] at isSlot
        obtain ⟨isLabel, rfl, rfl⟩ := isSlot
        exact ⟨text, member, isLabel⟩
  · rintro ⟨text, member, isLabel⟩
    exact ⟨_, member, by simp [Call.slotOf?, isLabel]⟩

theorem slotsOf_eq_nil {label : String} {calls : List Call} :
    slotsOf label calls = [] ↔ ∀ node field text, Call.refer node field text ∈ calls →
      Text.trim text ≠ label := by
  rw [List.eq_nil_iff_forall_not_mem]
  constructor
  · intro none node field text member isLabel
    exact none (node, field) (mem_slotsOf.mpr ⟨text, member, isLabel⟩)
  · rintro none ⟨node, field⟩ member
    obtain ⟨text, isCall, isLabel⟩ := mem_slotsOf.mp member
    exact none node field text isCall isLabel

/-- A field is referred to by one call only, so that its label is known. -/
theorem mem_slotsOf_iff_of_nodup {before after : List Call} {node : NodeId}
    {field text : String}
    (once : ((before ++ .refer node field text :: after).filterMap Call.slot?).Nodup)
    (label : String) :
    (node, field) ∈ slotsOf label (before ++ .refer node field text :: after) ↔
      Text.trim text = label := by
  constructor
  · intro member
    obtain ⟨other, isCall, isLabel⟩ := mem_slotsOf.mp member
    rw [List.filterMap_append, List.filterMap_cons_some (f := Call.slot?) rfl] at once
    have fresh := (List.nodup_cons.mp (List.perm_middle.nodup_iff.mp once)).1
    rw [← List.filterMap_append] at fresh
    have elsewhere : Call.refer node field other ∉ before ++ after := fun member =>
      fresh (List.mem_filterMap.mpr ⟨_, member, rfl⟩)
    rcases List.mem_append.mp isCall with earlier | later
    · exact absurd (List.mem_append_left after earlier) elsewhere
    · rcases List.mem_cons.mp later with same | later
      · cases same
        exact isLabel
      · exact absurd (List.mem_append_right before later) elsewhere
  · intro isLabel
    exact mem_slotsOf.mpr ⟨text, by simp, isLabel⟩

/-- A field waits for a label if it refers to it and has no node yet. -/
theorem mem_waiting_iff (current : Option NodeId) {before after : List Call} {node : NodeId}
    {field text : String}
    (once : ((before ++ .refer node field text :: after).filterMap Call.slot?).Nodup)
    (label : String) :
    (node, field) ∈ waiting current label (before ++ .refer node field text :: after) ↔
      Text.trim text = label ∧ resolution current label before after = none := by
  have all : targets current label (before ++ .refer node field text :: after) =
      targets current label before ++ targets current label after := by
    simp [targets, Call.target?]
  have isSlot := mem_slotsOf_iff_of_nodup once label
  unfold waiting resolution
  rw [all]
  by_cases unattached : targets current label before ++ targets current label after = []
  · rw [if_pos unattached, isSlot]
    simp [List.append_eq_nil_iff.mp unattached]
  · rw [if_neg unattached]
    rw [List.append_eq_nil_iff] at unattached
    simpa using fun _ => not_and.mp unattached

theorem slot_mem_of_mem_slotsOf {label : String} {calls : List Call} {slot : NodeId × String}
    (member : slot ∈ slotsOf label calls) : slot ∈ calls.filterMap Call.slot? := by
  obtain ⟨text, isCall, _⟩ := mem_slotsOf.mp member
  exact List.mem_filterMap.mpr ⟨_, isCall, rfl⟩

theorem slotsOf_of_mem_waiting {current : Option NodeId} {label : String} {calls : List Call}
    {slot : NodeId × String} (member : slot ∈ waiting current label calls) :
    slot ∈ slotsOf label calls := by
  unfold waiting at member
  split at member
  · exact member
  · cases member

/-! ## One call more -/

/-- A reference among the calls is the last one of them or stands before it. -/
theorem concat_eq_append_cons {calls before after : List Call} {call found : Call}
    (equal : calls ++ [call] = before ++ found :: after) :
    (after = [] ∧ found = call ∧ before = calls) ∨
      ∃ shorter, after = shorter ++ [call] ∧ calls = before ++ found :: shorter := by
  rcases List.eq_nil_or_concat' after with rfl | ⟨shorter, last, rfl⟩
  · obtain ⟨same, isLast⟩ := List.append_inj' equal rfl
    exact .inl ⟨rfl, (List.singleton_inj.mp isLast).symm, same.symm⟩
  · rw [← List.cons_append, ← List.append_assoc] at equal
    obtain ⟨same, isLast⟩ := List.append_inj' equal rfl
    exact .inr ⟨shorter, by rw [List.singleton_inj.mp isLast], same⟩

section Concat

variable (current : Option NodeId) (label : String) (calls before after : List Call) (call : Call)

theorem targets_concat : targets current label (calls ++ [call]) =
    targets current label calls ++ (call.target? current label).toList := by
  rw [targets, List.filterMap_append]
  cases isTarget : call.target? current label <;> simp [targets, isTarget]

theorem slotsOf_concat : slotsOf label (calls ++ [call]) =
    slotsOf label calls ++ (call.slotOf? label).toList := by
  rw [slotsOf, List.filterMap_append]
  cases isSlot : call.slotOf? label <;> simp [slotsOf, isSlot]

/-- A reference that has a node keeps it. -/
theorem resolution_concat : resolution current label before (after ++ [call]) =
    (resolution current label before after <|> call.target? current label) := by
  unfold resolution
  rw [targets_concat, List.head?_append]
  cases call.target? current label <;>
    cases (targets current label before).getLast? <;> simp

end Concat

/-- Completing the references to a label changes the fields that waited for it. -/
theorem attribute?_complete {document : Document} {label : String} {target : NodeId}
    {fields : List (NodeId × String)} (inside : ∀ slot ∈ fields, slot.1 < document.size)
    (node : NodeId) (field : String) :
    ((complete document label target fields).node node).attribute? field =
      if (node, field) ∈ fields then some (.reference label (some target))
      else (document.node node).attribute? field := by
  induction fields generalizing document with
  | nil => simp [complete]
  | cons slot rest ih =>
      have first := inside slot List.mem_cons_self
      have later : ∀ other ∈ rest, other.1 <
          (document.setAttribute slot.1 slot.2 (.reference label (some target))).size := by
        intro other member
        rw [Document.setAttribute, Document.size_modify]
        exact inside other (List.mem_cons_of_mem slot member)
      refine (ih later).trans ?_
      rw [Document.attribute?_setAttribute _ first]
      by_cases isRest : (node, field) ∈ rest
      · simp [isRest]
      · by_cases isFirst : (node, field) = slot
        · simp [isFirst]
        · simp [isRest, isFirst, Ne.symm isFirst]

end References

end TexTree
