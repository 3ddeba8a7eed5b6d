import Mathlib.Data.List.Induction
import TexTree.Proofs.Reference.Targets
import TexTree.Session

/-!
# Regular elements

What a node may take up depends on its level and its rule of digestion, and these
come from the element that the node was made for.  An element is regular if the
two fit together: sections stand above paragraphs, paragraph breaks take up
nothing by themselves, and an element that takes its content from an argument
puts no condition on it.  The attributes that all nodes of a regular element have
refer to no node.

All built-in elements are regular (`Builtin.regular_scopes`).  Scopes are regular
if all elements in them are and the outermost scope belongs to no element; opening
and closing scopes, and giving names meanings that are no elements, keeps them so.
-/

namespace TexTree

/-- The level and the rule of digestion of an element fit together. -/
structure ElementOf.Fits {Local : Type} (element : ElementOf Local) : Prop where
  sectioning : element.digest = .sectioning → element.level < Level.endSections
  paragraph : element.level = Level.par → element.digest = .nothing ∨ element.digest = .environment
  content : ∀ argument ∈ element.arguments, argument.kind = .content →
    element.level ≠ Level.environment ∧
      (element.digest = .nothing ∨ element.digest = .environment)
  fixed : ∀ entry ∈ element.fixed, entry.2.targets = []

instance {Local : Type} (element : ElementOf Local) : Decidable element.Fits :=
  decidable_of_iff
    ((element.digest = .sectioning → element.level < Level.endSections) ∧
      (element.level = Level.par →
        element.digest = .nothing ∨ element.digest = .environment) ∧
      (∀ argument ∈ element.arguments, argument.kind = .content →
        element.level ≠ Level.environment ∧
          (element.digest = .nothing ∨ element.digest = .environment)) ∧
      ∀ entry ∈ element.fixed, entry.2.targets = [])
    ⟨fun ⟨sectioning, breaks, content, fixed⟩ => ⟨sectioning, breaks, content, fixed⟩,
      fun fits => ⟨fits.sectioning, fits.paragraph, fits.content, fits.fixed⟩⟩

namespace Command

/-- If the command is an element, it fits together, and so do the elements that it
defines while it is open. -/
inductive Regular : Command → Prop where
  | element (shape : Element) (fits : shape.Fits)
      (locals : ∀ entry ∈ shape.locals, Regular entry.2) : Regular (.element shape)
  | plain (command : Command) (noElement : ∀ shape, command ≠ .element shape) : Regular command

@[simp, grind .] theorem regular_primitive (name : String) (behaviour : Primitive) :
    Regular (.primitive name behaviour) := .plain _ (by simp)

@[simp, grind .] theorem regular_definition (rule : Definition) :
    Regular (.definition rule) := .plain _ (by simp)

@[simp, grind .] theorem regular_environment (name : String) (opening closing : Definition) :
    Regular (.environment name opening closing) := .plain _ (by simp)

@[simp, grind .] theorem regular_switch (name : String) (state : Bool) :
    Regular (.switch name state) := .plain _ (by simp)

@[simp, grind .] theorem regular_switchSetter (target : String) (state : Bool) :
    Regular (.switchSetter target state) := .plain _ (by simp)

@[simp, grind .] theorem regular_printedCounter (counter : String) (template : Template) :
    Regular (.printedCounter counter template) := .plain _ (by simp)

@[simp, grind .] theorem regular_character (value : Char) :
    Regular (.character value) := .plain _ (by simp)

@[simp, grind .] theorem regular_mathCharacter (value : Char) :
    Regular (.mathCharacter value) := .plain _ (by simp)

@[simp, grind .] theorem regular_register (name : String) :
    Regular (.register name) := .plain _ (by simp)

@[simp, grind .] theorem regular_unrecognized (name : String) :
    Regular (.unrecognized name) := .plain _ (by simp)

theorem Regular.fits {shape : Element} (regular : Regular (.element shape)) : shape.Fits := by
  cases regular with
  | element _ fits _ => exact fits
  | plain _ noElement => exact absurd rfl (noElement shape)

theorem Regular.locals {shape : Element} (regular : Regular (.element shape)) :
    ∀ entry ∈ shape.locals, Regular entry.2 := by
  cases regular with
  | element _ _ locals => exact locals
  | plain _ noElement => exact absurd rfl (noElement shape)

end Command

namespace Table

variable {α : Type}

/-- What is looked up in a table with an additional entry is that entry or was there
before. -/
theorem get?_insert_cases {table : Table α} {name other : String} {value found : α}
    (isFound : (table.insert name value).get? other = some found) :
    found = value ∨ table.get? other = some found := by
  rw [get?_insert] at isFound
  split at isFound
  · exact .inl (Option.some.inj isFound).symm
  · exact .inr isFound

theorem get?_of_get?_erase {table : Table α} {name other : String} {found : α}
    (isFound : (table.erase name).get? other = some found) : table.get? other = some found := by
  rw [get?_erase] at isFound
  split at isFound
  · cases isFound
  · exact isFound

/-- What is looked up in a table of entries is one of them. -/
theorem exists_mem_of_get?_ofList {entries : List (String × α)} {name : String} {found : α}
    (isFound : (ofList entries).get? name = some found) : ∃ entry ∈ entries, entry.2 = found := by
  have general : ∀ (entries : List (String × α)) (table : Table α),
      (entries.foldl (fun table entry => table.insert entry.1 entry.2) table).get? name =
        some found →
      (∃ entry ∈ entries, entry.2 = found) ∨ table.get? name = some found := by
    intro entries
    induction entries with
    | nil =>
        intro table inTable
        exact .inr inTable
    | cons entry rest ih =>
        intro table inTable
        rcases ih _ inTable with ⟨later, member, equal⟩ | inserted
        · exact .inl ⟨later, List.mem_cons_of_mem entry member, equal⟩
        · rcases get?_insert_cases inserted with equal | before
          · exact .inl ⟨entry, List.mem_cons_self, equal.symm⟩
          · exact .inr before
  rcases general entries empty isFound with isEntry | impossible
  · exact isEntry
  · cases impossible

/-- A new name gets its place behind the others. -/
theorem insertInto_of_notMem {name : String} (value : α) {entries : List (String × α)}
    (isNew : name ∉ entries.map Prod.fst) :
    insertInto name value entries = entries ++ [(name, value)] := by
  induction entries with
  | nil => rfl
  | cons entry rest ih =>
      rw [List.map_cons, List.mem_cons, not_or] at isNew
      obtain ⟨different, isNew⟩ := isNew
      rw [insertInto, if_neg (by simpa using Ne.symm different), ih isNew, List.cons_append]

/-- Entries with different names make the table that lists them as they are. -/
theorem ofList_of_nodup {entries : List (String × α)}
    (distinct : (entries.map Prod.fst).Nodup) : ofList entries = ⟨entries⟩ := by
  induction entries using List.reverseRecOn with
  | nil => rfl
  | append_singleton entries entry ih =>
      rw [List.map_append, List.nodup_append] at distinct
      obtain ⟨distinct, -, different⟩ := distinct
      have isNew : entry.1 ∉ entries.map Prod.fst :=
        fun member => different _ member entry.1 List.mem_cons_self rfl
      have before := ih distinct
      rw [ofList] at before
      rw [ofList, List.foldl_append, before, List.foldl_cons, List.foldl_nil, insert,
        insertInto_of_notMem _ isNew]

end Table

/-- All elements that the frame knows are regular. -/
def Frame.Regular (frame : Frame) : Prop :=
  ∀ name command, frame.commands.get? name = some command → command.Regular

namespace Frame.Regular

variable {frame : Frame}

theorem bind (regular : frame.Regular) (name : String) {command : Command}
    (isRegular : command.Regular) : (frame.bind name command).Regular := by
  intro other found isFound
  rcases Table.get?_insert_cases isFound with equal | before
  · exact equal ▸ isRegular
  · exact regular other found before

theorem bindAlias (regular : frame.Regular) (name : String) (token : Token) :
    (frame.bindAlias name token).Regular := by
  intro other found isFound
  exact regular other found (Table.get?_of_get?_erase isFound)

theorem forget (regular : frame.Regular) (name : String) : (frame.forget name).Regular := by
  intro other found isFound
  exact regular other found (Table.get?_of_get?_erase isFound)

end Frame.Regular

namespace Scopes

/-- All elements that the scopes know are regular, and the outermost scope belongs to
no element. -/
structure Regular (scopes : Scopes) : Prop where
  frames : ∀ frame ∈ scopes.frames, frame.Regular
  owner : scopes.base.owner = none

theorem regular_iff (scopes : Scopes) :
    scopes.Regular ↔ (∀ frame ∈ scopes.inner, frame.Regular) ∧
      scopes.base.Regular ∧ scopes.base.owner = none := by
  constructor
  · intro regular
    refine ⟨fun frame member => regular.frames frame ?_, regular.frames _ ?_, regular.owner⟩
    · exact List.mem_append_left _ member
    · exact List.mem_append_right _ List.mem_cons_self
  · rintro ⟨inner, base, owner⟩
    refine ⟨fun frame member => ?_, owner⟩
    rcases List.mem_append.mp member with isInner | isBase
    · exact inner frame isInner
    · rw [List.mem_singleton.mp isBase]
      exact base

namespace Regular

variable {scopes : Scopes}

/-- Looking up a name gives a regular command. -/
theorem command? (regular : scopes.Regular) {name : String} {command : Command}
    (found : scopes.command? name = some command) : command.Regular := by
  have regular := regular.frames
  unfold Scopes.command? at found
  generalize scopes.frames = frames at regular found
  induction frames with
  | nil => cases found
  | cons frame rest ih =>
      rw [commandIn] at found
      split at found
      · next inFrame =>
          cases found
          exact regular frame List.mem_cons_self name command inFrame
      · split at found
        · cases found
        · exact ih (fun other member => regular other (List.mem_cons_of_mem frame member)) found

theorem modifyTop (regular : scopes.Regular) {change : Frame → Frame}
    (keeps : ∀ frame : Frame, frame.Regular → (change frame).Regular)
    (owners : ∀ frame, (change frame).owner = frame.owner) :
    (scopes.modifyTop change).Regular := by
  rw [regular_iff] at regular ⊢
  unfold Scopes.modifyTop
  split
  · next empty => exact ⟨regular.1, keeps _ regular.2.1, (owners _).trans regular.2.2⟩
  · next frame rest equal =>
      rw [equal] at regular
      refine ⟨?_, regular.2⟩
      intro other member
      rcases List.mem_cons.mp member with rfl | later
      · exact keeps frame (regular.1 frame List.mem_cons_self)
      · exact regular.1 other (List.mem_cons_of_mem frame later)

/-- Changing the outermost frame, and all others alike, keeps scopes regular. -/
theorem mapInner (regular : scopes.Regular) {change baseChange : Frame → Frame}
    (keeps : ∀ frame : Frame, frame.Regular → (change frame).Regular)
    (keepsBase : ∀ frame : Frame, frame.Regular → (baseChange frame).Regular)
    (owners : ∀ frame, (baseChange frame).owner = frame.owner) :
    Scopes.Regular ⟨scopes.inner.map change, baseChange scopes.base⟩ := by
  rw [regular_iff] at regular ⊢
  refine ⟨?_, keepsBase _ regular.2.1, (owners _).trans regular.2.2⟩
  intro frame member
  obtain ⟨before, isBefore, rfl⟩ := List.mem_map.mp member
  exact keeps before (regular.1 before isBefore)

theorem setCommand (regular : scopes.Regular) (name : String) {command : Command}
    (isRegular : command.Regular) (isGlobal : Bool) :
    (scopes.setCommand name command isGlobal).Regular := by
  unfold Scopes.setCommand
  split
  · exact regular.mapInner (fun _ inner => inner.forget name)
      (fun _ base => base.bind name isRegular) fun _ => rfl
  · exact regular.modifyTop (fun _ top => top.bind name isRegular) fun _ => rfl

theorem setAlias (regular : scopes.Regular) (name : String) (token : Token) (isGlobal : Bool) :
    (scopes.setAlias name token isGlobal).Regular := by
  unfold Scopes.setAlias
  split
  · exact regular.mapInner (fun _ inner => inner.forget name)
      (fun _ base => base.bindAlias name token) fun _ => rfl
  · exact regular.modifyTop (fun _ top => top.bindAlias name token) fun _ => rfl

theorem letToken (regular : scopes.Regular) (name : String) (source : Token) (isGlobal : Bool) :
    (scopes.letToken name source isGlobal).Regular := by
  unfold Scopes.letToken
  split
  · split
    · exact regular.setAlias name _ isGlobal
    · apply regular.setCommand
      cases found : scopes.command? source.text with
      | none => simp
      | some command => exact regular.command? found
  · exact regular.setAlias name _ isGlobal

theorem categorize (regular : scopes.Regular) (character : Char) (category : Category)
    (isGlobal : Bool) : (scopes.categorize character category isGlobal).Regular := by
  have keeps : ∀ frame : Frame, frame.Regular → (frame.categorize character category).Regular :=
    fun _ isRegular => isRegular
  unfold Scopes.categorize
  split
  · exact regular.mapInner keeps keeps fun _ => rfl
  · exact regular.modifyTop keeps fun _ => rfl

theorem bindPlaceholder (regular : scopes.Regular) (name : String) :
    (scopes.bindPlaceholder name).Regular := by
  rw [regular_iff] at regular ⊢
  refine ⟨regular.1, ?_, regular.2.2⟩
  intro other found isFound
  rcases Table.get?_insert_cases isFound with equal | before
  · simp [equal]
  · exact regular.2.1 other found before

/-- Closing scopes keeps the others. -/
theorem of_inner_subset (regular : scopes.Regular) {inner : List Frame}
    (subset : ∀ frame ∈ inner, frame ∈ scopes.inner) :
    Scopes.Regular { scopes with inner } := by
  rw [regular_iff] at regular ⊢
  exact ⟨fun frame member => regular.1 frame (subset frame member), regular.2⟩

theorem push (regular : scopes.Regular) (owner : Option FrameOwner)
    {locals : List (String × Command)} (isRegular : ∀ entry ∈ locals, entry.2.Regular) :
    (scopes.push owner locals).Regular := by
  have top : Frame.Regular ⟨owner, .ofList locals, .empty, scopes.categories⟩ := by
    intro name command found
    obtain ⟨entry, member, equal⟩ := Table.exists_mem_of_get?_ofList found
    exact equal ▸ isRegular entry member
  have below : Scopes.Regular (if (owner.any fun opener => opener.level == Level.document)
      then { scopes with inner := [] } else scopes) := by
    split
    · exact regular.of_inner_subset (by simp)
    · exact regular
  rw [regular_iff] at below ⊢
  refine ⟨?_, below.2⟩
  intro frame member
  rcases List.mem_cons.mp member with rfl | later
  · exact top
  · exact below.1 frame later

theorem pop (regular : scopes.Regular) : scopes.pop.Regular := by
  apply regular.of_inner_subset
  intro frame member
  exact (List.dropWhile_sublist _).subset (List.mem_of_mem_drop member)

theorem popOwner (regular : scopes.Regular) (ending : FrameOwner) (parent : Option NodeId) :
    (scopes.popOwner ending parent).Regular := by
  apply regular.of_inner_subset
  generalize scopes.inner = inner
  induction inner with
  | nil =>
      intro frame member
      exact member
  | cons frame rest ih =>
      intro other member
      rw [closeFrames] at member
      split at member
      · exact member
      · split at member
        · exact List.mem_cons_of_mem frame member
        · exact List.mem_cons_of_mem frame (ih other member)

/-- Elements may be bound in the outermost scope one after the other. -/
theorem bindElements (regular : scopes.Regular) {elements : List Element}
    (each : ∀ element ∈ elements, Command.Regular (.element element)) :
    (elements.foldl (fun scopes element =>
      scopes.setCommand element.name (.element element) true) scopes).Regular := by
  induction elements generalizing scopes with
  | nil => exact regular
  | cons element rest ih =>
      apply ih
      · exact regular.setCommand _ (each element List.mem_cons_self) true
      · exact fun other member => each other (List.mem_cons_of_mem element member)

theorem unwind (regular : scopes.Regular) : scopes.unwind.Regular :=
  regular.of_inner_subset (by simp)

end Regular

end Scopes

namespace Builtin

/-- Whether a command defines no commands of its own, and fits if it is an element. -/
def isFlat : Command → Bool
  | .element shape => decide shape.Fits && shape.locals.isEmpty
  | _ => true

theorem regular_of_isFlat {command : Command} (flat : isFlat command = true) :
    command.Regular := by
  cases command with
  | element shape =>
      simp only [isFlat, Bool.and_eq_true, decide_eq_true_eq, List.isEmpty_iff] at flat
      exact .element shape flat.1 (by simp [flat.2])
  | _ => simp

theorem regular_elements : ∀ element ∈ elements, Command.Regular (.element element) := by
  have checked : ∀ element ∈ elements,
      element.Fits ∧ ∀ entry ∈ element.locals, isFlat entry.2 = true := by decide
  intro element member
  obtain ⟨fits, flat⟩ := checked element member
  exact .element element fits fun entry isLocal => regular_of_isFlat (flat entry isLocal)

theorem regular_commands : ∀ entry ∈ commands, entry.2.Regular := by
  intro entry member
  simp only [commands, List.mem_append, List.mem_map] at member
  rcases member with (((member | member) | member) | member) | member
  all_goals obtain ⟨source, isSource, rfl⟩ := member
  · simp
  · simp
  · simp
  · simp
  · exact regular_elements source isSource

/-- All built-in elements are regular. -/
theorem regular_scopes : scopes.Regular := by
  rw [Scopes.regular_iff]
  refine ⟨List.forall_mem_nil _, ?_, rfl⟩
  intro name command found
  obtain ⟨entry, member, equal⟩ := Table.exists_mem_of_get?_ofList found
  exact equal ▸ regular_commands entry member

/-- No two of the built-in commands have the same name. -/
theorem nodup_names : (commands.map Prod.fst).Nodup := by decide +kernel

/-- The built-in commands are kept as they are listed.  Where an engine is evaluated, no names
have to be compared then to fill its table. -/
theorem scopes_eq :
    scopes =
      { Scopes.initial with base := { Scopes.initial.base with commands := ⟨commands⟩ } } := by
  rw [scopes, Table.ofList_of_nodup nodup_names]

end Builtin

end TexTree
