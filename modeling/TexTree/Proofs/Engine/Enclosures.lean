import TexTree.Proofs.Engine.Nested

/-!
# Environments without arguments

Lists, environments between paragraphs, formulas and the document are environments that read
no arguments.  They differ in what is special to their ends and to their items; formulas are
also begun and ended by commands of their own.
-/

namespace TexTree

namespace Builtin

/-- The environments that formulas are read in. -/
def formulaNames : List String := ["math", "displaymath"]

/-- The environments without arguments: lists, environments between paragraphs, formulas,
and the document. -/
def enclosureNames : List String := listNames ++ blockNames ++ formulaNames ++ ["document"]

/-- The item of a list.  Only the items of enumerations are numbered. -/
def listItem (name : String) : Element :=
  if name = "enumerate" then { item with hook := some .enumerateItem } else item

/-- The command between paragraphs. -/
def paragraphBreak : Element := { name := "par", level := Level.par }

theorem meaning?_par : meaning? "par" = some (.element paragraphBreak) :=
  meaning?_element (by simp [elements, paragraphBreak]) rfl

/-- What is special to the end of an environment, and to the beginning of a list. -/
def enclosureHook? (name : String) : Option ElementHook :=
  if name ∈ listNames then some .list
  else if name = "document" then some .document
  else none

/-- The environment with the given name. -/
def enclosure (name : String) : Element :=
  { (ElementOf.environment name [] : Element) with
    level := if name = "document" then Level.document else Level.environment
    block := name ∈ listNames ++ blockNames
    math := if name ∈ formulaNames then some true else none
    hook := enclosureHook? name
    locals := if name ∈ listNames then [("item", .element (listItem name))] else [] }

section

variable (name : String)

@[simp] theorem name_enclosure : (enclosure name).name = name := rfl

@[simp] theorem digest_enclosure : (enclosure name).digest = .environment := rfl

@[simp] theorem arguments_enclosure : (enclosure name).arguments = [] := rfl

@[simp] theorem counter_enclosure : (enclosure name).counter = none := rfl

@[simp] theorem fixed_enclosure : (enclosure name).fixed = [] := rfl

@[simp] theorem isEnvironment_enclosure : (enclosure name).isEnvironment = true := rfl

theorem hook_enclosure : (enclosure name).hook = enclosureHook? name := rfl

/-- Only lists know how to begin an item. -/
theorem locals_enclosure :
    (enclosure name).locals =
      if name ∈ listNames then [("item", .element (listItem name))] else [] := rfl

end

theorem level_enclosure {name : String} (other : name ≠ "document") :
    (enclosure name).level = Level.environment := if_neg other

/-- But for the hook, all items are the same. -/
theorem listItem_eq (name : String) :
    listItem name =
      { item with hook := if name = "enumerate" then some .enumerateItem else none } := by
  unfold listItem
  split <;> rfl

theorem ne_document_of_mem {name : String} (isFormula : name ∈ formulaNames) :
    name ≠ "document" := by
  rintro rfl
  revert isFormula
  decide

/-- A formula that is opened by a delimiter is an environment as well. -/
theorem mathEnvironment_eq {name : String} (isFormula : name ∈ formulaNames) :
    Engine.mathEnvironment name = enclosure name := by
  simp only [formulaNames, List.mem_cons, List.not_mem_nil, or_false] at isFormula
  rcases isFormula with rfl | rfl <;>
    simp [enclosure, enclosureHook?, Engine.mathEnvironment, ElementOf.environment, formulaNames,
      listNames, blockNames]

theorem mem_elements_enclosure {name : String} (known : name ∈ enclosureNames) :
    enclosure name ∈ elements := by
  have isDocument : enclosure "document" =
      { (ElementOf.environment "document" [] : Element) with
        level := Level.document, hook := some .document } := by
    simp [enclosure, enclosureHook?, ElementOf.environment, formulaNames, listNames, blockNames]
  simp only [enclosureNames, List.mem_append, List.mem_singleton] at known
  rcases known with ((isList | isBlock) | isFormula) | rfl
  · have isEqual : enclosure name = list name (listItem name) := by
      simp only [listNames, List.mem_cons, List.not_mem_nil, or_false] at isList
      rcases isList with rfl | rfl | rfl <;>
        simp [enclosure, enclosureHook?, list, ElementOf.environment, formulaNames, listNames]
    simp only [listNames, List.mem_cons, List.not_mem_nil, or_false] at isList
    rw [isEqual]
    rcases isList with rfl | rfl | rfl <;> simp [elements, listItem]
  · have isEqual : ∀ name ∈ blockNames, name ∉ listNames ∧ name ≠ "document" ∧
        name ∉ formulaNames := by decide
    obtain ⟨notList, notDocument, notFormula⟩ := isEqual name isBlock
    have isBlockEnvironment : enclosure name = blockEnvironment name := by
      simp [enclosure, enclosureHook?, blockEnvironment, ElementOf.environment, notList,
        notDocument, notFormula, isBlock]
    rw [isBlockEnvironment]
    simp only [elements, List.mem_append, List.mem_map]
    exact .inl (.inl (.inl (.inl (.inr ⟨name, isBlock, rfl⟩))))
  · rw [← mathEnvironment_eq isFormula]
    simp only [formulaNames, List.mem_cons, List.not_mem_nil, or_false] at isFormula
    rcases isFormula with rfl | rfl <;> simp [elements]
  · rw [isDocument]
    simp [elements]

theorem meaning?_enclosure {name : String} (known : name ∈ enclosureNames) :
    meaning? name = some (.element (enclosure name)) :=
  meaning?_element (mem_elements_enclosure known) rfl

end Builtin

/-- Formulas in a line, and formulas of their own. -/
inductive FormulaKind where
  | inline
  | display
  deriving DecidableEq

namespace FormulaKind

/-- The environment of a formula. -/
def name : FormulaKind → String
  | .inline => "math"
  | .display => "displaymath"

/-- The command that opens a formula. -/
def opener : FormulaKind → String
  | .inline => "("
  | .display => "["

/-- The command that closes a formula. -/
def closer : FormulaKind → String
  | .inline => ")"
  | .display => "]"

variable (kind : FormulaKind)

theorem name_mem : kind.name ∈ Builtin.formulaNames := by
  cases kind <;> decide

theorem name_mem_enclosureNames : kind.name ∈ Builtin.enclosureNames :=
  List.mem_append_left _ (List.mem_append_right _ kind.name_mem)

theorem name_ne_document : kind.name ≠ "document" := Builtin.ne_document_of_mem kind.name_mem

theorem meaning?_opener : Builtin.meaning? kind.opener = some (.primitive kind.opener
    (.construction (.openMath kind.name ("\\" ++ kind.opener)))) := by
  cases kind <;>
    (rw [Builtin.meaning?_eq]; rfl)

theorem meaning?_closer : Builtin.meaning? kind.closer =
    some (.primitive kind.closer (.construction (.closeMath kind.name))) := by
  cases kind <;>
    (rw [Builtin.meaning?_eq]; rfl)

end FormulaKind

end TexTree
