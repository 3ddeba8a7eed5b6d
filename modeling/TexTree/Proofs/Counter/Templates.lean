import TexTree.Proofs.Counter.Forms
import TexTree.Proofs.Scope.Belonging

/-!
# Printed forms of counters

What a form prints is described by replacing each reference (`Template.Prints`), without the
limit on how deep references are followed and without zeros that are dropped.

The template of a form prints just that, if the counters it refers to are not zero and no chain
of references is longer than the limit (`Template.render_faithful`).  No zero is dropped at any
depth, because a zero in a printed value always stands behind another digit
(`Style.zerosInside_print`).
-/

namespace TexTree

namespace Template

/-! ## Replacing references -/

section

variable {counters : Counters} {formOf : String → Option Template}
  {forms : String → Option Form} {form : Form} {part : Part}

/-- What is printed for a form if its references are replaced: those to counters by the values
in their styles, and those to other forms by what these print. -/
inductive Prints (counters : Counters) (forms : String → Option Form) : Form → List Char → Prop
  | nil : Prints counters forms [] []
  | literal {character : Char} {noWord : Text.isWord character = false}
      {noDollar : character ≠ '$'} {rest : Form} {text : List Char}
      (later : Prints counters forms rest text) :
      Prints counters forms (.literal character noWord noDollar :: rest) (character :: text)
  | short {name : Name} {counter : Counter} {rest : Form} {text : List Char}
      (found : counters.get? name.text = some counter)
      (later : Prints counters forms rest text) :
      Prints counters forms (.short name :: rest)
        ((Style.arabic.print counter.value).toList ++ text)
  | value {name : Name} {style : Option Style} {counter : Counter} {rest : Form}
      {text : List Char} (found : counters.get? name.text = some counter)
      (later : Prints counters forms rest text) :
      Prints counters forms (.value name style :: rest)
        (((style.getD .arabic).print counter.value).toList ++ text)
  | printed {name : Name} {next rest : Form} {inside text : List Char}
      (known : forms name.text = some next) (inner : Prints counters forms next inside)
      (later : Prints counters forms rest text) :
      Prints counters forms (.printed name :: rest) (inside ++ text)

/-- A form prints one text at most. -/
theorem Prints.unique {text other : List Char} (prints : Prints counters forms form text)
    (again : Prints counters forms form other) : other = text := by
  induction prints generalizing other with
  | nil =>
      cases again
      rfl
  | literal later ih =>
      cases again with
      | literal later' => rw [ih later']
  | short found later ih =>
      cases again with
      | short found' later' =>
          rw [found] at found'
          cases found'
          rw [ih later']
  | value found later ih =>
      cases again with
      | value found' later' =>
          rw [found] at found'
          cases found'
          rw [ih later']
  | printed known inner later ihInner ihLater =>
      cases again with
      | printed known' inner' later' =>
          rw [known] at known'
          cases known'
          rw [ihInner inner', ihLater later']

/-- The part refers to a counter that is not zero, or to a form that is known. -/
def Resolved (counters : Counters) (forms : String → Option Form) : Part → Prop
  | .literal _ _ _ => True
  | .short name | .value name _ =>
      ∃ counter, counters.get? name.text = some counter ∧ counter.value ≠ 0
  | .printed name => ∃ form, forms name.text = some form

/-- From the form there is a chain of so many references to forms. -/
inductive Chain (forms : String → Option Form) : Form → Nat → Prop
  | start {form : Form} : Chain forms form 0
  | follow {form next : Form} {name : Name} {length : Nat} (refers : .printed name ∈ form)
      (known : forms name.text = some next) (chain : Chain forms next length) :
      Chain forms form (length + 1)

/-- Forms that the templates of the names starting with `the` are read as. -/
structure Describes (counters : Counters) (formOf : String → Option Template)
    (forms : String → Option Form) : Prop where
  given : ∀ name form, forms name = some form → formOf ("the" ++ name) = some form.template
  resolved : ∀ name form, forms name = some form → ∀ part ∈ form, Resolved counters forms part
  unmarked : ∀ counter ∈ counters.list, Text.afterMark? "the" counter.name = none

/-- A template is printed with every reference replaced, and no zero in the printed text starts
a word. -/
def PrintsAll (counters : Counters) (forms : String → Option Form)
    (print : Template → List Char × List LogEntry) (form : Form) : Prop :=
  ∃ text, Prints counters forms form text ∧ ZerosInside false text ∧
    print form.template = (text, [])

/-! ## Printing -/

variable (describes : Describes counters formOf forms)

include describes

theorem Describes.afterMark?_eq_none {name : String} {counter : Counter}
    (found : counters.get? name = some counter) : Text.afterMark? "the" name = none := by
  have isName : counter.name = name := by simpa using List.find?_some found
  exact isName ▸ describes.unmarked counter (List.mem_of_find?_eq_some found)

/-- A reference to a counter is printed in its style. -/
theorem printPiece_counter {follow : Option (Template → List Char × List LogEntry)}
    {name : Name} {counter : Counter} (found : counters.get? name.text = some counter)
    (style : Option Style) :
    printPiece counters formOf follow (.reference name.text (style.map Style.name)) =
      (((style.getD .arabic).print counter.value).toList, []) := by
  have noMark := describes.afterMark?_eq_none found
  have inStyle : (style.map Style.name).getD "arabic" = (style.getD .arabic).name := by
    cases style <;> rfl
  simp only [printPiece, noMark, styled, found, inStyle, Style.format?_name, Option.getD_some]

/-- A reference to a form is followed. -/
theorem printPiece_printed {print : Template → List Char × List LogEntry} {name : Name}
    {next : Form} (known : forms name.text = some next) :
    printPiece counters formOf (some print) (.reference ("the" ++ name.text) none) =
      print next.template := by
  have isMark : Text.afterMark? "the" ("the" ++ name.text) = some name.text :=
    Text.afterMark?_eq_some_iff.mpr rfl
  have noCounter : counters.contains ("the" ++ name.text) = false := by
    rw [Counters.contains, Option.isSome_eq_false_iff, Option.isNone_iff_eq_none]
    refine Option.eq_none_iff_forall_ne_some.mpr fun counter found => ?_
    rw [describes.afterMark?_eq_none found] at isMark
    cases isMark
  simp only [printPiece, isMark, noCounter, describes.given _ _ known, Bool.false_eq_true, if_false]

/-- A part is printed as it is, or as what it refers to. -/
theorem Part.exists_printed {follow : Option (Template → List Char × List LogEntry)}
    (resolved : Resolved counters forms part)
    (followed : ∀ name next, part = .printed name → forms name.text = some next →
      ∃ print, follow = some print ∧ PrintsAll counters forms print next) :
    ∃ text, printPiece counters formOf follow part.piece = (text, []) ∧ ZerosInside false text ∧
      ∀ rest later, Prints counters forms rest later →
        Prints counters forms (part :: rest) (text ++ later) := by
  cases part with
  | literal character noWord noDollar =>
      have notZero : character ≠ '0' := by
        rintro rfl
        exact absurd noWord (by decide)
      exact ⟨[character], rfl, .of_noZero (by simpa using notZero.symm), fun _ _ => .literal⟩
  | short name =>
      obtain ⟨counter, found, nonzero⟩ := resolved
      exact ⟨_, printPiece_counter describes found none, Style.zerosInside_print _ nonzero,
        fun _ _ => .short found⟩
  | value name style =>
      obtain ⟨counter, found, nonzero⟩ := resolved
      exact ⟨_, printPiece_counter describes found style, Style.zerosInside_print _ nonzero,
        fun _ _ => .value found⟩
  | printed name =>
      obtain ⟨next, known⟩ := resolved
      obtain ⟨print, rfl, text, prints, inside, isText⟩ := followed name next rfl known
      exact ⟨text, (printPiece_printed describes known).trans isText, inside,
        fun _ _ => .printed known prints⟩

/-- The parts of a form are printed behind one another. -/
theorem Form.exists_printed {follow : Option (Template → List Char × List LogEntry)}
    (resolved : ∀ part ∈ form, Resolved counters forms part)
    (followed : ∀ name next, .printed name ∈ form → forms name.text = some next →
      ∃ print, follow = some print ∧ PrintsAll counters forms print next) :
    ∃ text, Prints counters forms form text ∧ ZerosInside false text ∧
      ((form.map Part.piece).map (printPiece counters formOf follow)).flatMap Prod.fst = text ∧
      ((form.map Part.piece).map (printPiece counters formOf follow)).flatMap Prod.snd = [] := by
  induction form with
  | nil => exact ⟨[], .nil, .nil, rfl, rfl⟩
  | cons part rest ih =>
      obtain ⟨first, isFirst, firstInside, extend⟩ := part.exists_printed describes
        (resolved part List.mem_cons_self)
        fun name next isPart => followed name next (isPart ▸ List.mem_cons_self)
      obtain ⟨later, prints, laterInside, texts, reports⟩ :=
        ih (fun other member => resolved other (List.mem_cons_of_mem _ member))
          fun name next member => followed name next (List.mem_cons_of_mem _ member)
      refine ⟨first ++ later, extend rest later prints, firstInside.append laterInside, ?_, ?_⟩
      · simp only [List.map_cons, List.flatMap_cons, isFirst, texts]
      · simp only [List.map_cons, List.flatMap_cons, isFirst, reports, List.nil_append]

/-- Nothing is dropped when the printed parts are put together. -/
theorem Form.assemble_pieces {follow : Option (Template → List Char × List LogEntry)}
    (resolved : ∀ part ∈ form, Resolved counters forms part)
    (followed : ∀ name next, .printed name ∈ form → forms name.text = some next →
      ∃ print, follow = some print ∧ PrintsAll counters forms print next) :
    PrintsAll counters forms (fun template =>
      assemble ((pieces template.text.toList).map (printPiece counters formOf follow))) form := by
  obtain ⟨text, prints, inside, texts, reports⟩ := form.exists_printed describes resolved followed
  refine ⟨text, prints, inside, ?_⟩
  simp only [Form.template, String.toList_ofList, form.pieces_written, assemble, texts, reports,
    inside.dropZeros]

/-- So many levels are enough if no chain of references is longer. -/
theorem renderWith_printsAll (depth : Nat) (resolved : ∀ part ∈ form, Resolved counters forms part)
    (chains : ∀ length, Chain forms form length → length ≤ depth) :
    PrintsAll counters forms (renderWith counters formOf depth) form := by
  induction depth generalizing form with
  | zero =>
      refine form.assemble_pieces describes resolved fun name next refers known => ?_
      have tooLong := chains 1 (.follow refers known .start)
      omega
  | succ depth ih =>
      refine form.assemble_pieces describes resolved fun name next refers known => ⟨_, rfl, ?_⟩
      refine ih (describes.resolved _ _ known) fun length chain => ?_
      have longer := chains (length + 1) (.follow refers known chain)
      omega

omit describes

/-- Non-zero counters are printed faithfully.  A template prints what it is made of, with every
reference replaced, if no chain of references to other templates is longer than eight and all
counters that are referred to exist and are not zero. -/
theorem render_faithful (counters : Counters) (formOf : String → Option Template)
    (forms : String → Option Form) (describes : Describes counters formOf forms) (form : Form)
    (resolved : ∀ part ∈ form, Resolved counters forms part)
    (chains : ∀ length, Chain forms form length → length ≤ 8) :
    ∃ text, (∀ other, Prints counters forms form other ↔ other = text) ∧
      form.template.render counters formOf = (String.ofList text, []) := by
  obtain ⟨text, prints, -, isText⟩ := renderWith_printsAll describes maxDepth resolved chains
  refine ⟨text, fun other => ⟨prints.unique, fun same => same ▸ prints⟩, ?_⟩
  rw [render, isText]

end

/-! ## Nested references -/

/-- Chapters, sections and equations are numbered. -/
def numbered : Counters :=
  ⟨[⟨"chapter", none, 10⟩, ⟨"section", some "chapter", 3⟩, ⟨"equation", some "section", -100⟩]⟩

def chapterName : Name := ⟨"chapter".toList, by decide, List.all_eq_true.mp (by decide)⟩

def sectionName : Name := ⟨"section".toList, by decide, List.all_eq_true.mp (by decide)⟩

def equationName : Name := ⟨"equation".toList, by decide, List.all_eq_true.mp (by decide)⟩

def chapterForm : Form := [.value chapterName (some .capitalRoman), .short chapterName]

def sectionForm : Form :=
  [.printed chapterName, .literal '.' (by decide) (by decide), .short sectionName]

def equationForm : Form :=
  [.printed sectionName, .literal '-' (by decide) (by decide), .value equationName none]

def nestedForms : String → Option Form
  | "chapter" => some chapterForm
  | "section" => some sectionForm
  | _ => none

theorem nestedForms_resolved (name : String) (form : Form) (known : nestedForms name = some form) :
    ∀ part ∈ form, Resolved numbered nestedForms part := by
  have chapter : ∃ counter, numbered.get? chapterName.text = some counter ∧ counter.value ≠ 0 :=
    ⟨⟨"chapter", none, 10⟩, by decide, by decide⟩
  have inner : ∃ counter, numbered.get? sectionName.text = some counter ∧ counter.value ≠ 0 :=
    ⟨⟨"section", some "chapter", 3⟩, by decide, by decide⟩
  unfold nestedForms at known
  split at known <;> cases known
  · simp [chapterForm, Resolved, chapter]
  · simp [sectionForm, Resolved, inner,
      show nestedForms chapterName.text = some chapterForm from rfl]

theorem chain_equationForm (length : Nat) (chain : Chain nestedForms equationForm length) :
    length ≤ 2 := by
  cases chain with
  | start => omega
  | @follow _ _ name _ refers known chain =>
      have isSection : name = sectionName := by simpa [equationForm] using refers
      subst isSection
      cases known
      cases chain with
      | start => omega
      | @follow _ _ name _ refers known chain =>
          have isChapter : name = chapterName := by simpa [sectionForm] using refers
          subst isChapter
          cases known
          cases chain with
          | start => omega
          | follow refers => simp [chapterForm] at refers

/-- Zeros in front of separators are printed at every depth. -/
theorem render_faithful_nested :
    equationForm.template.text = "$\x7bthesection\x7d-$\x7bequation\x7d" ∧
      equationForm.template.render numbered
          (fun name => (Text.afterMark? "the" name).bind fun counter =>
            (nestedForms counter).map Form.template) = ("X10.3--100", []) := by
  have describes : Describes numbered (fun name => (Text.afterMark? "the" name).bind fun counter =>
      (nestedForms counter).map Form.template) nestedForms :=
    { given := fun name form known => by
        simp [Text.afterMark?_eq_some_iff.mpr rfl, known]
      resolved := nestedForms_resolved
      unmarked := by decide }
  have resolved : ∀ part ∈ equationForm, Resolved numbered nestedForms part := by
    have equation : ∃ counter, numbered.get? equationName.text = some counter ∧
        counter.value ≠ 0 := ⟨⟨"equation", some "section", -100⟩, by decide, by decide⟩
    simp [equationForm, Resolved, equation,
      show nestedForms sectionName.text = some sectionForm from rfl]
  obtain ⟨text, only, isText⟩ := render_faithful numbered _ nestedForms describes equationForm
    resolved fun length chain => Nat.le_trans (chain_equationForm length chain) (by decide)
  obtain ⟨printed, prints, isPrinted⟩ : ∃ printed,
      Prints numbered nestedForms equationForm printed ∧ String.ofList printed = "X10.3--100" :=
    ⟨_, .printed rfl
      (.printed rfl (.value rfl (.short rfl .nil)) (.literal (.short rfl .nil)))
      (.literal (.value rfl .nil)), by decide⟩
  rw [← (only _).mp prints, isPrinted] at isText
  exact ⟨by decide, isText⟩

end Template

end TexTree
