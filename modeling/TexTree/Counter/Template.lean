import TexTree.Counter.Basic
import TexTree.Log
import TexTree.Text.Blank
import TexTree.Text.Span
import TexTree.Text.Word
import TexTree.Token

/-!
# Counter templates

The form in which a counter is printed is a template.  In it `$name` and a name
in braces behind a dollar sign stand for the value of a counter, a name with a
style behind a point for the value in that style, and a name that starts with
`the` for the printed form of another counter.

A zero in front of a separator is dropped together with the separator, so that
counters which have not been stepped do not show.
-/

namespace TexTree

/-- The form in which a counter is printed. -/
structure Template where
  text : String
  deriving DecidableEq, Repr, Inhabited

namespace Template

/-- The template that prints the value of one counter. -/
def ofCounter (name : String) : Template := ⟨"$\x7b" ++ name ++ "\x7d"⟩

/-- The template that prints a counter behind the form of its superior. -/
def within (superior name : String) : Template :=
  ⟨"$\x7bthe" ++ superior ++ "\x7d.$\x7b" ++ name ++ "\x7d"⟩

/-- A part of a template. -/
inductive Piece where
  | literal (character : Char)
  | reference (name : String) (style : Option String)
  deriving DecidableEq, Repr, Inhabited

/-- A point and a style, and what follows them. -/
def style? : List Char → Option (List Char × List Char)
  | '.' :: rest =>
      match rest.takeWhile Text.isWord with
      | [] => none
      | style => some (style, rest.dropWhile Text.isWord)
  | _ => none

/-- A name with an optional style and a closing brace, and what follows them. -/
def braced? (text : List Char) : Option (Piece × List Char) :=
  let start := text.dropWhile Text.isBlank
  match start.takeWhile Text.isWord with
  | [] => none
  | name =>
      let behind := start.dropWhile Text.isWord
      let (style, final) :=
        match style? behind with
        | some (style, final) => (some (String.ofList style), final)
        | none => (none, behind)
      match final.dropWhile Text.isBlank with
      | '\x7d' :: rest => some (.reference (String.ofList name) style, rest)
      | _ => none

/-- A reference behind a dollar sign, and what follows it. -/
def reference? : List Char → Option (Piece × List Char)
  | [] => none
  | character :: rest =>
      if character = '\x7b' then braced? rest
      else
        match (character :: rest).takeWhile Text.isWord with
        | [] => none
        | name =>
            some (.reference (String.ofList name) none, (character :: rest).dropWhile Text.isWord)

theorem length_style? {text style rest : List Char} (found : style? text = some (style, rest)) :
    rest.length ≤ text.length := by
  unfold style? at found
  split at found
  · next tail =>
      split at found
      · simp at found
      · simp only [Option.some.injEq, Prod.mk.injEq] at found
        obtain ⟨_, rfl⟩ := found
        have shorter := Text.length_dropWhile_le Text.isWord tail
        simp only [List.length_cons]
        omega
  · simp at found

theorem length_braced? {text rest : List Char} {piece : Piece}
    (found : braced? text = some (piece, rest)) : rest.length ≤ text.length := by
  simp only [braced?] at found
  split at found
  · simp at found
  · have first := Text.length_dropWhile_le Text.isBlank text
    have second := Text.length_dropWhile_le Text.isWord (text.dropWhile Text.isBlank)
    split at found
    · next last equal =>
        simp only [Option.some.injEq, Prod.mk.injEq] at found
        obtain ⟨_, rfl⟩ := found
        split at equal
        · next style final styled =>
            have third := length_style? styled
            have fourth := Text.length_dropWhile_le Text.isBlank final
            rw [equal] at fourth
            simp only [List.length_cons] at fourth
            omega
        · have fourth := Text.length_dropWhile_le Text.isBlank
            ((text.dropWhile Text.isBlank).dropWhile Text.isWord)
          rw [equal] at fourth
          simp only [List.length_cons] at fourth
          omega
    · simp at found

theorem length_reference? {text rest : List Char} {piece : Piece}
    (found : reference? text = some (piece, rest)) : rest.length ≤ text.length := by
  unfold reference? at found
  split at found
  · simp at found
  · next character tail =>
      split at found
      · have shorter := length_braced? found
        simp only [List.length_cons]
        omega
      · split at found
        · simp at found
        · simp only [Option.some.injEq, Prod.mk.injEq] at found
          obtain ⟨_, rfl⟩ := found
          exact Text.length_dropWhile_le Text.isWord (character :: tail)

/-- Cut a template into literal characters and references. -/
def pieces (text : List Char) : List Piece :=
  match text with
  | [] => []
  | character :: rest =>
      if character = '$' then
        match _found : reference? rest with
        | some (piece, rest') => piece :: pieces rest'
        | none => .literal character :: pieces rest
      else .literal character :: pieces rest
termination_by text.length
decreasing_by
  · have shorter := length_reference? _found
    simp only [List.length_cons]
    omega
  · simp
  · simp

/-- Whether the character separates numbers: neither a digit nor an ASCII
letter. -/
def isSeparator (character : Char) : Bool := !Text.isDecimal character && !character.isAlpha

/-- Drop every zero at the start of a word together with the separators behind
it.  The flag tells whether the character before belongs to a word. -/
def dropZeros (inWord : Bool) (text : List Char) : List Char :=
  match text with
  | [] => []
  | character :: rest =>
      if character == '0' && !inWord then
        match (rest.takeWhile isSeparator).getLast? with
        | some last => dropZeros (Text.isWord last) (rest.dropWhile isSeparator)
        | none => character :: dropZeros true rest
      else character :: dropZeros (Text.isWord character) rest
termination_by text.length
decreasing_by
  · have shorter := Text.length_dropWhile_le isSeparator rest
    simp only [List.length_cons]
    omega
  · simp
  · simp

/-- How deep references to printed forms are followed. -/
def maxDepth : Nat := 8

/-- The report of a name in a template that is no counter. -/
def unknownCounter (name : String) : LogEntry :=
  .warning "counters" ("Unknown counter " ++ name ++ " in counter format")

/-- The value of a counter in a style, or in decimal digits if the style is
unknown. -/
def styled (counters : Counters) (name : String) (style : Option String) :
    List Char × List LogEntry :=
  match counters.get? name with
  | some counter =>
      (((counter.format? (style.getD "arabic")).getD (toString counter.value)).toList, [])
  | none => ([], [unknownCounter name])

/-- Print a part of a template.  `formOf` gives the template of a name that starts with
`the`, and `follow` prints it, unless references to printed forms are too deep. -/
def printPiece (counters : Counters) (formOf : String → Option Template)
    (follow : Option (Template → List Char × List LogEntry)) : Piece → List Char × List LogEntry
  | .literal character => ([character], [])
  | .reference name style =>
      match Text.afterMark? "the" name, follow with
      | some counter, some print =>
          if counters.contains name then styled counters name style
          else
            match formOf name with
            | some form => print form
            | none => ((((counters.get? counter).bind (·.format? "arabic")).getD "").toList, [])
      | _, _ => styled counters name style

/-- Put printed parts together. -/
def assemble (parts : List (List Char × List LogEntry)) : List Char × List LogEntry :=
  (dropZeros false (parts.flatMap Prod.fst), parts.flatMap Prod.snd)

/-- Print a template, following references to printed forms at most so many
levels deep. -/
def renderWith (counters : Counters) (formOf : String → Option Template) :
    Nat → Template → List Char × List LogEntry
  | 0, template =>
      assemble ((pieces template.text.toList).map (printPiece counters formOf none))
  | depth + 1, template =>
      assemble ((pieces template.text.toList).map
        (printPiece counters formOf (some (renderWith counters formOf depth))))

/-- The printed form, and reports of unknown counters. -/
def render (counters : Counters) (formOf : String → Option Template) (template : Template) :
    String × List LogEntry :=
  let (text, reports) := renderWith counters formOf maxDepth template
  (String.ofList text, reports)

end Template

end TexTree
