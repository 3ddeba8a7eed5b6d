import TexTree.Proofs.Counter.Printing

/-!
# Forms of counter templates

A form is what a counter template is read as: literal characters, references to counters in some
style, and references to the forms of other counters.  Written down, a form is read back as it
is (`Template.Form.pieces_written`), and what a style prints has no zeros but inside of numbers
(`Style.zerosInside_print`).
-/

namespace TexTree

/-! ## Styles -/

/-- A style in which the value of a counter is printed. -/
inductive Style where
  | arabic
  | roman
  | capitalRoman
  | alph
  | capitalAlph
  | fnsymbol
  deriving DecidableEq, Repr

namespace Style

/-- The name of the style in a template. -/
def name : Style → String
  | arabic => "arabic"
  | roman => "roman"
  | capitalRoman => "Roman"
  | alph => "alph"
  | capitalAlph => "Alph"
  | fnsymbol => "fnsymbol"

/-- A value in the style. -/
def print : Style → Int → String
  | arabic, value => toString value
  | roman, value => Numeral.roman value
  | capitalRoman, value => Numeral.capital (Numeral.roman value)
  | alph, value => Numeral.alphabetic value
  | capitalAlph, value => Numeral.capital (Numeral.alphabetic value)
  | fnsymbol, value => Numeral.footnoteSymbol value

theorem format?_name (counter : Counter) (style : Style) :
    counter.format? style.name = some (style.print counter.value) := by
  cases style <;> rfl

theorem name_ne_nil (style : Style) : style.name.toList ≠ [] := by
  cases style <;> decide

theorem isWord_of_mem_name (style : Style) :
    ∀ character ∈ style.name.toList, Text.isWord character = true := by
  have all : style.name.toList.all Text.isWord = true := by
    cases style <;> decide
  exact List.all_eq_true.mp all

theorem zerosInside_footnoteSymbol (value : Int) :
    Template.ZerosInside false (Numeral.footnoteSymbol value).toList := by
  have noZero : ∀ symbol ∈ "" :: Numeral.footnoteSymbols, '0' ∉ symbol.toList := by decide
  apply Template.ZerosInside.of_noZero
  apply noZero
  rw [Numeral.footnoteSymbol]
  split
  · exact List.mem_cons_self
  · rw [List.getD_eq_getElem?_getD]
    cases found : Numeral.footnoteSymbols[value.toNat - 1]? with
    | none => exact List.mem_cons_self
    | some symbol => exact List.mem_cons_of_mem _ (List.mem_of_getElem? found)

/-- A number other than zero has no zero in front, also behind a sign. -/
theorem zerosInside_toString {value : Int} (nonzero : value ≠ 0) :
    Template.ZerosInside false (toString value).toList := by
  cases value with
  | ofNat number =>
      have positive : 0 < number := Nat.pos_of_ne_zero fun isZero => nonzero (by simp [isZero])
      exact (isNumeral_toString positive).zerosInside
  | negSucc number =>
      have signed : toString (Int.negSucc number) =
          "-" ++ toString ((number + 1 : Nat) : Int) := rfl
      rw [signed, String.toList_append]
      exact (Template.ZerosInside.of_noZero (by decide)).append
        (isNumeral_toString number.succ_pos).zerosInside

/-- The printed value of a counter that is not zero has no zero at the start of a word. -/
theorem zerosInside_print (style : Style) {value : Int} (nonzero : value ≠ 0) :
    Template.ZerosInside false (style.print value).toList := by
  cases style <;> simp only [print]
  case arabic => exact zerosInside_toString nonzero
  case roman => exact (isNumeral_roman value).zerosInside
  case capitalRoman => exact (isNumeral_capital_roman value).zerosInside
  case alph => exact (isNumeral_alphabetic value).zerosInside
  case capitalAlph => exact (isNumeral_capital_alphabetic value).zerosInside
  case fnsymbol => exact zerosInside_footnoteSymbol value

end Style

namespace Template

/-! ## Forms -/

/-- A name that a template can refer to. -/
structure Name where
  characters : List Char
  nonempty : characters ≠ []
  isWord : ∀ character ∈ characters, Text.isWord character = true

/-- The name as a text. -/
def Name.text (name : Name) : String := String.ofList name.characters

/-- A style behind a name. -/
def clause (style : Option Style) : List Char :=
  style.elim [] fun style => '.' :: style.name.toList

/-- A part of a form. -/
inductive Part where
  /-- A character that is printed as it is. -/
  | literal (character : Char) (noWord : Text.isWord character = false)
      (noDollar : character ≠ '$')
  /-- A counter behind a dollar sign. -/
  | short (name : Name)
  /-- A counter in braces, and possibly the style in which it is printed. -/
  | value (name : Name) (style : Option Style)
  /-- The form of a counter. -/
  | printed (name : Name)

/-- What a template is read as. -/
abbrev Form := List Part

namespace Part

/-- The part as it is written. -/
def written : Part → List Char
  | literal character _ _ => [character]
  | short name => '$' :: name.characters
  | value name style => '$' :: '\x7b' :: (name.characters ++ (clause style ++ ['\x7d']))
  | printed name => '$' :: '\x7b' :: ("the".toList ++ name.characters ++ ['\x7d'])

/-- What the part is read as. -/
def piece : Part → Piece
  | literal character _ _ => .literal character
  | short name => .reference name.text none
  | value name style => .reference name.text (style.map Style.name)
  | printed name => .reference ("the" ++ name.text) none

end Part

/-- The parts as they are written. -/
def Form.written (form : Form) : List Char := form.flatMap Part.written

/-- The template that consists of the parts. -/
def Form.template (form : Form) : Template := ⟨String.ofList form.written⟩

/-! ## Reading -/

section

variable {word style behind : List Char}

theorem isBlank_eq_false_of_isWord {character : Char} (isWord : Text.isWord character = true) :
    Text.isBlank character = false := by
  have blanks : (Text.blankRanges.all fun range =>
      (List.range' range.1 (range.2 + 1 - range.1)).all fun code =>
        !Text.isWord (Char.ofNat code)) = true := by decide +kernel
  rw [Text.isBlank, Text.Ranges.contains, List.any_eq_false]
  intro range listed inside
  simp only [Bool.and_eq_true, decide_eq_true_eq] at inside
  have noWord := List.all_eq_true.mp (List.all_eq_true.mp blanks range listed) character.toNat
    (List.mem_range'_1.mpr (by omega))
  rw [Char.ofNat_toNat, isWord] at noWord
  cases noWord

theorem dropWhile_isBlank_word (nonempty : word ≠ [])
    (isWord : ∀ character ∈ word, Text.isWord character = true) (behind : List Char) :
    (word ++ behind).dropWhile Text.isBlank = word ++ behind := by
  obtain ⟨first, more, rfl⟩ := List.exists_cons_of_ne_nil nonempty
  have visible := isBlank_eq_false_of_isWord (isWord first List.mem_cons_self)
  rw [List.cons_append, List.dropWhile_cons_of_neg (by simp [visible])]

/-- A word behind a dollar sign is a reference. -/
theorem reference?_word (nonempty : word ≠ [])
    (isWord : ∀ character ∈ word, Text.isWord character = true)
    (noWord : ∀ character ∈ behind.head?, Text.isWord character = false) :
    reference? (word ++ behind) = some (.reference (String.ofList word) none, behind) := by
  have taken := Text.takeWhile_word isWord noWord
  have left := Text.dropWhile_word isWord noWord
  obtain ⟨first, more, rfl⟩ := List.exists_cons_of_ne_nil nonempty
  have notBrace : first ≠ '\x7b' := by
    rintro rfl
    exact absurd (isWord '\x7b' List.mem_cons_self) (by decide)
  rw [List.cons_append] at taken left ⊢
  simp only [reference?, if_neg notBrace, taken, left]

theorem reference?_brace (text : List Char) : reference? ('\x7b' :: text) = braced? text := by
  rw [reference?, if_pos rfl]

theorem style?_clause (style : Option Style)
    (noWord : ∀ character ∈ behind.head?, Text.isWord character = false)
    (noPoint : ∀ character ∈ behind.head?, character ≠ '.') :
    style? (clause style ++ behind) = style.map fun style => (style.name.toList, behind) := by
  cases style with
  | none =>
      cases behind with
      | nil => rfl
      | cons next rest =>
          have notPoint : next ≠ '.' := noPoint next rfl
          simp [clause, style?, notPoint]
  | some style =>
      obtain ⟨first, more, isName⟩ := List.exists_cons_of_ne_nil style.name_ne_nil
      have taken := Text.takeWhile_word style.isWord_of_mem_name noWord
      have left := Text.dropWhile_word style.isWord_of_mem_name noWord
      rw [isName, List.cons_append] at taken left
      simp only [clause, Option.elim_some, Option.map_some, isName, List.cons_append, style?,
        taken, left]

/-- A word in braces is a reference, with the style behind it. -/
theorem braced?_word (nonempty : word ≠ [])
    (isWord : ∀ character ∈ word, Text.isWord character = true) (style : Option Style) :
    braced? (word ++ (clause style ++ '\x7d' :: behind)) =
      some (.reference (String.ofList word) (style.map Style.name), behind) := by
  have closes : ('\x7d' :: behind).dropWhile Text.isBlank = '\x7d' :: behind :=
    List.dropWhile_cons_of_neg (by decide)
  have styled : style? (clause style ++ '\x7d' :: behind) =
      style.map fun style => (style.name.toList, '\x7d' :: behind) :=
    style?_clause style (Text.noWord_of_head (by decide)) (by simp)
  have noWord : ∀ character ∈ (clause style ++ '\x7d' :: behind).head?,
      Text.isWord character = false := by
    cases style with
    | none => exact Text.noWord_of_head (by decide)
    | some style => exact Text.noWord_of_head (by decide)
  have visible := dropWhile_isBlank_word nonempty isWord (clause style ++ '\x7d' :: behind)
  have taken := Text.takeWhile_word isWord noWord
  have left := Text.dropWhile_word isWord noWord
  obtain ⟨first, more, rfl⟩ := List.exists_cons_of_ne_nil nonempty
  simp only [braced?, visible, taken, left, styled]
  cases style with
  | none => simp only [Option.map_none, clause, Option.elim_none, List.nil_append, closes]
  | some style => simp only [Option.map_some, closes, String.ofList_toList]

end

theorem pieces_literal {character : Char} (noDollar : character ≠ '$') (behind : List Char) :
    pieces (character :: behind) = .literal character :: pieces behind := by
  rw [pieces, if_neg noDollar]

theorem pieces_reference {text behind : List Char} {piece : Piece}
    (found : reference? text = some (piece, behind)) :
    pieces ('$' :: text) = piece :: pieces behind := by
  rw [pieces, if_pos rfl]
  split
  · next known =>
      rw [found] at known
      cases known
      rfl
  · next missing =>
      rw [found] at missing
      cases missing

/-- No part continues a word. -/
theorem Form.noWord_written (form : Form) :
    ∀ character ∈ form.written.head?, Text.isWord character = false := by
  cases form with
  | nil => exact fun _ isHead => nomatch isHead
  | cons part rest =>
      cases part with
      | literal character noWord => exact Text.noWord_of_head noWord
      | short name => exact Text.noWord_of_head (by decide)
      | value name style => exact Text.noWord_of_head (by decide)
      | printed name => exact Text.noWord_of_head (by decide)

/-- Each part is read as one piece, whatever form follows. -/
theorem Part.pieces_written (part : Part) (rest : Form) :
    pieces (part.written ++ rest.written) = part.piece :: pieces rest.written := by
  cases part with
  | literal character _ noDollar => exact pieces_literal noDollar _
  | short name =>
      exact pieces_reference (reference?_word name.nonempty name.isWord rest.noWord_written)
  | value name style =>
      have isWritten : (Part.value name style).written ++ rest.written =
          '$' :: '\x7b' :: (name.characters ++ (clause style ++ '\x7d' :: rest.written)) := by
        simp [Part.written]
      rw [isWritten]
      exact pieces_reference
        ((reference?_brace _).trans (braced?_word name.nonempty name.isWord style))
  | printed name =>
      have isWord : ∀ character ∈ "the".toList ++ name.characters,
          Text.isWord character = true := by
        have mark : ∀ character ∈ "the".toList, Text.isWord character = true :=
          List.all_eq_true.mp (by decide)
        intro character member
        exact (List.mem_append.mp member).elim (mark character) (name.isWord character)
      have isWritten : (Part.printed name).written ++ rest.written =
          '$' :: '\x7b' :: ("the".toList ++ name.characters ++
            (clause none ++ '\x7d' :: rest.written)) := by
        simp [Part.written, clause]
      have isName : "the" ++ name.text = String.ofList ("the".toList ++ name.characters) := by
        rw [String.ofList_append, String.ofList_toList, Name.text]
      rw [isWritten, Part.piece, isName]
      exact pieces_reference
        ((reference?_brace _).trans (braced?_word (by simp) isWord none))

theorem Form.pieces_written (form : Form) : pieces form.written = form.map Part.piece := by
  induction form with
  | nil => rw [Form.written, List.flatMap_nil, pieces, List.map_nil]
  | cons part rest ih =>
      rw [List.map_cons, ← ih]
      exact part.pieces_written rest

end Template

end TexTree
