import TexTree.Proofs.Engine.Lookahead

/-!
# Reading decimals

A decimal is read from its tokens: signs, and figures with at most one point.  Its value depends
on the figures and signs alone (`DecimalConstant.value`), and what follows it is left.
-/

namespace TexTree

/-! ## Decimals as they are written -/

/-- An odd number of minus signs. -/
def Sign.areNegative (signs : List Sign) : Bool := signs.countP negates % 2 == 1

theorem Sign.areNegative_cons (sign : Sign) (signs : List Sign) :
    areNegative (sign :: signs) = (sign.negates != areNegative signs) := by
  unfold areNegative
  rw [List.countP_cons]
  cases sign.negates with
  | false => simp
  | true =>
      rw [if_pos rfl, Bool.true_bne, Bool.eq_iff_iff]
      simp only [beq_iff_eq, Bool.not_eq_true', beq_eq_false_iff_ne, ne_eq]
      omega

/-- A digit of a decimal, or one of the two signs for the point in it. -/
inductive Figure where
  | digit (value : Digit .decimal)
  | point
  | comma

namespace Figure

/-- The figure as a token. -/
def token : Figure → Token
  | digit value => value.token
  | point => .other '.'
  | comma => .other ','

/-- The figure as it counts for the value. -/
def character : Figure → Char
  | digit value => Radix.character value.value
  | _ => '.'

/-- Whether the figure separates the digits in front of it from those behind it. -/
def separates : Figure → Bool
  | digit _ => false
  | _ => true

theorem character_beq_point (figure : Figure) : (figure.character == '.') = figure.separates := by
  cases figure with
  | digit value =>
      have each : ∀ value < 10, (Radix.character value == '.') = false := by decide
      exact each value.value value.isBelow
  | point => rfl
  | comma => rfl

theorem character_eq_point {figure : Figure} (separates : figure.separates = true) :
    figure.character = '.' := by
  rwa [← beq_iff_eq, character_beq_point]

variable {figure : Figure} {token : Token} (same : token.bare = figure.token)

include same

theorem category_eq : token.category = .other := by
  rw [← Token.category_bare, same]
  cases figure with
  | digit value =>
      exact value.isProper.resolve_right fun isLetter => Nat.not_lt.mpr isLetter.2 value.isBelow
  | point => rfl
  | comma => rfl

theorem isControl_eq : token.isControl = false := by
  rw [Token.isControl, category_eq same]
  rfl

theorem inert (scopes : Scopes) : Engine.Inert scopes token :=
  Engine.inert_of_category (by simp [category_eq same])

/-- A figure is no sign, and no mark of a base. -/
theorem text_notMem : token.text ∉ ["-", "+", "'", "\"", "`"] := by
  rw [← Token.text_bare, same]
  cases figure with
  | digit value => exact value.text_notMem
  | point => decide
  | comma => decide

theorem toList_text (isDigit : figure.separates = false) :
    token.text.toList = [figure.character] := by
  rw [← Token.text_bare, same]
  cases figure with
  | digit value => exact String.toList_singleton _
  | point => cases isDigit
  | comma => cases isDigit

theorem isPoint_eq : Engine.isPoint token = figure.separates := by
  refine (congrArg Engine.isPoint same).trans ?_
  cases figure with
  | digit value =>
      have each : ∀ value < 10, Engine.isPoint (.other (Radix.character value)) = false := by
        decide
      exact each value.value value.isBelow
  | point => decide
  | comma => decide

theorem isSome_digitOf? : (Engine.digitOf? 10 token).isSome = !figure.separates := by
  rw [← Engine.digitOf?_bare, same]
  cases figure with
  | digit value => exact Option.isSome_of_eq_some (Engine.digitOf?_digit value)
  | point => decide
  | comma => decide

theorem startsDecimal_eq : Engine.startsDecimal token = true := by
  rw [Engine.startsDecimal, category_eq same, isPoint_eq same, isSome_digitOf? same]
  simp

/-- A figure that a decimal starts with is kept with a point for a comma. -/
theorem start_eq :
    (if Engine.isPoint token then ['.'] else token.text.toList) = [figure.character] := by
  rw [isPoint_eq same]
  cases separates : figure.separates with
  | false => exact toList_text same separates
  | true => rw [if_pos rfl, Figure.character_eq_point separates]

end Figure

/-- A decimal as it is written: signs with spaces between them, and digits with at most one point
among them. -/
structure DecimalConstant where
  signs : List Sign
  figures : List Figure
  nonempty : figures ≠ []
  onePoint : figures.countP Figure.separates ≤ 1

namespace DecimalConstant

/-- The tokens of the decimal. -/
def tokens (constant : DecimalConstant) : List Token :=
  constant.signs.map Sign.token ++ constant.figures.map Figure.token

/-- The number that the decimal denotes; a point alone stands for zero. -/
def value (constant : DecimalConstant) : Float :=
  Engine.signedFloat (Sign.areNegative constant.signs)
    ((Decimal.read? (constant.figures.map Figure.character)).getD 0.0)

end DecimalConstant

namespace Engine

variable {start engine : Engine} {scopes : Scopes} {interpreter : Interpreter}
  {number behind : List Token} {token : Token}

/-! ## Reading decimals -/

/-- What stands next does not go on with a decimal. -/
def EndsDecimal (scopes : Scopes) (tokens : List Token) : Prop :=
  ∀ token ∈ tokens.head?, Inert scopes token ∧ startsDecimal token = false

namespace Leaves

/-- Behind the last figure, one space is dropped. -/
theorem runs_decimalWithin_end (idles : Idles interpreter) (enough : 0 < interpreter.limit)
    (ends : EndsDecimal start.scopes behind) (leaves : Leaves start behind engine) (steps : Nat)
    (read : List Char) :
    Runs (decimalWithin interpreter (steps + 1) read) engine fun result after =>
      result = (Decimal.read? read.reverse).getD 0.0 ∧ Leaves start (pastSpace behind) after := by
  rw [decimalWithin]
  refine (leaves.runs_unexpandable idles enough fun token first => (ends token first).1).bind ?_
  rintro _ after ⟨rfl, leaves⟩
  cases behind with
  | nil => exact runs_pure ⟨rfl, leaves⟩
  | cons token rest =>
      obtain ⟨-, noStart⟩ := ends token rfl
      rw [startsDecimal, Bool.and_or_distrib_left, Bool.or_eq_false_iff] at noStart
      obtain ⟨noPoint, noDigit⟩ := noStart
      have noFurther (further : Bool) :
          (decide (token.category = .other) && (isPoint token && further)) = false := by
        rw [← Bool.and_assoc, noPoint, Bool.false_and]
      simp only [List.head?_cons, Option.map_some, pastSpace, Bool.and_assoc, noDigit, noFurther,
        Bool.and_false, Bool.false_eq_true, if_false]
      by_cases isSpace : token.category = .space
      · have noCommand : boundCommand? start.scopes token = none := by
          simp [boundCommand?, Token.isControl, isSpace]
        simp only [isSpace, noCommand, Option.isNone_none, decide_true, Bool.and_self,
          Bool.not_true, Bool.false_eq_true, if_false, if_true]
        exact runs_pure ⟨rfl, leaves⟩
      · simp only [isSpace, decide_false, Bool.and_false, Bool.not_false, if_true, if_false]
        exact (leaves.runs_pushTokens [token]).bind fun _ last leaves => runs_pure ⟨rfl, leaves⟩

/-- The figures are read to their end, behind others that are given in reverse, if there is at
most one point among all of them. -/
theorem runs_decimalWithin (idles : Idles interpreter) (enough : 0 < interpreter.limit)
    (ends : EndsDecimal start.scopes behind) {figures : List Figure}
    (written : number.map Token.bare = figures.map Figure.token) (steps : Nat) {read : List Char}
    (onePoint : figures.countP Figure.separates + read.count '.' ≤ 1)
    (leaves : Leaves start (number ++ behind) engine) :
    Runs (decimalWithin interpreter (figures.length + steps + 1) read) engine fun result after =>
      result = (Decimal.read? (read.reverse ++ figures.map Figure.character)).getD 0.0 ∧
        Leaves start (pastSpace behind) after := by
  -- By induction on the figures ahead; the point is either among them or among those read.
  induction figures generalizing engine number read with
  | nil =>
      rw [List.map_nil, List.map_eq_nil_iff] at written
      subst written
      rw [List.map_nil, List.append_nil]
      exact leaves.runs_decimalWithin_end idles enough ends _ _
  | cons figure figures ih =>
      obtain ⟨token, number, rfl, same, written⟩ := List.map_eq_cons_iff.mp written
      have atMostOne :
          figures.countP Figure.separates + (figure.character :: read).count '.' ≤ 1 := by
        rw [List.countP_cons] at onePoint
        rw [List.count_cons, figure.character_beq_point]
        omega
      have goesOn (after : Engine) (leaves : Leaves start (number ++ behind) after) :=
        ih written atMostOne leaves
      rw [List.reverse_cons, List.append_assoc] at goesOn
      rw [List.length_cons, Nat.add_right_comm figures.length, decimalWithin]
      refine (leaves.runs_unexpandable idles enough (by simpa using Figure.inert same _)).bind ?_
      rintro _ after ⟨rfl, leaves⟩
      simp only [List.cons_append, List.head?_cons, Option.map_some, boundCommand?,
        Figure.isControl_eq same, Bool.false_eq_true, if_false, Option.isNone_none,
        Figure.category_eq same, decide_true, Bool.true_and, Figure.isSome_digitOf? same,
        Figure.isPoint_eq same]
      cases separates : figure.separates with
      | false =>
          simp only [Bool.not_false, if_true, Figure.toList_text same separates]
          exact goesOn after leaves
      | true =>
          have isPoint : figure.character = '.' := Figure.character_eq_point separates
          have noneRead : read.contains '.' = false := by
            rw [isPoint, List.count_cons_self] at atMostOne
            have noPoint : '.' ∉ read := List.count_eq_zero.mp (by omega)
            simpa using noPoint
          simp only [noneRead, Bool.not_true, Bool.not_false, Bool.false_eq_true, if_false,
            Bool.and_self, if_true]
          rw [← isPoint]
          exact goesOn after leaves

/-- The figures behind the signs make a number. -/
theorem runs_factorWithin_figures (idles : Idles interpreter)
    (ends : EndsDecimal start.scopes behind) {figures : List Figure} (nonempty : figures ≠ [])
    (onePoint : figures.countP Figure.separates ≤ 1)
    (written : number.map Token.bare = figures.map Figure.token)
    (enough : figures.length < interpreter.limit) (steps : Nat) (negative : Bool)
    (leaves : Leaves start (number ++ behind) engine) :
    Runs (factorWithin interpreter (steps + 1) negative) engine fun result after =>
      result = .number (signedFloat negative
          ((Decimal.read? (figures.map Figure.character)).getD 0.0)) ∧
        Leaves start (pastSpace behind) after := by
  have positive : 0 < interpreter.limit := Nat.zero_lt_of_lt enough
  obtain ⟨figure, figures, rfl⟩ := List.exists_cons_of_ne_nil nonempty
  obtain ⟨token, number, rfl, same, written⟩ := List.map_eq_cons_iff.mp written
  have notMark := Figure.text_notMem same
  simp only [List.mem_cons, List.not_mem_nil, or_false, not_or, ← beq_eq_false_iff_ne] at notMark
  obtain ⟨notMinus, notPlus, notOctal, notHexadecimal, notQuote⟩ := notMark
  have notRadix : ["'", "\"", "`"].contains token.text = false := by
    simp only [List.contains_cons, notOctal, notHexadecimal, notQuote]
    rfl
  rw [factorWithin]
  refine (leaves.runs_unexpandable idles positive (by simpa using Figure.inert same _)).bind ?_
  rintro _ after ⟨rfl, leaves⟩
  simp only [List.cons_append, List.head?_cons, Option.map_some, boundCommand?,
    Figure.isControl_eq same, Figure.category_eq same, reduceCtorEq, Bool.false_eq_true, if_false,
    notMinus, notPlus, notRadix, Bool.and_false, Figure.startsDecimal_eq same, if_true]
  have reads : Runs (readDecimal interpreter token) after fun result last =>
      result = (Decimal.read? ((figure :: figures).map Figure.character)).getD 0.0 ∧
        Leaves start (pastSpace behind) last := by
    obtain ⟨more, isLimit⟩ := Nat.exists_eq_add_of_lt (Nat.lt_of_succ_lt enough)
    rw [readDecimal, isLimit, Figure.start_eq same]
    refine leaves.runs_decimalWithin idles positive ends written more ?_
    rw [List.countP_cons] at onePoint
    rwa [List.count_singleton, figure.character_beq_point]
  refine reads.bind ?_
  rintro _ last ⟨rfl, leaves⟩
  exact runs_pure ⟨rfl, leaves⟩

/-- A sign changes at most whether the factor is negative. -/
theorem runs_factorWithin_sign (idles : Idles interpreter) (positive : 0 < interpreter.limit)
    {sign : Sign} (same : token.bare = sign.token) (steps : Nat) (negative : Bool)
    {tokens : List Token} {post : Factor → Engine → Prop}
    (leaves : Leaves start (token :: tokens) engine)
    (goesOn : ∀ after, Leaves start tokens after →
      Runs (factorWithin interpreter steps (negative != sign.negates)) after post) :
    Runs (factorWithin interpreter (steps + 1) negative) engine post := by
  have sameCategory : token.category = sign.token.category := by rw [← Token.category_bare, same]
  have sameText : token.text = sign.token.text := by rw [← Token.text_bare, same]
  have notEscape : token.category ≠ .escape := by
    rw [sameCategory]
    cases sign <;> simp [Sign.token, Token.other, Token.ofChar]
  have isPlain : token.isControl = false := by simpa [Token.isControl] using notEscape
  rw [factorWithin]
  refine (leaves.runs_unexpandable idles positive
    (by simpa using inert_of_category notEscape)).bind ?_
  rintro _ after ⟨rfl, leaves⟩
  have next := goesOn after leaves
  cases sign with
  | plus =>
      have isOther : token.category = .other := sameCategory
      have isPlus : token.text = "+" := sameText
      simpa [boundCommand?, isPlain, isOther, isPlus, Sign.negates] using next
  | minus =>
      have isOther : token.category = .other := sameCategory
      have isMinus : token.text = "-" := sameText
      simpa [boundCommand?, isPlain, isOther, isMinus, Sign.negates] using next
  | space text =>
      have isSpace : token.category = .space := sameCategory
      simpa [boundCommand?, isPlain, isSpace, Sign.negates] using next

/-- Any number of signs is read in front of a factor. -/
theorem runs_factorWithin_signs (idles : Idles interpreter) (positive : 0 < interpreter.limit)
    {signs : List Sign} {inFront tokens : List Token}
    (areSigns : inFront.map Token.bare = signs.map Sign.token) (steps : Nat) (negative : Bool)
    {post : Factor → Engine → Prop} (leaves : Leaves start (inFront ++ tokens) engine)
    (goesOn : ∀ after, Leaves start tokens after →
      Runs (factorWithin interpreter steps (negative != Sign.areNegative signs)) after post) :
    Runs (factorWithin interpreter (signs.length + steps) negative) engine post := by
  induction signs generalizing engine inFront negative with
  | nil =>
      rw [List.map_nil, List.map_eq_nil_iff] at areSigns
      subst areSigns
      rw [List.length_nil, Nat.zero_add]
      simpa [Sign.areNegative] using goesOn engine leaves
  | cons sign signs ih =>
      obtain ⟨token, inFront, rfl, same, areSigns⟩ := List.map_eq_cons_iff.mp areSigns
      rw [List.length_cons, Nat.add_right_comm]
      refine leaves.runs_factorWithin_sign idles positive same _ negative fun after leaves => ?_
      refine ih areSigns _ leaves fun last leaves => ?_
      rw [Bool.bne_assoc, ← Sign.areNegative_cons]
      exact goesOn last leaves

/-- A decimal is read as a number with its value. -/
theorem runs_readFactor_decimal (idles : Idles interpreter) {constant : DecimalConstant}
    (written : number.map Token.bare = constant.tokens)
    (ends : EndsDecimal start.scopes behind) (enough : number.length < interpreter.limit)
    (leaves : Leaves start (number ++ behind) engine) :
    Runs (readFactor interpreter) engine fun result after =>
      result = .number constant.value ∧ Leaves start (pastSpace behind) after := by
  have isLength : number.length = constant.signs.length + constant.figures.length := by
    simpa [DecimalConstant.tokens] using congrArg List.length written
  obtain ⟨inFront, figures, rfl, areSigns, areFigures⟩ := List.map_eq_append_iff.mp written
  obtain ⟨more, isLimit⟩ := Nat.exists_eq_add_of_lt enough
  rw [List.append_assoc] at leaves
  rw [readFactor, isLimit, isLength, Nat.add_assoc constant.signs.length,
    Nat.add_assoc constant.signs.length]
  refine leaves.runs_factorWithin_signs idles (Nat.zero_lt_of_lt enough) areSigns _ _
    fun after leaves => ?_
  rw [Bool.false_bne]
  exact leaves.runs_factorWithin_figures idles ends constant.nonempty constant.onePoint areFigures
    (by omega) _ _

end Leaves

end Engine

end TexTree
