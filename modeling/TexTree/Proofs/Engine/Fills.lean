import TexTree.Proofs.Engine.Decimals

/-!
# Infinite stretch and shrink

The stretch of glue is a number with a unit, or with one of the words `fil`, `fill` and `filll`
for an order of infinity.  Each of these words starts the next one, so that the longest is tried
first, and all that was read of it is put back before a shorter one is tried.

Behind a number, whatever it is, the word is found that stands there, unless a further `l` would
make it longer (`OrderPhrase`), and what follows is left.  This is shown for every number that the
reader of factors finds, and once more from the tokens on for decimals.  `lookahead_exact` states
it together with what is true of keywords in general.
-/

namespace TexTree

namespace Engine

variable {start engine : Engine} {scopes : Scopes} {interpreter : Interpreter}
  {number behind : List Token} {token : Token}

/-! ## Orders of infinity -/

/-- What stands behind the number of an infinite component: spaces, the word for its order, and a
token that does not go on with this word. -/
structure OrderPhrase (scopes : Scopes) where
  order : Nat
  keyword : String
  known : (order, keyword) ∈ [(1, "fil"), (2, "fill"), (3, "filll")]
  spaces : List Token
  areSpaces : ∀ token ∈ spaces, token.category = .space
  word : List Token
  spelled : Spells word keyword.toList
  behind : List Token
  ends : ∀ token ∈ behind.head?, Inert scopes token ∧ ¬Denotes token 'l'

/-- The tokens of the phrase, and those behind it. -/
def OrderPhrase.tokens (phrase : OrderPhrase scopes) : List Token :=
  phrase.spaces ++ (phrase.word ++ phrase.behind)

/-- The letter that the words for orders of infinity start with is no part of a decimal. -/
theorem Denotes.startsDecimal_eq (denotes : Denotes token 'f') : startsDecimal token = false := by
  obtain ⟨-, found, isText, sameCase⟩ := denotes
  have differs (mark : Char) (notLetter : mark.toLower ≠ 'f') :
      token.text ≠ String.singleton mark := by
    intro isMark
    rw [isText] at isMark
    rw [String.singleton_inj.mp isMark] at sameCase
    exact notLetter sameCase
  have notPoint : token.text ≠ "." := differs '.' (by decide)
  have notComma : token.text ≠ "," := differs ',' (by decide)
  have notDigit : ¬Radix.decimal.IsDigit token := by
    rintro ⟨-, digit, isBelow, isDigit⟩
    have each : ∀ digit < 10, (Radix.character digit).toLower ≠ 'f' := by decide
    exact differs _ (each digit isBelow) isDigit
  have noDigit : digitOf? 10 token = none := digitOf?_eq_none notDigit
  simp [startsDecimal, isPoint, noDigit, notPoint, notComma]

namespace OrderPhrase

variable (phrase : OrderPhrase scopes)

/-- The word starts with a letter. -/
theorem exists_first : ∃ first rest, phrase.word = first :: rest ∧ Denotes first 'f' := by
  obtain ⟨order, keyword, known, -, -, word, spelled, -, -⟩ := phrase
  obtain ⟨letters, isKeyword⟩ : ∃ letters, keyword.toList = 'f' :: letters := by
    simp only [List.mem_cons, Prod.mk.injEq, List.not_mem_nil, or_false] at known
    obtain ⟨-, rfl⟩ | ⟨-, rfl⟩ | ⟨-, rfl⟩ := known <;> exact ⟨_, rfl⟩
  rw [isKeyword] at spelled
  cases spelled with
  | cons denotes rest => exact ⟨_, _, rfl, denotes⟩

/-- The spaces of the phrase are those in front of its word. -/
theorem span_isSpace :
    phrase.tokens.takeWhile Input.isSpace = phrase.spaces ∧
      phrase.tokens.dropWhile Input.isSpace = phrase.word ++ phrase.behind := by
  obtain ⟨first, rest, isWord, denotes⟩ := phrase.exists_first
  have areBlank : ∀ token ∈ phrase.spaces, Input.isSpace token = true := by
    simpa [Input.isSpace] using phrase.areSpaces
  have isVisible : ¬Input.isSpace first = true := by
    obtain ⟨isLetter | isOther, -⟩ := denotes
    · simp [Input.isSpace, isLetter]
    · simp [Input.isSpace, isOther]
  rw [OrderPhrase.tokens, List.takeWhile_append_of_pos areBlank,
    List.dropWhile_append_of_pos areBlank, isWord, List.cons_append,
    List.takeWhile_cons_of_neg isVisible, List.dropWhile_cons_of_neg isVisible, List.append_nil]
  exact ⟨rfl, rfl⟩

/-- The phrase does not go on with a decimal in front of it. -/
theorem endsDecimal : EndsDecimal scopes phrase.tokens := by
  obtain ⟨first, rest, isWord, denotes⟩ := phrase.exists_first
  unfold OrderPhrase.tokens EndsDecimal
  cases isSpaces : phrase.spaces with
  | nil => simpa [isWord] using ⟨denotes.inert, denotes.startsDecimal_eq⟩
  | cons space spaces =>
      have isSpace : space.category = .space := phrase.areSpaces space (by simp [isSpaces])
      have isInert : Inert scopes space := inert_of_category (by simp [isSpace])
      simpa using ⟨isInert, by simp [startsDecimal, isSpace]⟩

end OrderPhrase

/-- Dropping one space makes no difference to what stands behind all spaces. -/
theorem dropWhile_pastSpace (tokens : List Token) :
    (pastSpace tokens).dropWhile Input.isSpace = tokens.dropWhile Input.isSpace := by
  cases tokens with
  | nil => rfl
  | cons token rest =>
      rw [pastSpace]
      split
      · next isSpace => rw [List.dropWhile_cons_of_pos (by simp [Input.isSpace, isSpace])]
      · rfl

theorem length_takeWhile_pastSpace (tokens : List Token) :
    ((pastSpace tokens).takeWhile Input.isSpace).length ≤
      (tokens.takeWhile Input.isSpace).length := by
  cases tokens with
  | nil => exact le_rfl
  | cons token rest =>
      rw [pastSpace]
      split
      · next isSpace =>
          rw [List.takeWhile_cons_of_pos (by simp [Input.isSpace, isSpace]), List.length_cons]
          exact Nat.le_succ _
      · exact le_rfl

namespace Leaves

/-- The first keyword that does not break is found, whatever was tried before it. -/
theorem runs_readOrder (idles : Idles interpreter) (before : List (Nat × String))
    {more : List (Nat × String)} {order : Nat} {keyword : String} {tokens word : List Token}
    (few : (tokens.takeWhile Input.isSpace).length < interpreter.limit)
    (visible : tokens.dropWhile Input.isSpace = word ++ behind)
    (breaks : ∀ tried ∈ before, Breaks start.scopes tried.2.toList (word ++ behind))
    (spelled : Spells word keyword.toList)
    (inert : ∀ token ∈ behind.head?, Inert start.scopes token)
    (leaves : Leaves start tokens engine) :
    Runs (readOrder interpreter (before ++ (order, keyword) :: more)) engine fun found after =>
      found = some order ∧ Leaves start (pastSpace behind) after := by
  induction before generalizing engine tokens with
  | nil =>
      rw [List.nil_append, readOrder]
      refine (leaves.runs_readKeyword_spelled idles few visible spelled inert).bind ?_
      rintro _ after ⟨rfl, leaves⟩
      exact runs_pure ⟨rfl, leaves⟩
  | cons tried before ih =>
      obtain ⟨breaksHere, breaks⟩ := List.forall_mem_cons.mp breaks
      rw [List.cons_append, readOrder]
      refine (leaves.runs_readKeyword_breaks idles few (visible ▸ breaksHere)).bind ?_
      rintro _ after ⟨rfl, leaves⟩
      -- The spaces are gone now; otherwise the next keyword finds the same tokens.
      have noSpace : (tokens.dropWhile Input.isSpace).takeWhile Input.isSpace = [] :=
        List.takeWhile_eq_nil_iff.mpr fun _ => List.dropWhile_get_zero_not _ _ _
      have fewLeft : ((tokens.dropWhile Input.isSpace).takeWhile Input.isSpace).length <
          interpreter.limit := by
        rw [noSpace]
        exact Nat.zero_lt_of_lt few
      exact ih fewLeft (by rw [List.dropWhile_idempotent, visible]) breaks leaves

/-- The order of infinity is read off its word. -/
theorem runs_readOrder_phrase (idles : Idles interpreter) (phrase : OrderPhrase start.scopes)
    {tokens : List Token}
    (few : (tokens.takeWhile Input.isSpace).length < interpreter.limit)
    (visible : tokens.dropWhile Input.isSpace = phrase.word ++ phrase.behind)
    (leaves : Leaves start tokens engine) :
    Runs (readOrder interpreter [(3, "filll"), (2, "fill"), (1, "fil")]) engine
      fun found after =>
        found = some phrase.order ∧ Leaves start (pastSpace phrase.behind) after := by
  have inert : ∀ token ∈ phrase.behind.head?, Inert start.scopes token :=
    fun token first => (phrase.ends token first).1
  have spelled := phrase.spelled
  -- A longer word breaks where this one ends.
  have longer (more : List Char) : Breaks start.scopes (phrase.keyword.toList ++ 'l' :: more)
      (phrase.word ++ phrase.behind) := .append spelled (.of_head phrase.ends)
  have known := phrase.known
  simp only [List.mem_cons, Prod.mk.injEq, List.not_mem_nil, or_false] at known
  obtain ⟨isOrder, isKeyword⟩ | ⟨isOrder, isKeyword⟩ | ⟨isOrder, isKeyword⟩ := known
  all_goals
    rw [isKeyword] at longer spelled
    rw [isOrder]
  · refine leaves.runs_readOrder idles [(3, "filll"), (2, "fill")] few visible ?_ spelled inert
    simpa using ⟨longer ['l'], longer []⟩
  · refine leaves.runs_readOrder idles [(3, "filll")] few visible ?_ spelled inert
    simpa using longer []
  · exact leaves.runs_readOrder idles [] few visible (by simp) spelled inert

end Leaves

/-- A number with the word for an order of infinity behind it makes an infinite component. -/
theorem runs_readFill (idles : Idles interpreter) (inMath : Bool) {factor : Float}
    (phrase : OrderPhrase start.scopes) {tokens : List Token}
    (few : (tokens.takeWhile Input.isSpace).length < interpreter.limit)
    (visible : tokens.dropWhile Input.isSpace = phrase.word ++ phrase.behind)
    (isNumber : Runs (readFactor interpreter) engine fun result after =>
      result = .number factor ∧ Leaves start tokens after) :
    Runs (readFill interpreter inMath) engine fun fill after =>
      fill = .infinite phrase.order (Dimension.scaled factor Dimension.perPoint).scaledPoints ∧
        Leaves start (pastSpace phrase.behind) after := by
  unfold readFill
  refine isNumber.bind ?_
  rintro _ after ⟨rfl, leaves⟩
  refine (leaves.runs_readOrder_phrase idles phrase few visible).bind ?_
  rintro _ last ⟨rfl, leaves⟩
  exact runs_pure ⟨rfl, leaves⟩

/-- A decimal with such a word behind it makes an infinite component with its value. -/
theorem runs_readFill_decimal (idles : Idles interpreter) (inMath : Bool)
    {constant : DecimalConstant} (phrase : OrderPhrase start.scopes)
    (written : number.map Token.bare = constant.tokens)
    (leaves : Leaves start (number ++ phrase.tokens) engine)
    (few : number.length + phrase.spaces.length < interpreter.limit) :
    Runs (readFill interpreter inMath) engine fun fill after =>
      fill = .infinite phrase.order
        (Dimension.scaled constant.value Dimension.perPoint).scaledPoints ∧
        Leaves start (pastSpace phrase.behind) after := by
  obtain ⟨isSpaces, isVisible⟩ := phrase.span_isSpace
  have enough : number.length < interpreter.limit := (Nat.le_add_right _ _).trans_lt few
  -- The decimal has taken one of the spaces.
  have fewLeft : ((pastSpace phrase.tokens).takeWhile Input.isSpace).length <
      interpreter.limit := by
    refine (length_takeWhile_pastSpace phrase.tokens).trans_lt ?_
    rw [isSpaces]
    exact (Nat.le_add_left _ _).trans_lt few
  exact runs_readFill idles inMath phrase fewLeft
    ((dropWhile_pastSpace phrase.tokens).trans isVisible)
    (leaves.runs_readFactor_decimal idles written phrase.endsDecimal enough)

/-! ## Looking ahead -/

/-- Looking for a keyword is exact.  It is found if and only if its letters stand behind the spaces,
small or capital; then they are gone, with the spaces in front of them and one behind them, and
otherwise only the spaces in front are gone.  So a number and the word for an order of infinity
give this order, whatever number was found, and leave what follows; in particular a decimal does so
with its value.  Nothing else is changed, except for the count of expansions. -/
theorem lookahead_exact (fuel : Nat) (engine : Engine) :
    let interpreter := Engine.interpreter fuel
    let ahead := (engine.input.drain engine.scopes.categories).1
    let visible := ahead.dropWhile Input.isSpace
    ((∀ token ∈ ahead, Inert engine.scopes token) →
      (ahead.takeWhile Input.isSpace).length < fuel →
      ∀ keyword : String, Runs (readKeyword interpreter keyword) engine fun found after =>
        (found = true ↔ ∃ word, word <+: visible ∧ Spells word keyword.toList) ∧
        Leaves engine (if found then pastSpace (visible.drop keyword.length) else visible) after) ∧
    (∀ inMath factor middle (phrase : OrderPhrase middle.scopes),
      readFactor interpreter engine = .ok (.number factor) middle →
      (middle.input.drain middle.scopes.categories).1 = phrase.tokens →
      phrase.spaces.length < fuel →
      Runs (readFill interpreter inMath) engine fun fill after =>
        fill = .infinite phrase.order (Dimension.scaled factor Dimension.perPoint).scaledPoints ∧
        Leaves middle (pastSpace phrase.behind) after) ∧
    (∀ inMath (constant : DecimalConstant) (phrase : OrderPhrase engine.scopes) number,
      number.map Token.bare = constant.tokens → ahead = number ++ phrase.tokens →
      number.length + phrase.spaces.length < fuel →
      Runs (readFill interpreter inMath) engine fun fill after =>
        fill = .infinite phrase.order
          (Dimension.scaled constant.value Dimension.perPoint).scaledPoints ∧
        Leaves engine (pastSpace phrase.behind) after) := by
  intro interpreter ahead visible
  refine ⟨fun inert few keyword => ?_, fun inMath factor middle phrase isNumber isPhrase few => ?_,
    fun inMath constant phrase number written isAhead few => ?_⟩
  all_goals
    obtain ⟨less, rfl⟩ := Nat.exists_eq_add_one.mpr (Nat.zero_lt_of_lt few)
    have idles : Idles interpreter := idles_interpreter less
  · exact Leaves.runs_readKeyword idles keyword inert few (.refl engine)
  · obtain ⟨isSpaces, isVisible⟩ := phrase.span_isSpace
    have leaves : Leaves middle phrase.tokens middle := ⟨rfl, isPhrase⟩
    exact runs_readFill idles inMath phrase (isSpaces ▸ few) isVisible
      ⟨.number factor, middle, isNumber, rfl, leaves⟩
  · exact runs_readFill_decimal idles inMath phrase written ⟨rfl, isAhead⟩ few

/-- A keyword is broken by a marker, and is found without its last letter.  The word behind the
decimal is written in two cases and with a character that is no letter; what would make it longer
stands behind a space. -/
theorem lookahead_exact_fil :
    let engine : Engine :=
      { (default : Engine) with
        input := .empty
        scopes := Scopes.initial.setCommand "relax" (.primitive "relax" (.action .nothing)) true }
    let command : List Token := [.endOfList "cast", .control "relax"]
    let keyword : List Token := [.letter 'P', .other 'l', .letter 'U']
    let glue := engine.facing (.space :: (keyword ++ command))
    let number : List Token := [.other '-', .other '1', .other ',', .other '5']
    let word : List Token := [.letter 'F', .letter 'i', .other 'L']
    let component :=
      engine.facing (number ++ .space :: .space :: (word ++ .space :: .letter 'l' :: command))
    Runs (readKeyword (Engine.interpreter 2) "plus") glue (fun found after =>
      found = false ∧ Leaves glue (keyword ++ command) after) ∧
    Runs (readKeyword (Engine.interpreter 2) "pLu") glue (fun found after =>
      found = true ∧ Leaves glue command after) ∧
    Runs (readFill (Engine.interpreter 7) false) component (fun fill after =>
      (∃ amount, fill = .infinite 1 amount) ∧ Leaves component (.letter 'l' :: command) after) ∧
    ∃ factor middle, readFactor (Engine.interpreter 7) component = .ok (.number factor) middle ∧
      Runs (readFill (Engine.interpreter 7) true) component fun fill after =>
        fill = .infinite 1 (Dimension.scaled factor Dimension.perPoint).scaledPoints ∧
        Leaves middle (.letter 'l' :: command) after := by
  intro engine command keyword glue number word component
  have drains (tokens : List Token) :
      ((engine.facing tokens).input.drain engine.scopes.categories).1 = tokens := by
    rw [facing, Input.drain_pushTokens, show engine.input = .empty from rfl, Input.drain_empty,
      List.append_nil]
  have isAhead : (glue.input.drain glue.scopes.categories).1 = .space :: (keyword ++ command) :=
    drains _
  have inert : ∀ token ∈ .space :: (keyword ++ command), Inert engine.scopes token := by decide
  have spelled : Spells word "fil".toList := by decide
  have ends (scopes : Scopes) : ∀ token ∈ (Token.space :: .letter 'l' :: command).head?,
      Inert scopes token ∧ ¬Denotes token 'l' := by
    simpa using ⟨inert_of_category (by decide), by decide⟩
  let phrase : OrderPhrase component.scopes :=
    ⟨1, "fil", by decide, [.space, .space], by decide, word, spelled, _, ends _⟩
  let constant : DecimalConstant :=
    ⟨[.minus], [.digit ⟨1, by decide, .other, by decide⟩, .comma,
      .digit ⟨5, by decide, .other, by decide⟩], by simp, by decide⟩
  have written : number.map Token.bare = constant.tokens := rfl
  obtain ⟨looks, -, -⟩ := lookahead_exact 2 glue
  rw [isAhead] at looks
  obtain ⟨-, reads, fills⟩ := lookahead_exact 7 component
  refine ⟨?_, ?_, ?_, ?_⟩
  · have breaks : Breaks engine.scopes "plus".toList (keyword ++ command) :=
      .later (by decide) (.later (by decide) (.later (by decide) (.other (by decide) (by decide))))
    refine (looks inert (by decide) "plus").mono ?_
    rintro found after ⟨isFound, leaves⟩
    obtain rfl : found = false := by simpa using mt isFound.mp breaks.not_spelled
    exact ⟨rfl, leaves⟩
  · refine (looks inert (by decide) "pLu").mono ?_
    rintro found after ⟨isFound, leaves⟩
    obtain rfl : found = true := isFound.mpr ⟨keyword, ⟨command, rfl⟩, by decide⟩
    exact ⟨rfl, leaves⟩
  · refine (fills false constant phrase number written (drains _)
      (show 4 + 2 < 7 by decide)).mono ?_
    rintro _ after ⟨rfl, leaves⟩
    exact ⟨⟨_, rfl⟩, leaves⟩
  · have leaves : Leaves component (number ++ phrase.tokens) component := ⟨rfl, drains _⟩
    obtain ⟨_, middle, isNumber, rfl, leaves⟩ :=
      leaves.runs_readFactor_decimal (idles_interpreter 6) written phrase.endsDecimal
        (show 4 < 7 by decide)
    let left : OrderPhrase middle.scopes :=
      ⟨1, "fil", by decide, [.space], by decide, word, spelled, _, ends _⟩
    have isLeft : (middle.input.drain middle.scopes.categories).1 = left.tokens := by
      rw [congrArg Scopes.categories leaves.scopes_eq]
      exact leaves.drain_eq
    exact ⟨_, middle, isNumber, reads true _ middle left isNumber isLeft (show 1 < 7 by decide)⟩

end Engine

end TexTree
