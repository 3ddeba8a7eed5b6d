import TexTree.Proofs.Engine.Digits

/-!
# Integer constants

The value of an integer constant is that of its digits, at most the greatest number, with the
sign that the minus signs make together (`IntegerConstant.value`).  Constants of any length are
read, and what is left is what follows the constant, without one space (`constant_read`).
-/

namespace TexTree

namespace Engine

variable {scopes : Scopes} {radix : Radix} {engine : Engine} {interpreter : Interpreter}
  {tokens behind : List Token} {token : Token}

/-! ## Reading with expansion -/

namespace Faces

theorem runs_nextRaw_nil (faces : Faces scopes [] engine) :
    Runs nextRaw engine fun result after => result = none ∧ Faces scopes [] after :=
  faces.runs_reading (Input.next_of_ahead_nil faces.ahead) Input.ahead_empty

/-- Only the bare tokens matter. -/
theorem congr {other : List Token} (faces : Faces scopes tokens engine)
    (same : tokens.map Token.bare = other.map Token.bare) : Faces scopes other engine :=
  ⟨faces.scopes_eq, faces.ahead.trans same⟩

theorem runs_warn (faces : Faces scopes tokens engine) (topic message : String) :
    Runs (warn topic message) engine fun _ after => Faces scopes tokens after :=
  runs_modify ⟨faces.scopes_eq, faces.ahead⟩

/-- A token that is put back is read again. -/
theorem runs_putBack (faces : Faces scopes behind engine) {found : Token}
    (same : found.bare = token.bare) :
    Runs (putBack found) engine fun _ after => Faces scopes (token :: behind) after :=
  runs_modify ((faces.pushTokens [found]).congr (by simp [same]))

/-- At the end of the input there is nothing to expand. -/
theorem runs_unexpandable_nil (enough : 0 < interpreter.limit) (faces : Faces scopes [] engine) :
    Runs (unexpandable interpreter) engine fun result after =>
      result = none ∧ Faces scopes [] after := by
  obtain ⟨steps, isLimit⟩ := Nat.exists_eq_add_one.mpr enough
  rw [unexpandable, isLimit, unexpandableWithin]
  have isNext : Runs nextToken engine fun result after =>
      result = none ∧ Faces scopes [] after := by
    refine faces.runs_nextRaw_nil.bind ?_
    rintro _ after ⟨rfl, faces⟩
    exact runs_pure ⟨rfl, faces⟩
  refine isNext.bind ?_
  rintro _ after ⟨rfl, faces⟩
  exact runs_pure ⟨rfl, faces⟩

/-- A character is not expanded. -/
theorem runs_unexpandable_character (enough : 0 < interpreter.limit)
    (isCharacter : token.isControl = false) (faces : Faces scopes (token :: behind) engine) :
    Runs (unexpandable interpreter) engine fun result after =>
      (∃ found, result = some (found, none) ∧ found.bare = token.bare) ∧
        Faces scopes behind after := by
  obtain ⟨steps, isLimit⟩ := Nat.exists_eq_add_one.mpr enough
  rw [unexpandable, isLimit, unexpandableWithin, nextToken, bind_assoc]
  refine faces.runs_nextRaw.bind ?_
  rintro _ after ⟨⟨found, rfl, same⟩, faces⟩
  have isPlain : found.isControl = false := by
    rw [← Token.isControl_bare, same, Token.isControl_bare, isCharacter]
  simp only [isPlain, Bool.false_eq_true, if_false, pure_bind]
  exact runs_pure ⟨⟨found, rfl, same⟩, faces⟩

/-- A command that cannot be expanded is found with its token. -/
theorem runs_unexpandable_command (idles : Idles interpreter) (enough : 0 < interpreter.limit)
    {command : Command} (isControl : token.isControl = true)
    (noAlias : scopes.alias? token.text = none)
    (bound : scopes.command? token.text = some command) (fixed : command.isExpandable = false)
    (faces : Faces scopes (token :: behind) engine) :
    Runs (unexpandable interpreter) engine fun result after =>
      (∃ found, result = some (found, some command) ∧ found.bare = token.bare) ∧
        Faces scopes behind after := by
  obtain ⟨steps, isLimit⟩ := Nat.exists_eq_add_one.mpr enough
  rw [unexpandable, isLimit, unexpandableWithin, nextToken, bind_assoc]
  refine faces.runs_nextRaw.bind ?_
  rintro _ after ⟨⟨found, rfl, same⟩, faces⟩
  have isCommand : found.isControl = true := by
    rw [← Token.isControl_bare, same, Token.isControl_bare, isControl]
  have sameText : found.text = token.text := by simpa using congrArg Token.text same
  have notExpanded : Runs (interpreter.run (.expand found command)) after
      fun expands last => expands = false ∧ last = after :=
    ⟨false, after, idles found command after fixed, rfl, rfl⟩
  simp only [isCommand, if_true, bind_assoc]
  refine runs_get ?_
  simp only [faces.scopes_eq, sameText, noAlias, pure_bind, isCommand, if_true]
  refine runs_get ?_
  simp only [faces.scopes_eq, bound]
  refine notExpanded.bind ?_
  rintro _ _ ⟨rfl, rfl⟩
  exact runs_modify_bind (runs_pure ⟨⟨found, rfl, same⟩, faces.scopes_eq, faces.ahead⟩)

/-- Behind the last digit, one space is dropped. -/
theorem runs_digitsWithin_end (idles : Idles interpreter) (enough : 0 < interpreter.limit)
    (ends : Ends scopes radix behind) (faces : Faces scopes behind engine) (steps : Nat)
    (value : Option Int) :
    Runs (digitsWithin interpreter radix.base (steps + 1) value) engine fun result after =>
      result = value ∧ Faces scopes (pastSpace behind) after := by
  unfold digitsWithin
  cases ends with
  | input =>
      refine (faces.runs_unexpandable_nil enough).bind ?_
      rintro _ after ⟨rfl, faces⟩
      exact runs_pure ⟨rfl, faces⟩
  | @character token rest isCharacter noDigit =>
      refine (faces.runs_unexpandable_character enough isCharacter).bind ?_
      rintro _ after ⟨⟨found, rfl, same⟩, faces⟩
      have notFound : digitOf? radix.base found = none := by
        refine digitOf?_eq_none ?_
        rwa [← isDigit_bare, same, isDigit_bare]
      have sameCategory : found.category = token.category := Token.category_eq same
      simp only [notFound, sameCategory, pastSpace]
      by_cases isSpace : token.category = .space
      · simp only [isSpace, Option.isNone_none, decide_true, Bool.and_self, Bool.not_true,
          Bool.false_eq_true, if_false, if_true]
        exact runs_pure ⟨rfl, faces⟩
      · simp only [isSpace, decide_false, Bool.and_false, Bool.not_false, if_true, if_false]
        refine (faces.runs_putBack same).bind fun _ after faces => ?_
        exact runs_pure ⟨rfl, faces⟩
  | @command token rest command isControl noAlias bound fixed =>
      refine (faces.runs_unexpandable_command idles enough isControl noAlias bound fixed).bind ?_
      rintro _ after ⟨⟨found, rfl, same⟩, faces⟩
      have isEscape : token.category = .escape := by simpa [Token.isControl] using isControl
      simp only [Option.isNone_some, Bool.false_and, Bool.not_false, if_true, pastSpace, isEscape,
        reduceCtorEq, if_false]
      refine (faces.runs_putBack same).bind fun _ after faces => ?_
      exact runs_pure ⟨rfl, faces⟩

/-- The digits are read to their end; those that were read before are given in reverse. -/
theorem runs_digitsWithin (idles : Idles interpreter) (enough : 0 < interpreter.limit)
    (ends : Ends scopes radix behind) (digits : List (Digit radix)) (steps : Nat)
    (read : List Nat) (faces : Faces scopes (digits.map Digit.token ++ behind) engine) :
    Runs (digitsWithin interpreter radix.base (digits.length + steps + 1) (held radix.base read))
      engine fun result after =>
        result = held radix.base ((digits.map Digit.value).reverse ++ read) ∧
          Faces scopes (pastSpace behind) after := by
  -- By induction on the digits that are ahead; what is held grows with those that were read.
  induction digits generalizing engine read with
  | nil => exact faces.runs_digitsWithin_end idles enough ends _ _
  | cons digit digits ih =>
      rw [List.length_cons, Nat.add_right_comm digits.length, digitsWithin]
      refine (faces.runs_unexpandable_character enough digit.isCharacter).bind ?_
      rintro _ after ⟨⟨found, rfl, same⟩, faces⟩
      have isDigit : digitOf? radix.base found = some digit.value := by
        rw [← digitOf?_bare, same, digitOf?_bare, digitOf?_digit]
      simp only [isDigit, ← held_cons radix.base_pos]
      have rest := ih (digit.value :: read) faces
      rwa [List.map_cons, List.reverse_cons, List.append_assoc]

/-- The digits denote their number, at most the greatest one. -/
theorem runs_readDigits (idles : Idles interpreter) (ends : Ends scopes radix behind)
    (first : Option (Digit radix)) {digits : List (Digit radix)}
    (nonempty : first.toList ++ digits ≠ []) (enough : digits.length < interpreter.limit)
    (negative : Bool) (faces : Faces scopes (digits.map Digit.token ++ behind) engine) :
    Runs (readDigits interpreter radix.base (first.map Digit.value) negative) engine
      fun result after =>
        result = (if negative then -1 else 1) *
            min (Digit.number (first.toList ++ digits) : Int) maxNumber ∧
          Faces scopes (pastSpace behind) after := by
  obtain ⟨steps, isLimit⟩ := Nat.exists_eq_add_of_lt enough
  have isRead : (first.map Digit.value).map Int.ofNat =
      held radix.base (first.toList.map Digit.value) := by
    cases first with
    | none => rfl
    | some digit => exact congrArg some (saturate_digit digit).symm
  have isNumber : held radix.base
      ((digits.map Digit.value).reverse ++ first.toList.map Digit.value) =
        some (Word.saturate (Digit.number (first.toList ++ digits))) := by
    have same : (digits.map Digit.value).reverse ++ first.toList.map Digit.value =
        ((first.toList ++ digits).map Digit.value).reverse := by
      cases first <;> simp
    rw [held, same, if_neg (by rwa [List.reverse_eq_nil_iff, List.map_eq_nil_iff]),
      Digit.number]
  unfold readDigits
  rw [isRead, isLimit]
  refine (faces.runs_digitsWithin idles (Nat.zero_lt_of_lt enough) ends digits steps _).bind ?_
  rintro _ after ⟨rfl, faces⟩
  simp only [isNumber, Option.isNone_some, Bool.false_eq_true, if_false, Option.getD_some]
  split
  · refine (faces.runs_warn _ _).bind fun _ after faces => ?_
    exact runs_pure ⟨signed_saturate negative _, faces⟩
  · exact runs_pure ⟨signed_saturate negative _, faces⟩

/-- The digits behind the signs, with their mark. -/
theorem runs_integerWithin_digits (idles : Idles interpreter) (ends : Ends scopes radix behind)
    {digits : List (Digit radix)} (nonempty : digits ≠ [])
    (enough : digits.length < interpreter.limit) (steps : Nat) (negative : Bool)
    (faces : Faces scopes (radix.mark ++ (digits.map Digit.token ++ behind)) engine) :
    Runs (integerWithin interpreter (steps + 1) negative) engine fun result after =>
      result = (if negative then -1 else 1) * min (Digit.number digits : Int) maxNumber ∧
        Faces scopes (pastSpace behind) after := by
  have positive : 0 < interpreter.limit := Nat.zero_lt_of_lt enough
  unfold integerWithin
  cases radix with
  | decimal =>
      obtain ⟨first, more, rfl⟩ := List.exists_cons_of_ne_nil nonempty
      have isOther : first.category = .other :=
        first.isProper.resolve_right fun isLetter =>
          Nat.not_lt.mpr isLetter.2 first.isBelow
      refine (faces.runs_unexpandable_character positive first.isCharacter).bind ?_
      rintro _ after ⟨⟨found, rfl, same⟩, faces⟩
      have sameCategory : found.category = .other := (Token.category_eq same).trans isOther
      have notMark : found.text ∉ ["-", "+", "'", "\"", "`"] := by
        rw [← Token.text_bare, same]
        exact first.text_notMem
      have isDigit : digitOf? 10 found = some first.value := by
        rw [← digitOf?_bare, same, digitOf?_bare]
        exact digitOf?_digit first
      simp only [sameCategory]
      split
      case h_6 =>
        simp only [isDigit]
        exact faces.runs_readDigits idles ends (some first) nonempty (Nat.lt_of_succ_lt enough)
          negative
      -- The digit is none of the signs and marks.
      all_goals
        next isMark => simp [isMark] at notMark
  | octal =>
      refine (faces.runs_unexpandable_character positive rfl).bind ?_
      rintro _ after ⟨⟨found, rfl, same⟩, faces⟩
      have sameCategory : found.category = .other := Token.category_eq same
      have sameText : found.text = "'" := congrArg Token.text same
      simp only [sameCategory, sameText]
      exact faces.runs_readDigits idles ends none nonempty enough negative
  | hexadecimal =>
      refine (faces.runs_unexpandable_character positive rfl).bind ?_
      rintro _ after ⟨⟨found, rfl, same⟩, faces⟩
      have sameCategory : found.category = .other := Token.category_eq same
      have sameText : found.text = "\"" := congrArg Token.text same
      simp only [sameCategory, sameText]
      exact faces.runs_readDigits idles ends none nonempty enough negative

/-- A sign changes at most whether the number is negative. -/
theorem runs_integerWithin_sign (positive : 0 < interpreter.limit) (sign : Sign) (steps : Nat)
    (negative : Bool) {post : Int → Engine → Prop}
    (faces : Faces scopes (sign.token :: behind) engine)
    (goesOn : ∀ after, Faces scopes behind after →
      Runs (integerWithin interpreter steps (negative != sign.negates)) after post) :
    Runs (integerWithin interpreter (steps + 1) negative) engine post := by
  have isCharacter : sign.token.isControl = false := by cases sign <;> rfl
  unfold integerWithin
  refine (faces.runs_unexpandable_character positive isCharacter).bind ?_
  rintro _ after ⟨⟨found, rfl, same⟩, faces⟩
  have next := goesOn after faces
  cases sign with
  | plus =>
      have sameCategory : found.category = .other := Token.category_eq same
      have sameText : found.text = "+" := congrArg Token.text same
      simpa [sameCategory, sameText, Sign.negates] using next
  | minus =>
      have sameCategory : found.category = .other := Token.category_eq same
      have sameText : found.text = "-" := congrArg Token.text same
      simpa [sameCategory, sameText, Sign.negates] using next
  | space text =>
      have sameCategory : found.category = .space := Token.category_eq same
      simpa [sameCategory, Sign.negates] using next

/-- The constant is read behind any number of signs. -/
theorem runs_integerWithin (idles : Idles interpreter) (constant : IntegerConstant)
    (ends : Ends scopes constant.radix behind) (enough : constant.digits.length < interpreter.limit)
    (steps : Nat) (negative : Bool)
    (faces : Faces scopes (constant.tokens ++ behind) engine) :
    Runs (integerWithin interpreter (constant.signs.length + steps + 1) negative) engine
      fun result after =>
        result = (if negative then -1 else 1) * constant.value ∧
          Faces scopes (pastSpace behind) after := by
  obtain ⟨signs, radix, digits, nonempty⟩ := constant
  dsimp only at ends enough ⊢
  have positive : 0 < interpreter.limit := Nat.zero_lt_of_lt enough
  induction signs generalizing engine negative with
  | nil =>
      have inFront : Faces scopes (radix.mark ++ (digits.map Digit.token ++ behind)) engine := by
        rwa [← List.append_assoc]
      have read := inFront.runs_integerWithin_digits idles ends nonempty enough steps negative
      simpa [IntegerConstant.value] using read
  | cons sign signs ih =>
      rw [List.length_cons, Nat.add_right_comm signs.length]
      refine faces.runs_integerWithin_sign positive sign _ negative fun after faces => ?_
      refine (ih (negative != sign.negates) faces).mono ?_
      rintro _ last ⟨rfl, faces⟩
      refine ⟨?_, faces⟩
      cases negative <;> cases isMinus : sign.negates <;>
        simp [IntegerConstant.value, isMinus, pow_succ]

end Faces

/-- A constant is read with its value, however long it is; what stands behind it is left, without
one space. -/
theorem constant_read (fuel : Nat) (engine : Engine) (constant : IntegerConstant)
    {behind : List Token} (ends : Ends engine.scopes constant.radix behind)
    (ahead : engine.input.ahead engine.scopes.categories =
      (constant.tokens ++ behind).map Token.bare)
    (enough : constant.tokens.length < fuel) :
    ∃ after, readInteger (Engine.interpreter fuel) engine = .ok constant.value after ∧
      after.scopes = engine.scopes ∧
      after.input.ahead engine.scopes.categories = (pastSpace behind).map Token.bare := by
  have faces : Faces engine.scopes (constant.tokens ++ behind) engine := ⟨rfl, ahead⟩
  have isLength : constant.tokens.length =
      constant.signs.length + (constant.radix.mark.length + constant.digits.length) := by
    simp [IntegerConstant.tokens]
  obtain ⟨less, rfl⟩ := Nat.exists_eq_add_one.mpr (Nat.zero_lt_of_lt enough)
  have hasDigits : constant.digits.length < (Engine.interpreter (less + 1)).limit := by
    change constant.digits.length < less + 1
    omega
  obtain ⟨steps, rfl⟩ := Nat.exists_eq_add_of_le
    (show constant.signs.length ≤ less by omega)
  obtain ⟨_, after, isRead, rfl, faces⟩ :=
    faces.runs_integerWithin (idles_interpreter _) constant ends hasDigits steps false
  exact ⟨after, isRead.trans (by simp), faces.scopes_eq, faces.ahead⟩

/-- Twenty hexadecimal digits make more than a word; they have three minus signs in front of
them, and a space behind them. -/
theorem constant_read_hexadecimal :
    let engine := fresh {} default ⟨2021, 3, 4⟩ .empty
    let constant : IntegerConstant :=
      ⟨[.minus, .space " ", .minus, .plus, .minus], .hexadecimal,
        .replicate 10 ⟨15, by decide, .letter, by decide⟩ ++
          .replicate 10 ⟨15, by decide, .other, by decide⟩, by simp⟩
    let behind : List Token := [.space, .letter 'x']
    constant.tokens.length < 30 ∧ ∃ after,
      readInteger (Engine.interpreter 30)
        (engine.facing (constant.tokens ++ behind)) = .ok (-2147483647) after ∧
      after.scopes = engine.scopes ∧
      after.input.ahead engine.scopes.categories = [.letter 'x'] := by
  intro engine constant behind
  have short : constant.tokens.length < 30 := by decide
  have isValue : constant.value = -2147483647 := by decide +kernel
  have noInput : engine.input.ahead engine.scopes.categories = [] := by
    rw [show engine.input = .empty from rfl, Input.ahead_empty]
  -- What the engine holds besides does not matter.
  clear_value engine constant
  have ends : Ends engine.scopes constant.radix behind := by
    refine .character rfl fun isDigit => ?_
    obtain ⟨isCharacter, -⟩ := isDigit
    revert isCharacter
    decide
  have ahead : (engine.facing (constant.tokens ++ behind)).input.ahead
      engine.scopes.categories = (constant.tokens ++ behind).map Token.bare := by
    rw [facing, Input.ahead_pushTokens, noInput, List.append_nil]
  obtain ⟨after, isRead, sameScopes, left⟩ :=
    constant_read 30 (engine.facing (constant.tokens ++ behind)) constant ends ahead short
  rw [isValue] at isRead
  exact ⟨short, after, isRead, sameScopes, left⟩

end Engine

end TexTree
