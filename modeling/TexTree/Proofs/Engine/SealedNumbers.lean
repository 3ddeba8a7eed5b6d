import TexTree.Proofs.Engine.Sealed

/-!
# Numbers, dimensions and glue in a token list

Everything that reads quantities keeps a harmless token list complete: what it takes for
a part of the quantity comes from the list, and what it does not take is put back, the
marker in particular.
-/

namespace TexTree

namespace Engine

variable {enclosure : Enclosure} {interpreter : Interpreter}

/-! ## Spaces and keywords -/

theorem keeps_skipSpacesExpanded (respects : interpreter.Respects enclosure) :
    Keeps enclosure (skipSpacesExpanded interpreter) := by
  suffices each : ∀ steps, Keeps enclosure (skipSpacesWithin interpreter steps) from
    each interpreter.limit
  intro steps
  induction steps with
  | zero => exact keeps_fail _
  | succ steps ih =>
      refine keeps_unexpandable respects fun token command engine isTaken _ => ?_
      dsimp only
      split
      · next isSpace => exact ih.behind isTaken (by simp [isSpace])
      · exact results_putBack isTaken

theorem keeps_skipOneSpace (respects : interpreter.Respects enclosure) :
    Keeps enclosure (skipOneSpace interpreter) := by
  refine keeps_unexpandable respects fun token command engine isTaken _ => ?_
  dsimp only
  split
  · exact results_putBack isTaken
  · next isSpace => exact (keeps_pure ()).behind isTaken (by simp_all)

/-- The letters of a keyword that does not go on are put back before the token that ended
it, whether that is the marker or not. -/
theorem keeps_readKeywordFrom (respects : interpreter.Respects enclosure)
    {read : List Token} {characters : List Char}
    (letters : ∀ token ∈ read, enclosure.harmless token ∧ token.category ≠ .beginGroup) :
    Keeps enclosure (readKeywordFrom interpreter read characters) := by
  induction characters generalizing read with
  | nil => exact keeps_pure true
  | cons character rest ih =>
      refine keeps_unexpandable respects fun token command engine isTaken _ => ?_
      dsimp only
      split
      · next spelled =>
          have kind : token.category = .letter ∨ token.category = .other := by
            simp only [spells, Bool.and_eq_true, Bool.or_eq_true, beq_iff_eq] at spelled
            exact spelled.2.1
          have notMarker : token.category ≠ .endOfList := by
            rcases kind with isLetter | isOther
            · simp [isLetter]
            · simp [isOther]
          refine (ih ?_).behind isTaken notMarker
          intro other member
          rcases List.mem_cons.mp member with rfl | earlier
          · refine ⟨isTaken.harmless notMarker, ?_⟩
            rcases kind with isLetter | isOther
            · simp [isLetter]
            · simp [isOther]
          · exact letters other earlier
      · refine Results.bind (results_modify ?_) fun _ _ on => results_pure on
        rw [List.reverse_cons]
        refine isTaken.push (fun other member => (letters other (by simpa using member)).1) ?_
        exact Input.closesBraces_of_forall fun other member =>
          (letters other (by simpa using member)).2

theorem keeps_readKeyword (respects : interpreter.Respects enclosure) (keyword : String) :
    Keeps enclosure (readKeyword interpreter keyword) := by
  refine (keeps_skipSpacesExpanded respects).bind fun _ => ?_
  refine (keeps_readKeywordFrom respects (by simp)).bind fun found => ?_
  cases found with
  | false => exact keeps_pure false
  | true => exact (keeps_skipOneSpace respects).bind fun _ => keeps_pure true

/-! ## Integers -/

/-- A space behind a number is dropped, and everything else is put back. -/
theorem results_endNumber {α : Type} {engine : Engine} {token : Token} {command : Option Command}
    {value : α} (isTaken : enclosure.Taken [token] engine) :
    Results
      (do
        if !(command.isNone && token.category = .space) then putBack token
        return value)
      engine fun _ after => enclosure.On after := by
  split
  · exact results_finish isTaken
  · next isSpace =>
      have notMarker : token.category ≠ .endOfList := by
        intro isMarker
        simp [isMarker] at isSpace
      exact (keeps_pure value).behind isTaken notMarker

theorem keeps_digitsWithin (respects : interpreter.Respects enclosure) (base steps : Nat)
    (value : Option Int) : Keeps enclosure (digitsWithin interpreter base steps value) := by
  induction steps generalizing value with
  | zero => exact keeps_fail _
  | succ steps ih =>
      refine keeps_unexpandable respects fun token command engine isTaken _ => ?_
      dsimp only
      split
      · next found _ =>
          refine (ih _).behind isTaken ?_
          intro isMarker
          simp [digitOf?, isMarker] at found
      · exact results_endNumber isTaken

theorem keeps_readDigits (respects : interpreter.Respects enclosure) (base : Nat)
    (first : Option Nat) (negative : Bool) :
    Keeps enclosure (readDigits interpreter base first negative) := by
  refine (keeps_digitsWithin respects base _ _).bind fun digits => ?_
  have reported : ∀ value : Int, Keeps enclosure (do
      if value > maxNumber then
        warn "numbers"
          ("Number too big: " ++ toString value ++ " replaced by " ++ toString maxNumber)
      return signed negative (min value maxNumber)) := by
    intro value
    split
    · exact (keeps_warn _ _).bind fun _ => keeps_pure _
    · exact keeps_pure _
  split
  · exact (keeps_warn _ _).bind fun _ => reported _
  · exact reported _

theorem results_missingNumber {α : Type} {engine : Engine} {token : Token} {value : α}
    (isTaken : enclosure.Taken [token] engine) :
    Results (do missingNumber (some token); return value) engine
      fun _ after => enclosure.On after := by
  have warned : Results (warn "numbers"
      ("Missing number, treated as zero (found " ++ token.display ++ ")")) engine
      fun _ after => enclosure.Taken [token] after := results_modify (isTaken.same rfl rfl)
  refine Results.bind (warned.bind fun _ _ isTaken => results_putBack isTaken) ?_
  exact fun _ _ on => results_pure on

/-- Characters are no part of a harmless list as constants, so that the token behind a
grave accent is never taken. -/
theorem keeps_integerWithin (respects : interpreter.Respects enclosure) (steps : Nat)
    (negative : Bool) : Keeps enclosure (integerWithin interpreter steps negative) := by
  induction steps generalizing negative with
  | zero => exact keeps_fail _
  | succ steps ih =>
      refine keeps_unexpandable respects fun token command engine isTaken notMarker => ?_
      split
      · next equal => cases equal
      · next equal =>
          cases equal
          exact (keeps_get.bind fun _ => keeps_pure _).behind isTaken (notMarker rfl)
      · next equal =>
          cases equal
          exact (keeps_pure _).behind isTaken (notMarker rfl)
      · next equal =>
          cases equal
          exact (keeps_pure _).behind isTaken (notMarker rfl)
      · next equal =>
          cases equal
          split
          · refine ((ih false).bind fun _ => ?_).behind isTaken (notMarker rfl)
            exact keeps_get.bind fun _ => keeps_pure _
          · exact results_missingNumber isTaken
      · next equal =>
          cases equal
          split
          · next isSpace => exact (ih negative).behind isTaken (by simp [isSpace])
          · next isOther =>
              have inside : token.category ≠ .endOfList := by simp [isOther]
              split
              · exact (ih _).behind isTaken inside
              · exact (ih _).behind isTaken inside
              · exact (keeps_readDigits respects _ _ _).behind isTaken inside
              · exact (keeps_readDigits respects _ _ _).behind isTaken inside
              · next isQuote =>
                  exact absurd isQuote
                    (enclosure.shields.unquoted token (isTaken.harmless inside) isOther)
              · split
                · exact (keeps_readDigits respects _ _ _).behind isTaken inside
                · exact results_missingNumber isTaken
          · exact results_missingNumber isTaken

theorem keeps_readInteger (respects : interpreter.Respects enclosure) :
    Keeps enclosure (readInteger interpreter) :=
  keeps_integerWithin respects _ _

/-! ## Decimals -/

theorem keeps_decimalWithin (respects : interpreter.Respects enclosure) (steps : Nat)
    (read : List Char) : Keeps enclosure (decimalWithin interpreter steps read) := by
  induction steps generalizing read with
  | zero => exact keeps_fail _
  | succ steps ih =>
      refine keeps_unexpandable respects fun token command engine isTaken _ => ?_
      dsimp only
      split
      · next isDigit =>
          simp only [Bool.and_eq_true, decide_eq_true_eq] at isDigit
          exact (ih _).behind isTaken (by simp [isDigit.1.2])
      · split
        · next isPoint =>
            simp only [Bool.and_eq_true, decide_eq_true_eq] at isPoint
            exact (ih _).behind isTaken (by simp [isPoint.1.1.2])
        · exact results_endNumber isTaken

theorem category_of_startsDecimal {token : Token} (starts : startsDecimal token = true) :
    token.category ≠ .endOfList := by
  simp only [startsDecimal, Bool.and_eq_true, decide_eq_true_eq] at starts
  simp [starts.1]

theorem category_of_sign {token : Token} {sign : String}
    (isSign : (decide (token.category = .other) && token.text == sign) = true) :
    token.category ≠ .endOfList := by
  simp only [Bool.and_eq_true, decide_eq_true_eq] at isSign
  simp [isSign.1]

theorem keeps_floatWithin (respects : interpreter.Respects enclosure) (steps : Nat)
    (negative : Bool) : Keeps enclosure (floatWithin interpreter steps negative) := by
  induction steps generalizing negative with
  | zero => exact keeps_fail _
  | succ steps ih =>
      refine keeps_unexpandable respects fun token command engine isTaken notMarker => ?_
      split
      · next equal => cases equal
      · next equal =>
          cases equal
          exact (keeps_get.bind fun _ => keeps_pure _).behind isTaken (notMarker rfl)
      · next equal =>
          cases equal
          exact results_missingNumber isTaken
      · next equal =>
          cases equal
          split
          · next isSpace => exact (ih _).behind isTaken (by simp [isSpace])
          split
          · next isSign => exact (ih _).behind isTaken (category_of_sign isSign)
          split
          · next isSign => exact (ih _).behind isTaken (category_of_sign isSign)
          split
          · next starts =>
              refine ((keeps_decimalWithin respects _ _).bind fun _ => ?_).behind isTaken
                (category_of_startsDecimal starts)
              exact keeps_pure _
          · exact results_missingNumber isTaken

theorem keeps_readFloat (respects : interpreter.Respects enclosure) :
    Keeps enclosure (readFloat interpreter) :=
  keeps_floatWithin respects _ _

/-! ## Dimensions -/

/-- A token that was taken is put back, and then an integer is read. -/
theorem results_integerBack {engine : Engine} {token : Token} {value : Int → Factor}
    (respects : interpreter.Respects enclosure) (isTaken : enclosure.Taken [token] engine) :
    Results
      (do
        putBack token
        return value (← readInteger interpreter))
      engine fun _ after => enclosure.On after := by
  refine (results_putBack isTaken).bind fun _ after on => ?_
  exact ((keeps_readInteger respects).bind fun _ => keeps_pure _) after on

theorem keeps_factorWithin (respects : interpreter.Respects enclosure) (steps : Nat)
    (negative : Bool) : Keeps enclosure (factorWithin interpreter steps negative) := by
  induction steps generalizing negative with
  | zero => exact keeps_fail _
  | succ steps ih =>
      refine keeps_unexpandable respects fun token command engine isTaken notMarker => ?_
      split
      · next equal => cases equal
      · next equal =>
          cases equal
          exact (keeps_get.bind fun _ => keeps_pure _).behind isTaken (notMarker rfl)
      · next equal =>
          cases equal
          exact (keeps_pure _).behind isTaken (notMarker rfl)
      · next equal =>
          cases equal
          exact (keeps_pure _).behind isTaken (notMarker rfl)
      · next equal =>
          cases equal
          split
          · exact results_integerBack respects isTaken
          · exact results_missingNumber isTaken
      · next equal =>
          cases equal
          split
          · next isSpace => exact (ih _).behind isTaken (by simp [isSpace])
          split
          · next isSign => exact (ih _).behind isTaken (category_of_sign isSign)
          split
          · next isSign => exact (ih _).behind isTaken (category_of_sign isSign)
          split
          · exact results_integerBack respects isTaken
          split
          · next starts =>
              refine ((keeps_decimalWithin respects _ _).bind fun _ => ?_).behind isTaken
                (category_of_startsDecimal starts)
              exact keeps_pure _
          · exact results_missingNumber isTaken

theorem keeps_readFactor (respects : interpreter.Respects enclosure) :
    Keeps enclosure (readFactor interpreter) :=
  keeps_factorWithin respects _ _

theorem keeps_readNamedUnit (respects : interpreter.Respects enclosure) (units : List String) :
    Keeps enclosure (readNamedUnit interpreter units) := by
  induction units with
  | nil => exact keeps_pure none
  | cons unit rest ih =>
      refine (keeps_readKeyword respects unit).bind fun found => ?_
      cases found with
      | false => exact ih
      | true => exact keeps_pure _

/-- What a register stands for, if the next token means one, and a choice that depends on
it. -/
theorem results_register {α : Type} {engine : Engine} {token : Token} {command : Option Command}
    {choice : Option Quantity → TexM α}
    (notMarker : command.isSome = true → token.category ≠ .endOfList)
    (missing : Results (choice none) engine fun _ after => enclosure.On after)
    (found : ∀ quantity, token.category ≠ .endOfList →
      Results (choice (some quantity)) engine fun _ after => enclosure.On after) :
    Results
      (do
        let quantity? ← match command with
          | some (.register name) => pure ((← get).registers.get? name)
          | _ => pure none
        choice quantity?)
      engine fun _ after => enclosure.On after := by
  split
  · next name =>
      refine results_get.bind ?_
      rintro _ _ ⟨rfl, rfl⟩
      rw [pure_bind]
      cases known : Table.get? _ name with
      | none => exact missing
      | some quantity => exact found quantity (notMarker rfl)
  · rw [pure_bind]
    exact missing

theorem keeps_readRegisterUnit (respects : interpreter.Respects enclosure) :
    Keeps enclosure (readRegisterUnit interpreter) := by
  refine keeps_unexpandable respects fun token command engine isTaken notMarker => ?_
  refine results_register notMarker (results_finish isTaken) fun quantity inside => ?_
  cases quantity with
  | dimen length => exact (keeps_pure _).behind isTaken inside
  | skip glue => exact (keeps_pure _).behind isTaken inside
  | count value => exact results_finish isTaken
  | muskip glue => exact results_finish isTaken

theorem keeps_readUnit (respects : interpreter.Respects enclosure) (factor : Float)
    (inMath : Bool) : Keeps enclosure (readUnit interpreter factor inMath) := by
  cases inMath with
  | true =>
      refine (keeps_readKeyword respects "mu").bind fun found => ?_
      cases found with
      | true => exact keeps_pure _
      | false => exact (keeps_warn _ _).bind fun _ => keeps_pure _
  | false =>
      refine (keeps_readKeyword respects "true").bind fun _ => ?_
      refine (keeps_readNamedUnit respects _).bind fun unit? => ?_
      cases unit? with
      | some unit => exact keeps_pure _
      | none =>
          refine (keeps_readRegisterUnit respects).bind fun length? => ?_
          cases length? with
          | some length => exact keeps_pure _
          | none => exact (keeps_warn _ _).bind fun _ => keeps_pure _

theorem keeps_readDimensionIn (respects : interpreter.Respects enclosure) (inMath : Bool) :
    Keeps enclosure (readDimensionIn interpreter inMath) := by
  refine (keeps_readFactor respects).bind fun factor => ?_
  cases factor with
  | dimension length => exact keeps_pure _
  | number value => exact keeps_readUnit respects value inMath

/-! ## Glue -/

theorem keeps_readOrder (respects : interpreter.Respects enclosure)
    (keywords : List (Nat × String)) : Keeps enclosure (readOrder interpreter keywords) := by
  induction keywords with
  | nil => exact keeps_pure none
  | cons first rest ih =>
      refine (keeps_readKeyword respects first.2).bind fun found => ?_
      cases found with
      | false => exact ih
      | true => exact keeps_pure _

theorem keeps_readFill (respects : interpreter.Respects enclosure) (inMath : Bool) :
    Keeps enclosure (readFill interpreter inMath) := by
  refine (keeps_readFactor respects).bind fun factor => ?_
  cases factor with
  | dimension length => exact keeps_pure _
  | number value =>
      refine (keeps_readOrder respects _).bind fun order? => ?_
      cases order? with
      | some order => exact keeps_pure _
      | none => exact (keeps_readUnit respects value inMath).bind fun _ => keeps_pure _

theorem keeps_readRegisterGlue (respects : interpreter.Respects enclosure) (inMath : Bool) :
    Keeps enclosure (readRegisterGlue interpreter inMath) := by
  refine keeps_unexpandable respects fun token command engine isTaken notMarker => ?_
  refine results_register notMarker ?_ fun quantity inside => ?_
  · exact results_finish isTaken
  · split
    · exact (keeps_pure _).behind isTaken inside
    · exact (keeps_pure _).behind isTaken inside
    · exact results_finish isTaken

theorem keeps_readComponent (respects : interpreter.Respects enclosure) (keyword : String)
    (inMath : Bool) : Keeps enclosure (readComponent interpreter keyword inMath) := by
  refine (keeps_readKeyword respects keyword).bind fun found => ?_
  cases found with
  | false => exact keeps_pure _
  | true => exact keeps_readFill respects inMath

theorem keeps_readGlue (respects : interpreter.Respects enclosure) (inMath : Bool) :
    Keeps enclosure (readGlue interpreter inMath) := by
  refine (keeps_skipSpacesExpanded respects).bind fun _ => ?_
  refine (keeps_readRegisterGlue respects inMath).bind fun glue? => ?_
  cases glue? with
  | some glue => exact keeps_pure _
  | none =>
      refine (keeps_readDimensionIn respects inMath).bind fun _ => ?_
      refine (keeps_readComponent respects "plus" inMath).bind fun _ => ?_
      exact (keeps_readComponent respects "minus" inMath).bind fun _ => keeps_pure _

end Engine

end TexTree
