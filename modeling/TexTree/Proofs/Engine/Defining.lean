import TexTree.Proofs.Engine.Customs

/-!
# Defining environments

An engine between two tokens of a source is described by what its outermost frame knows
(`Frame.Knows`), by the environments that are open and by the tokens that are ahead (`Stands`).

A definition is read as a whole and gives no item (`Stands.skips_definition`).
-/

namespace TexTree

namespace Engine

/-- The owner of the scope of an open environment. -/
def customOwner (id : NodeId) (name : String) : FrameOwner :=
  { node := some id, name, mode := .opening, level := Level.environment }

/-- The scope of an open environment. -/
def customFrame (id : NodeId) (name : String) : Frame := plainFrame (some (customOwner id name)) []

/-- The engine is between two tokens.  The given environments are open, each with its node,
the innermost first, and the given tokens are ahead. -/
structure Stands (defined pending : List Custom) (opened : List (NodeId × String))
    (tokens : List Token) (engine : Engine) : Prop where
  ahead : engine.input.ahead .initial = tokens.map Token.bare
  inner : engine.scopes.inner = opened.map fun entry => customFrame entry.1 entry.2
  base : engine.scopes.base.Knows defined pending
  buffer : engine.buffer = []

variable {defined pending : List Custom} {opened : List (NodeId × String)}
  {tokens behind : List Token} {first : Token} {engine between after : Engine} {name : String}
  {interpreter : Interpreter}

/-- What is ahead behind two readings. -/
theorem GoesOn.trans (one : GoesOn engine tokens between) (two : GoesOn between behind after) :
    GoesOn engine behind after := by
  have unchanged := two.unchanged
  have ahead := two.ahead
  rw [one.unchanged] at unchanged ahead
  exact ⟨unchanged, ahead⟩

namespace Stands

theorem categories (stands : Stands defined pending opened tokens engine) :
    engine.scopes.categories = .initial := by
  rw [Scopes.categories, Scopes.top, stands.inner]
  cases opened with
  | nil => exact stands.base.categories
  | cons entry rest => rfl

theorem alias? (stands : Stands defined pending opened tokens engine) (name : String) :
    engine.scopes.alias? name = none := by
  have base := stands.base.aliases name
  rw [Scopes.alias?, Scopes.frames, stands.inner]
  clear stands
  induction opened with
  | nil => simp [Scopes.aliasIn, base]
  | cons entry rest ih =>
      rw [List.map_cons, List.cons_append, Scopes.aliasIn, ih]
      rfl

/-- Names are bound in the outermost frame only. -/
theorem command? (stands : Stands defined pending opened tokens engine) (name : String) :
    engine.scopes.command? name = engine.scopes.base.commands.get? name := by
  have noAliases := stands.base.aliases name
  rw [Scopes.command?, Scopes.frames, stands.inner]
  clear stands
  induction opened with
  | nil =>
      cases found : engine.scopes.base.commands.get? name with
      | some command => simp [Scopes.commandIn, found]
      | none => simp [Scopes.commandIn, found, Table.contains, noAliases]
  | cons entry rest ih =>
      rw [List.map_cons, List.cons_append, Scopes.commandIn, ih]
      rfl

/-- A name of the language has its meaning. -/
theorem meaning (stands : Stands defined pending opened tokens engine)
    (member : name ∈ Builtin.structureNames) {command : Command}
    (isMeaning : Builtin.meaning? name = some command) :
    engine.scopes.command? name = some command := by
  rw [stands.command?, stands.base.commands name member, isMeaning]

/-- Only the input has changed. -/
theorem goOn (stands : Stands defined pending opened tokens engine)
    (goesOn : GoesOn engine behind after) : Stands defined pending opened behind after := by
  have left := goesOn.ahead
  rw [stands.categories] at left
  rw [goesOn.unchanged]
  exact ⟨left, stands.inner, stands.base, stands.buffer⟩

/-! ## Reading -/

theorem runs_reading (stands : Stands defined pending opened tokens engine) {α : Type}
    {read : CategoryTable → Input → α × Input} {value : α} {rest : Input}
    (found : read .initial engine.input = (value, rest))
    (left : rest.ahead .initial = behind.map Token.bare) :
    Runs (reading read) engine fun result after =>
      result = value ∧ GoesOn engine behind after := by
  rw [← stands.categories] at found left
  exact Engine.runs_reading found left

theorem runs_readingOrFail (stands : Stands defined pending opened tokens engine) {α : Type}
    {read : CategoryTable → Input → Except Fault α × Input} {value : α} {rest : Input}
    (found : read .initial engine.input = (.ok value, rest))
    (left : rest.ahead .initial = behind.map Token.bare) :
    Runs (readingOrFail read) engine fun result after =>
      result = value ∧ GoesOn engine behind after := by
  refine (stands.runs_reading found left).bind ?_
  rintro _ after ⟨rfl, goesOn⟩
  exact runs_pure ⟨rfl, goesOn⟩

theorem runs_nextRaw (stands : Stands defined pending opened (first :: tokens) engine) :
    Runs nextRaw engine fun result after =>
      (∃ token, result = some token ∧ token.bare = first.bare) ∧ GoesOn engine tokens after := by
  obtain ⟨token, rest, found, same, left⟩ := Input.next_of_ahead stands.ahead
  refine (stands.runs_reading found left).mono ?_
  rintro _ after ⟨rfl, goesOn⟩
  exact ⟨⟨token, rfl, same⟩, goesOn⟩

theorem runs_nextToken (stands : Stands defined pending opened (first :: tokens) engine) :
    Runs nextToken engine fun result after =>
      (∃ token, result = some token ∧ token.bare = first.bare) ∧ GoesOn engine tokens after := by
  unfold nextToken
  refine stands.runs_nextRaw.bind ?_
  rintro _ after ⟨⟨token, rfl, same⟩, goesOn⟩
  dsimp only
  split
  · apply runs_get
    rw [(stands.goOn goesOn).alias?]
    exact runs_pure ⟨⟨token, rfl, same⟩, goesOn⟩
  · exact runs_pure ⟨⟨token, rfl, same⟩, goesOn⟩

theorem runs_nextToken_nil (stands : Stands defined pending opened [] engine) :
    Runs nextToken engine fun result _ => result = none := by
  unfold nextToken
  have nothing : Input.empty.ahead .initial = ([] : List Token).map Token.bare :=
    Input.ahead_empty
  refine (stands.runs_reading (Input.next_of_ahead_nil stands.ahead) nothing).bind ?_
  rintro _ after ⟨rfl, _⟩
  exact runs_pure rfl

theorem runs_pushTokens (stands : Stands defined pending opened tokens engine)
    {added written : List Token} (same : added.map Token.bare = written.map Token.bare) :
    Runs (pushTokens added) engine fun _ after => GoesOn engine (written ++ tokens) after := by
  refine runs_modify ⟨rfl, ?_⟩
  rw [stands.categories, Input.ahead_pushTokens, stands.ahead, same, List.map_append]

theorem runs_skipSpaces (stands : Stands defined pending opened (first :: tokens) engine)
    (notSpace : first.category ≠ .space) :
    Runs skipSpaces engine fun _ after => GoesOn engine (first :: tokens) after := by
  have left : (engine.input.skipSpaces .initial).ahead .initial =
      (first :: tokens).map Token.bare := by
    rw [Input.ahead_skipSpaces, stands.ahead, List.map_cons, List.dropWhile_cons_of_neg]
    simpa [Input.isSpace] using notSpace
  have skips : Runs skipSpaces engine fun result after =>
      result = () ∧ GoesOn engine (first :: tokens) after := stands.runs_reading rfl left
  exact skips.mono fun _ after found => found.2

/-! ## Arguments -/

variable {inside : List Token}

theorem runs_readArgument
    (stands : Stands defined pending opened (.beginGroup :: (inside ++ .endGroup :: behind))
      engine)
    (balanced : Input.Balanced (inside.map Token.bare)) (command : String) :
    Runs (readArgumentFor command) engine fun result after =>
      result.map Token.bare = inside.map Token.bare ∧ GoesOn engine behind after := by
  have ahead := stands.ahead
  rw [List.map_cons, List.map_append, List.map_cons] at ahead
  obtain ⟨found, rest, read, same, left⟩ :=
    Input.argument_of_ahead ahead rfl rfl (balanced 0)
  unfold readArgumentFor readArgument
  refine (stands.runs_readingOrFail read left).bind ?_
  rintro _ after ⟨rfl, goesOn⟩
  exact runs_pure ⟨same, goesOn⟩

/-- The name of an environment is read. -/
theorem runs_readName (isName : Text.isControlWord name)
    (stands : Stands defined pending opened (braced name behind) engine) :
    Runs readName engine fun result after => result = name ∧ GoesOn engine behind after := by
  have ahead := stands.ahead
  have letters : (nameTokens name).map Token.bare = nameTokens name := by
    rw [nameTokens, List.map_map]
    rfl
  rw [braced, List.map_cons, List.map_append, List.map_cons, letters] at ahead
  obtain ⟨rest, read, left⟩ :=
    Input.nameArgument_of_ahead ahead rfl rfl (braces_nameTokens name)
  have solid : ∀ character ∈ name.toList, Text.isBlank character = false := by
    have facts : (CategoryTable.asciiLetters.all fun letter => !Text.isBlank letter) = true := by
      decide +kernel
    intro character member
    have isLetter := Text.mem_asciiLetters isName character member
    simpa using List.all_eq_true.mp facts character isLetter
  rw [displayList_nameTokens, Text.trim_eq solid] at read
  exact stands.runs_readingOrFail read left

/-- A bracket does not follow. -/
theorem runs_readBracketed (stands : Stands defined pending opened (.beginGroup :: tokens) engine) :
    Runs (readBracketed '[' ']') engine fun result after =>
      result = none ∧ GoesOn engine (.beginGroup :: tokens) after := by
  have follows : (engine.input.ahead .initial).dropWhile Input.isSpace =
      Token.beginGroup :: tokens.map Token.bare := by
    rw [stands.ahead]
    rfl
  obtain ⟨rest, read, left⟩ :
      ∃ rest, engine.input.bracketed .initial '[' ']' = (.ok none, rest) ∧
        rest.ahead .initial = Token.beginGroup :: tokens.map Token.bare :=
    Input.bracketed_of_ahead follows rfl
  exact stands.runs_readingOrFail read left

/-- A star does not follow. -/
theorem runs_readStar (stands : Stands defined pending opened (.beginGroup :: tokens) engine) :
    Runs readStar engine fun result after =>
      result = false ∧ GoesOn engine (.beginGroup :: tokens) after := by
  unfold readStar
  refine (stands.runs_skipSpaces (by decide)).bind ?_
  intro _ skipped goesOn
  refine ((stands.goOn goesOn).runs_nextRaw).bind ?_
  rintro _ taken ⟨⟨token, rfl, same⟩, goesOn'⟩
  have notStar : token.isChar '*' = false := by
    rw [← Token.isChar_bare, same]
    rfl
  simp only [notStar, Bool.false_eq_true, if_false]
  have isSame : [token].map Token.bare = [Token.beginGroup].map Token.bare := by
    rw [List.map_singleton, same]
    rfl
  have put := ((stands.goOn goesOn).goOn goesOn').runs_pushTokens isSame
  refine Runs.bind put ?_
  intro _ last goesOn''
  exact runs_pure ⟨rfl, (goesOn.trans goesOn').trans goesOn''⟩

/-! ## Definitions -/

variable {environment : Custom}

/-- A code in braces is read. -/
theorem runs_readCode {code : List Char}
    (stands : Stands defined pending opened (Custom.codeTokens code ++ behind) engine)
    (command : String) :
    Runs (readArgumentFor command) engine fun result after =>
      result.map Token.bare = code.map Token.letter ∧ GoesOn engine behind after := by
  have letters : (code.map Token.letter).map Token.bare = code.map Token.letter := by
    rw [List.map_map]
    rfl
  rw [Custom.codeTokens, List.cons_append, List.append_assoc, List.singleton_append] at stands
  refine (stands.runs_readArgument (by rw [letters]; exact .letters code) command).mono ?_
  rintro result after ⟨same, goesOn⟩
  exact ⟨same.trans letters, goesOn⟩

/-- A definition has no parameters. -/
theorem runs_readArity (stands : Stands defined pending opened (.beginGroup :: tokens) engine)
    (command : String) :
    Runs (readArity interpreter command) engine fun result after =>
      result = 0 ∧ GoesOn engine (.beginGroup :: tokens) after := by
  unfold readArity
  refine stands.runs_readBracketed.bind ?_
  rintro _ after ⟨rfl, goesOn⟩
  exact runs_pure ⟨rfl, goesOn⟩

theorem runs_makeDefinition {inside : List Token} {code : List Char}
    (letters : inside.map Token.bare = code.map Token.letter) (name : String)
    (fallback : Option (List Token)) :
    Runs (makeDefinition name 0 fallback inside) engine fun rule after =>
      rule.Writes code ∧ after = engine := by
  obtain ⟨writes, silent⟩ := Definition.writes_ofCommand letters name fallback
  unfold makeDefinition
  simp only [silent]
  refine runs_modify_bind (runs_pure ⟨writes, ?_⟩)
  simp

/-- The next environment of the family is defined. -/
theorem runs_createEnvironment
    (stands : Stands defined (environment :: pending) []
      (braced environment.name
        (Custom.codeTokens environment.opening ++
          (Custom.codeTokens environment.closing ++ tokens)))
      engine)
    (distinct : ∀ other ∈ pending, other.name ≠ environment.name) (token : Token) :
    Runs (createEnvironment interpreter token) engine fun _ =>
      Stands (environment :: defined) pending [] tokens := by
  unfold createEnvironment
  refine stands.runs_readStar.bind ?_
  rintro _ unstarred ⟨-, goesOn⟩
  replace stands := stands.goOn goesOn
  refine (stands.runs_readName environment.isName).bind ?_
  rintro _ named ⟨rfl, goesOn⟩
  replace stands := stands.goOn goesOn
  refine (stands.runs_readArity token.text).bind ?_
  rintro _ counted ⟨rfl, goesOn⟩
  replace stands := stands.goOn goesOn
  refine stands.runs_readBracketed.bind ?_
  rintro _ unbracketed ⟨rfl, goesOn⟩
  replace stands := stands.goOn goesOn
  refine (stands.runs_readCode token.text).bind ?_
  rintro openingTokens opened ⟨isOpening, goesOn⟩
  replace stands := stands.goOn goesOn
  refine (stands.runs_readCode token.text).bind ?_
  rintro closingTokens closed ⟨isClosing, goesOn⟩
  replace stands := stands.goOn goesOn
  have unbound : closed.scopes.command? environment.name = none := by
    rw [stands.command?, stands.base.pending environment List.mem_cons_self]
  unfold Engine.command?
  rw [bind_assoc]
  apply runs_get
  rw [pure_bind, unbound]
  refine (runs_makeDefinition isOpening _ _).bind ?_
  rintro opening _ ⟨opens, rfl⟩
  refine (runs_makeDefinition isClosing _ _).bind ?_
  rintro closing _ ⟨closes, rfl⟩
  refine runs_modify ⟨stands.ahead, ?_, stands.base.bind distinct opens closes, stands.buffer⟩
  simp [Scopes.setCommand, stands.inner]

end Stands

/-! ## Rounds without an item -/

/-- A loop gets from one engine to another in so many of its steps. -/
def Advances {α : Type} (loop : Nat → TexM α) (count : Nat) (engine after : Engine) : Prop :=
  ∀ steps, loop (count + steps) engine = loop steps after

theorem Advances.refl {α : Type} (loop : Nat → TexM α) (engine : Engine) :
    Advances loop 0 engine engine := fun steps => by rw [Nat.zero_add]

theorem Advances.trans {α : Type} {loop : Nat → TexM α} {one two : Nat}
    (first : Advances loop one engine between) (second : Advances loop two between after) :
    Advances loop (one + two) engine after := fun steps => by
  rw [Nat.add_assoc, first, second]

/-- A command that changes the engine only gives no item. -/
theorem Stands.skips (idles : Idles interpreter)
    (stands : Stands defined pending opened (.control name :: tokens) engine)
    {command : Command} (found : engine.scopes.command? name = some command)
    (fixed : command.isExpandable = false) {post : Engine → Prop}
    (executes : ∀ token between, Stands defined pending opened tokens between →
      Runs (execute interpreter token command) between fun item after =>
        item = none ∧ post after) :
    ∃ after, Advances (nextItemWithin interpreter) 1 engine after ∧ post after := by
  obtain ⟨_, between, wasRead, ⟨token, rfl, same⟩, goesOn⟩ := stands.runs_nextToken
  have readOn := stands.goOn goesOn
  obtain ⟨_, after, executed, rfl, holds⟩ := executes token between readOn
  have bound : between.scopes.command? name = some command := by
    rw [goesOn.unchanged]
    exact found
  have isName : token.commandName? = some name := commandName?_of_bare same
  have gaveNone : tokenItem interpreter token between = .ok none after := by
    rw [tokenItem_command isName bound]
    simp only [itemOf, invoke, bind, EStateM.bind, idles token command between fixed,
      Bool.false_eq_true, if_false, executed]
    rfl
  refine ⟨after, fun steps => ?_, holds⟩
  rw [Nat.add_comm]
  exact nextItemWithin_of_none stands.buffer wasRead gaveNone steps

variable {environment : Custom}

/-- A definition gives no item. -/
theorem Stands.skips_definition (idles : Idles interpreter)
    (stands : Stands defined (environment :: pending) [] (environment.tokens ++ tokens) engine)
    (distinct : ∀ other ∈ pending, other.name ≠ environment.name) :
    ∃ after, Advances (nextItemWithin interpreter) 1 engine after ∧
      Stands (environment :: defined) pending [] tokens after := by
  have bound := stands.meaning (by decide) Builtin.meaning?_newenvironment
  have split : environment.tokens ++ tokens = .control "newenvironment" ::
      braced environment.name (Custom.codeTokens environment.opening ++
        (Custom.codeTokens environment.closing ++ tokens)) := by
    simp [Custom.tokens, Input.named, braced]
  rw [split] at stands
  refine stands.skips idles bound rfl ?_
  intro token between standsBetween
  have defines : Runs (perform interpreter token .newEnvironment) between fun _ =>
      Stands (environment :: defined) pending [] tokens :=
    standsBetween.runs_createEnvironment distinct token
  refine defines.bind ?_
  exact fun _ after standsAfter => runs_pure ⟨rfl, standsAfter⟩

/-- All environments of a family are defined, one after the other. -/
theorem Stands.skips_definitions (idles : Idles interpreter) (family : List Custom)
    (stands : Stands defined family [] (family.flatMap Custom.tokens ++ tokens) engine)
    (distinct : (family.map Custom.name).Nodup) :
    ∃ after, Advances (nextItemWithin interpreter) family.length engine after ∧
      Stands (family ++ defined) [] [] tokens after := by
  induction family generalizing defined engine with
  | nil => exact ⟨engine, .refl _ engine, stands⟩
  | cons environment family ih =>
      rw [List.flatMap_cons, List.append_assoc] at stands
      rw [List.map_cons, List.nodup_cons] at distinct
      have others : ∀ other ∈ family, other.name ≠ environment.name := by
        intro other member same
        exact distinct.1 (same ▸ List.mem_map_of_mem member)
      obtain ⟨between, first, standsBetween⟩ := stands.skips_definition idles others
      obtain ⟨after, onward, standsAfter⟩ := ih standsBetween distinct.2
      refine ⟨after, ?_, ?_⟩
      · rw [List.length_cons, Nat.add_comm]
        exact first.trans onward
      · have sameKnown : environment :: family ++ defined ⊆ family ++ environment :: defined := by
          simp
        exact ⟨standsAfter.ahead, standsAfter.inner, standsAfter.base.subset sameKnown,
          standsAfter.buffer⟩

end Engine

end TexTree
