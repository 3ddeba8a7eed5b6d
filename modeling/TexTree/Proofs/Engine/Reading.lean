import TexTree.Proofs.Engine.Running
import TexTree.Proofs.Input.Stream

/-!
# Reading plain documents

As long as a document only uses built-in commands that define nothing, all that
matters about the engine for what it reads next are the frames that are open and
the tokens that are ahead (`Reading`).  This module says what looking up names,
reading tokens and reading arguments do to such an engine: they succeed, and they
leave the document alone (`Moved`).
-/

namespace TexTree

namespace Builtin

/-- The commands for a font, whose argument is their content. -/
def fontNames : List String :=
  ["textbf", "textit", "emph", "texttt", "textrm", "textsf", "underline"]

/-- The lists. -/
def listNames : List String := ["itemize", "description", "enumerate"]

/-- The environments between paragraphs. -/
def blockNames : List String :=
  ["center", "flushleft", "flushright", "quote", "quotation", "abstract"]

/-- The commands that hold up to the end of the group. -/
def declarationNames : List String := ["bf", "it", "em", "tt", "rm", "sf"]

/-- The sectioning commands. -/
def sectionNames : List String := sectionLevels.map Prod.fst

/-- The names whose meaning plain documents depend on. -/
def keywords : List String :=
  ["bgroup", "egroup", "begin", "end", "active::$", "par", "itemize", "hbox", "vbox",
    "footnote"] ++ fontNames ++ blockNames ++ declarationNames ++ sectionNames

/-- The printed forms of counters have other names. -/
theorem ne_of_mem_keywords {name : String} (isKeyword : name ∈ keywords) (counter : String) :
    "the" ++ counter ≠ name := by
  have other : ∀ name ∈ keywords, name.toList.take 3 ≠ "the".toList := by decide
  intro equal
  apply other name isKeyword
  rw [← equal, String.toList_append]
  rfl

end Builtin

namespace Table

variable {α : Type}

/-- Of several entries with one name the last one counts. -/
theorem get?_ofList (entries : List (String × α)) (name : String) :
    (ofList entries).get? name =
      (entries.reverse.find? fun entry => entry.1 == name).map Prod.snd := by
  have general : ∀ (entries : List (String × α)) (table : Table α),
      (entries.foldl (fun table entry => table.insert entry.1 entry.2) table).get? name =
        ((entries.reverse.find? fun entry => entry.1 == name).map Prod.snd).or
          (table.get? name) := by
    intro entries
    induction entries with
    | nil => simp
    | cons entry rest ih =>
        intro table
        rw [List.foldl_cons, ih, List.reverse_cons, List.find?_append]
        cases found : rest.reverse.find? fun entry => entry.1 == name with
        | some later => rfl
        | none => by_cases equal : entry.1 = name <;> simp [get?_insert, equal]
  rw [ofList, general, get?_empty, Option.or_none]

end Table

namespace Frame

/-- A frame that at most knows how to begin an item, and that reads characters as
usual. -/
structure Plain (frame : Frame) : Prop where
  categories : frame.categories = .initial
  aliases : frame.aliases = .empty
  commands : frame.commands = .empty ∨
    frame.commands = .ofList [("item", .element Builtin.item)]

/-- An outermost frame that has left the meaning of the keywords alone. -/
structure Standard (frame : Frame) : Prop where
  categories : frame.categories = .initial
  aliases : ∀ name, frame.aliases.get? name = none
  commands : ∀ name ∈ Builtin.keywords,
    frame.commands.get? name = (Table.ofList Builtin.commands).get? name

theorem Plain.get? {frame : Frame} (plain : frame.Plain) {name : String}
    (isKeyword : name ∈ Builtin.keywords) : frame.commands.get? name = none := by
  have other : name ≠ "item" := by
    rintro rfl
    revert isKeyword
    decide
  rcases plain.commands with equal | equal
  · rw [equal]
    rfl
  · rw [equal, Table.get?_ofList]
    simp [Ne.symm other]

/-- Creating a counter does not concern a plain frame. -/
theorem Plain.forget {frame : Frame} (plain : frame.Plain) (counter : String) :
    frame.forget ("the" ++ counter) = frame := by
  have other : "item" ≠ "the" ++ counter := by
    intro equal
    have heads := congrArg (fun text : String => text.toList.head?) equal
    simp at heads
  obtain ⟨owner, commands, aliases, categories⟩ := frame
  have noAliases : aliases = .empty := plain.aliases
  have noCommands : commands = .empty ∨ commands = .ofList [("item", .element Builtin.item)] :=
    plain.commands
  subst noAliases
  rcases noCommands with rfl | rfl
  · rfl
  · simp [Frame.forget, Table.erase, Table.ofList, Table.insert, Table.insertInto, Table.empty,
      other]

theorem Standard.bind {frame : Frame} (standard : frame.Standard) {name : String}
    (other : name ∉ Builtin.keywords) (command : Command) :
    (frame.bind name command).Standard where
  categories := standard.categories
  aliases inner := by
    rw [Frame.bind, Table.get?_erase, standard.aliases, ite_self]
  commands inner isKeyword := by
    have different : name ≠ inner := fun equal => other (equal ▸ isKeyword)
    rw [Frame.bind, Table.get?_insert, if_neg different, standard.commands inner isKeyword]

end Frame

namespace Engine

/-- The engine reads plainly: the given frames are open, and the given tokens are
ahead. -/
structure Reading (frames : List Frame) (tokens : List Token) (engine : Engine) : Prop where
  ahead : engine.input.ahead .initial = tokens
  inner : engine.scopes.inner = frames
  plain : ∀ frame ∈ frames, frame.Plain
  base : engine.scopes.base.Standard

/-- An engine has read on without touching the document. -/
structure Moved (before : Engine) (frames : List Frame) (tokens : List Token)
    (after : Engine) : Prop where
  reading : Reading frames tokens after
  document : after.document = before.document
  buffer : after.buffer = before.buffer
  formulas : after.mathStack = before.mathStack

variable {engine before after : Engine} {frames : List Frame} {tokens : List Token}

theorem Reading.moved (reading : Reading frames tokens engine) :
    Moved engine frames tokens engine := ⟨reading, rfl, rfl, rfl⟩

theorem Moved.trans {frames' : List Frame} {tokens' : List Token}
    (first : Moved before frames tokens engine) (second : Moved engine frames' tokens' after) :
    Moved before frames' tokens' after :=
  ⟨second.reading, second.document.trans first.document, second.buffer.trans first.buffer,
    second.formulas.trans first.formulas⟩

theorem Reading.categories (reading : Reading frames tokens engine) :
    engine.scopes.categories = .initial := by
  rw [Scopes.categories, Scopes.top, reading.inner]
  cases frames with
  | nil => exact reading.base.categories
  | cons frame rest => exact (reading.plain frame List.mem_cons_self).categories

/-- The depth is the number of open frames with the outermost one. -/
theorem Reading.depth (reading : Reading frames tokens engine) :
    engine.scopes.depth = frames.length + 1 := by
  rw [Scopes.depth, reading.inner]

theorem Reading.alias? (reading : Reading frames tokens engine) (name : String) :
    engine.scopes.alias? name = none := by
  have base := reading.base.aliases name
  have plain := reading.plain
  rw [Scopes.alias?, Scopes.frames, reading.inner]
  clear reading
  induction frames with
  | nil => simp [Scopes.aliasIn, base]
  | cons frame rest ih =>
      have noAliases := (plain frame List.mem_cons_self).aliases
      have below := ih fun other member => plain other (List.mem_cons_of_mem frame member)
      simp only [List.cons_append, Scopes.aliasIn, noAliases, Table.get?_empty, below, ite_self]

/-- A keyword has its built-in meaning. -/
theorem Reading.command? (reading : Reading frames tokens engine) {name : String}
    (isKeyword : name ∈ Builtin.keywords) :
    engine.scopes.command? name = (Table.ofList Builtin.commands).get? name := by
  have base := reading.base.commands name isKeyword
  have aliases := reading.base.aliases name
  have plain := reading.plain
  rw [Scopes.command?, Scopes.frames, reading.inner, ← base]
  clear reading
  induction frames with
  | nil =>
      cases found : engine.scopes.base.commands.get? name with
      | some command => simp [Scopes.commandIn, found]
      | none => simp [Scopes.commandIn, found, Table.contains, aliases]
  | cons frame rest ih =>
      have isPlain := plain frame List.mem_cons_self
      have below := ih fun other member => plain other (List.mem_cons_of_mem frame member)
      simp [Scopes.commandIn, isPlain.get? isKeyword, isPlain.aliases, Table.contains, below]

/-- The items of the innermost list can begin. -/
theorem Reading.command?_item {frame : Frame} (reading : Reading (frame :: frames) tokens engine)
    (isList : frame.commands = .ofList [("item", .element Builtin.item)]) :
    engine.scopes.command? "item" = some (.element Builtin.item) := by
  have found : frame.commands.get? "item" = some (.element Builtin.item) := by
    rw [isList, Table.get?_ofList]
    rfl
  simp [Scopes.command?, Scopes.frames, reading.inner, Scopes.commandIn, found]

/-- Nothing has changed that matters for reading. -/
theorem Reading.same (reading : Reading frames tokens engine)
    (input : after.input = engine.input) (scopes : after.scopes = engine.scopes)
    (document : after.document = engine.document) (buffer : after.buffer = engine.buffer)
    (formulas : after.mathStack = engine.mathStack) : Moved engine frames tokens after := by
  refine ⟨⟨?_, ?_, reading.plain, ?_⟩, document, buffer, formulas⟩
  · rw [input]
    exact reading.ahead
  · rw [scopes]
    exact reading.inner
  · rw [scopes]
    exact reading.base

/-! ## The input -/

/-- Only the input has changed. -/
theorem Reading.setInput (reading : Reading frames tokens engine) {input : Input}
    {tokens' : List Token} (left : input.ahead .initial = tokens') :
    Moved engine frames tokens' { engine with input } :=
  ⟨⟨left, reading.inner, reading.plain, reading.base⟩, rfl, rfl, rfl⟩

theorem Reading.runs_reading (isReading : Reading frames tokens engine) {α : Type}
    {read : CategoryTable → Input → α × Input} {value : α} {rest : Input}
    (found : read .initial engine.input = (value, rest)) {tokens' : List Token}
    (left : rest.ahead .initial = tokens') :
    Runs (reading read) engine fun result after =>
      result = value ∧ Moved engine frames tokens' after := by
  apply runs_modifyGet
  rw [isReading.categories, found]
  exact ⟨rfl, isReading.setInput left⟩

theorem Reading.runs_readingOrFail (isReading : Reading frames tokens engine) {α : Type}
    {read : CategoryTable → Input → Except Fault α × Input} {value : α} {rest : Input}
    (found : read .initial engine.input = (.ok value, rest)) {tokens' : List Token}
    (left : rest.ahead .initial = tokens') :
    Runs (readingOrFail read) engine fun result after =>
      result = value ∧ Moved engine frames tokens' after := by
  refine (isReading.runs_reading found left).bind ?_
  rintro _ after ⟨rfl, moved⟩
  exact runs_pure ⟨rfl, moved⟩

theorem Reading.runs_nextRaw {first : Token} (reading : Reading frames (first :: tokens) engine) :
    Runs nextRaw engine fun result after =>
      (∃ token, result = some token ∧ token.bare = first) ∧ Moved engine frames tokens after := by
  obtain ⟨token, rest, found, same, left⟩ := Input.next_of_ahead reading.ahead
  refine (reading.runs_reading found left).mono ?_
  rintro _ after ⟨rfl, moved⟩
  exact ⟨⟨token, rfl, same⟩, moved⟩

theorem Reading.runs_nextRaw_nil (reading : Reading frames [] engine) :
    Runs nextRaw engine fun result after => result = none ∧ Moved engine frames [] after :=
  reading.runs_reading (Input.next_of_ahead_nil reading.ahead) Input.ahead_empty

theorem Reading.runs_nextToken {first : Token}
    (reading : Reading frames (first :: tokens) engine) :
    Runs nextToken engine fun result after =>
      (∃ token, result = some token ∧ token.bare = first) ∧ Moved engine frames tokens after := by
  unfold nextToken
  refine reading.runs_nextRaw.bind ?_
  rintro _ after ⟨⟨token, rfl, same⟩, moved⟩
  dsimp only
  split
  · apply runs_get
    rw [moved.reading.alias?]
    exact runs_pure ⟨⟨token, rfl, same⟩, moved⟩
  · exact runs_pure ⟨⟨token, rfl, same⟩, moved⟩

theorem Reading.runs_nextToken_nil (reading : Reading frames [] engine) :
    Runs nextToken engine fun result after => result = none ∧ Moved engine frames [] after := by
  unfold nextToken
  refine reading.runs_nextRaw_nil.bind ?_
  rintro _ after ⟨rfl, moved⟩
  exact runs_pure ⟨rfl, moved⟩

theorem Reading.runs_pushTokens (reading : Reading frames tokens engine) (added : List Token) :
    Runs (pushTokens added) engine fun _ after =>
      Moved engine frames (added.map Token.bare ++ tokens) after := by
  refine runs_modify (reading.setInput ?_)
  rw [Input.ahead_pushTokens, reading.ahead]

theorem Reading.runs_putBack (reading : Reading frames tokens engine) (token : Token) :
    Runs (putBack token) engine fun _ after => Moved engine frames (token.bare :: tokens) after :=
  reading.runs_pushTokens [token]

theorem Reading.runs_skipSpaces (reading : Reading frames tokens engine) :
    Runs skipSpaces engine fun _ after =>
      Moved engine frames (tokens.dropWhile Input.isSpace) after := by
  have left : (engine.input.skipSpaces .initial).ahead .initial =
      tokens.dropWhile Input.isSpace := by
    rw [Input.ahead_skipSpaces, reading.ahead]
  apply runs_modifyGet
  rw [reading.categories]
  exact reading.setInput left

/-! ## Arguments -/

variable {inside behind : List Token} {opening closing first : Token}

/-- An argument in braces. -/
theorem Reading.runs_readArgument
    (reading : Reading frames (opening :: (inside ++ closing :: behind)) engine)
    (opens : opening.category = .beginGroup) (closes : closing.category = .endGroup)
    (balanced : Input.braces 0 inside = some 0) :
    Runs readArgument engine fun result after =>
      (∃ tokens, result = some (tokens, true) ∧ tokens.map Token.bare = inside) ∧
        Moved engine frames behind after := by
  obtain ⟨tokens, rest, found, same, left⟩ :=
    Input.argument_of_ahead reading.ahead opens closes balanced
  refine (reading.runs_readingOrFail found left).mono ?_
  rintro _ after ⟨rfl, moved⟩
  exact ⟨⟨tokens, rfl, same⟩, moved⟩

/-- A name in braces. -/
theorem Reading.runs_readName
    (reading : Reading frames (opening :: (inside ++ closing :: behind)) engine)
    (opens : opening.category = .beginGroup) (closes : closing.category = .endGroup)
    (balanced : Input.braces 0 inside = some 0) :
    Runs readName engine fun result after =>
      result = Text.trim (Token.displayList inside) ∧ Moved engine frames behind after := by
  obtain ⟨rest, found, left⟩ := Input.nameArgument_of_ahead reading.ahead opens closes balanced
  exact reading.runs_readingOrFail found left

/-- An argument in brackets that is left out. -/
theorem Reading.runs_readBracketed (reading : Reading frames tokens engine)
    (left : tokens.dropWhile Input.isSpace = first :: behind) {left' right : Char}
    (absent : first.isChar left' = false) :
    Runs (readBracketed left' right) engine fun result after =>
      result = none ∧ Moved engine frames (first :: behind) after := by
  rw [← reading.ahead] at left
  obtain ⟨rest, found, following⟩ := Input.bracketed_of_ahead left absent
  exact reading.runs_readingOrFail found following

/-- A token that is not wanted is put back. -/
theorem Reading.runs_readIf (reading : Reading frames tokens engine)
    (left : tokens.dropWhile Input.isSpace = first :: behind) {condition : Token → Bool}
    (absent : ∀ token, token.bare = first → condition token = false) :
    Runs (readIf condition) engine fun result after =>
      result = none ∧ Moved engine frames (first :: behind) after := by
  unfold readIf
  refine reading.runs_skipSpaces.bind ?_
  intro _ skipped moved
  rw [left] at moved
  refine moved.reading.runs_nextRaw.bind ?_
  rintro _ taken ⟨⟨token, rfl, same⟩, moved'⟩
  simp only [absent token same, Bool.false_eq_true, if_false]
  refine (moved'.reading.runs_putBack token).bind ?_
  intro _ last moved''
  rw [same] at moved''
  exact runs_pure ⟨rfl, (moved.trans moved').trans moved''⟩

/-! ## Scopes and counters -/

/-- Only the scopes have changed. -/
theorem Reading.setScopes (reading : Reading frames tokens engine) {scopes : Scopes}
    {frames' : List Frame} (inner : scopes.inner = frames')
    (plain : ∀ frame ∈ frames', frame.Plain) (base : scopes.base.Standard) :
    Moved engine frames' tokens { engine with scopes } :=
  ⟨⟨reading.ahead, inner, plain, base⟩, rfl, rfl, rfl⟩

/-- A plain frame of an owner, in which the given commands are known. -/
def plainFrame (owner : Option FrameOwner) (locals : List (String × Command)) : Frame :=
  { Frame.fresh owner .initial with commands := .ofList locals }

/-- Opening a scope. -/
theorem Reading.runs_pushScope (reading : Reading frames tokens engine)
    {owner : Option FrameOwner} {locals : List (String × Command)}
    (inner : ∀ opener, owner = some opener → opener.level ≠ Level.document)
    (isPlain : locals = [] ∨ locals = [("item", .element Builtin.item)]) :
    Runs (pushScope owner locals) engine fun _ after =>
      Moved engine (plainFrame owner locals :: frames) tokens after := by
  have stays : (owner.any fun opener => opener.level == Level.document) = false := by
    cases owner with
    | none => rfl
    | some opener => simpa using inner opener rfl
  have pushed : engine.scopes.push owner locals =
      { engine.scopes with inner := plainFrame owner locals :: engine.scopes.inner } := by
    rw [Scopes.push, stays]
    simp only [Bool.false_eq_true, if_false, reading.categories]
    rfl
  refine runs_modify ?_
  rw [pushed]
  refine reading.setScopes (by rw [reading.inner]) ?_ reading.base
  intro frame member
  rcases List.mem_cons.mp member with rfl | old
  · refine ⟨rfl, rfl, ?_⟩
    rcases isPlain with rfl | rfl
    · exact .inl rfl
    · exact .inr rfl
  · exact reading.plain frame old

/-- Closing the innermost scopes down to the given ones. -/
theorem Reading.popScopes {outer : List Frame} (reading : Reading frames tokens engine)
    {scopes : Scopes} (inner : scopes.inner = outer) (base : scopes.base = engine.scopes.base)
    (sublist : ∀ frame ∈ outer, frame ∈ frames) :
    Moved engine outer tokens { engine with scopes } := by
  refine reading.setScopes inner ?_ (base ▸ reading.base)
  intro frame member
  exact reading.plain frame (sublist frame member)

/-- An element that ends closes its own scope. -/
theorem Reading.runs_popOwner {frame : Frame} (reading : Reading (frame :: frames) tokens engine)
    {owner : FrameOwner} (ends : Scopes.endsAt owner frame = true) :
    Runs (popOwner owner) engine fun _ after => Moved engine frames tokens after := by
  have alone : Scopes.isParent owner none frame = false := by
    rw [Scopes.isParent]
    cases frame.owner with
    | none => rfl
    | some opener => cases isNode : opener.node <;> simp [isNode]
  refine runs_modify (reading.popScopes ?_ rfl fun other => List.mem_cons_of_mem frame)
  rw [Scopes.popOwner, reading.inner, Scopes.closeFrames]
  simp [alone, ends]

/-- A counter can be created anywhere. -/
theorem Reading.createCounter (reading : Reading frames tokens engine) (name : String)
    (resetBy : Option String) (value : Int) :
    Moved engine frames tokens (engine.createCounter name resetBy value) := by
  unfold Engine.createCounter
  split
  · exact reading.moved
  · next counters _ =>
      have kept : frames.map (fun frame => frame.forget ("the" ++ name)) = frames := by
        rw [List.map_congr_left fun frame member => (reading.plain frame member).forget name]
        exact List.map_id' frames
      refine ⟨⟨reading.ahead, ?_, reading.plain, ?_⟩, rfl, rfl, rfl⟩
      · rw [Scopes.setCommand]
        simp only [if_true, reading.inner]
        exact kept
      · rw [Scopes.setCommand]
        apply reading.base.bind
        intro isKeyword
        exact Builtin.ne_of_mem_keywords isKeyword name rfl

/-! ## Meanings -/

/-- A name with a meaning is looked up. -/
theorem runs_lookup {name : String} {command : Command}
    (found : engine.scopes.command? name = some command) :
    Runs (lookup name) engine fun result after => result = command ∧ after = engine := by
  unfold lookup
  apply runs_get
  rw [found]
  exact runs_pure ⟨rfl, rfl⟩

end Engine

end TexTree
