import TexTree.Proofs.Engine.Reading
import TexTree.Proofs.Engine.Session
import TexTree.Proofs.Input.Lexing

/-!
# The beginning of a source

A fresh engine has the built-in meaning of all keywords, no scope is open, and once
a text is pushed to its input, the tokens of the text are ahead.
-/

namespace TexTree.Engine

variable {engine : Engine} {tokens : List Token}

/-- A meaning that a name gets outside of all scopes does not concern the keywords. -/
theorem Reading.setGlobal (reading : Reading [] tokens engine) {name : String}
    (other : name ∉ Builtin.keywords) (command : Command) :
    Reading [] tokens { engine with scopes := engine.scopes.setCommand name command true } := by
  refine ⟨reading.ahead, ?_, reading.plain, ?_⟩
  · simp [Scopes.setCommand, reading.inner]
  · exact reading.base.bind other command

theorem Reading.createRegister (reading : Reading [] tokens engine) {name : String}
    (other : name ∉ Builtin.keywords) (value : Quantity) :
    Reading [] tokens (engine.createRegister name value) := by
  have bound := reading.setGlobal other (.register name)
  exact ⟨bound.ahead, bound.inner, bound.plain, bound.base⟩

theorem Reading.setTemplate (reading : Reading [] tokens engine) (name : String)
    (template : Template) : Reading [] tokens (engine.setTemplate name template) := by
  have other : "the" ++ name ∉ Builtin.keywords :=
    fun isKeyword => Builtin.ne_of_mem_keywords isKeyword name rfl
  exact reading.setGlobal other _

/-- The outermost frame at the beginning. -/
theorem standard_builtin : Builtin.scopes.base.Standard where
  categories := rfl
  aliases _ := rfl
  commands _ _ := rfl

/-- No scope and no formula is open, and nothing is in the input. -/
structure Begins (engine : Engine) : Prop where
  reading : Reading [] [] engine
  input : engine.input = .empty
  formulas : engine.mathStack = []

theorem Begins.createCounter (begins : engine.Begins) (name : String) (superior : Option String) :
    (engine.createCounter name superior 0).Begins := by
  have moved := begins.reading.createCounter name superior 0
  refine ⟨moved.reading, ?_, moved.formulas.trans begins.formulas⟩
  rw [← begins.input]
  unfold Engine.createCounter
  split <;> rfl

theorem Begins.createDateRegisters (begins : engine.Begins) (date : Date) :
    (engine.createDateRegisters date).Begins := by
  have other : "year" ∉ Builtin.keywords ∧ "month" ∉ Builtin.keywords ∧
      "day" ∉ Builtin.keywords := by decide
  obtain ⟨year, month, day⟩ := other
  have reading := ((begins.reading.createRegister year (.count date.year)).createRegister month
    (.count date.month)).createRegister day (.count date.day)
  exact ⟨reading, begins.input, begins.formulas⟩

theorem Begins.createCounters (entries : List (String × Option String))
    (begins : engine.Begins) :
    (entries.foldl (fun engine (name, superior) => engine.createCounter name superior 0)
      engine).Begins := by
  induction entries generalizing engine with
  | nil => exact begins
  | cons entry rest ih => exact ih (begins.createCounter entry.1 entry.2)

theorem Begins.createEnumerationCounters (begins : engine.Begins) :
    engine.createEnumerationCounters.Begins := by
  unfold Engine.createEnumerationCounters
  generalize isCreated : List.foldl _ engine _ = counted
  have begun : counted.Begins := isCreated ▸ begins.createCounters _
  exact ⟨((begun.reading.setTemplate _ _).setTemplate _ _).setTemplate _ _, begun.input,
    begun.formulas⟩

theorem begins_fresh (settings : Settings) (files : Files) (date : Date) :
    (fresh settings files date .empty).Begins := by
  unfold fresh
  dsimp only
  apply Begins.createEnumerationCounters
  apply Begins.createDateRegisters
  exact ⟨⟨Input.ahead_empty, rfl, by simp, standard_builtin⟩, rfl, rfl⟩

/-! ## Other names -/

/-- In the outermost frame the name has its built-in meaning, if any. -/
def BuiltIn (name : String) (engine : Engine) : Prop :=
  engine.scopes.base.commands.get? name = (Table.ofList Builtin.commands).get? name

namespace BuiltIn

variable {name other : String}

theorem of_scopes (bare : engine.scopes = Builtin.scopes) : engine.BuiltIn name := by
  rw [BuiltIn, bare]
  rfl

theorem setGlobal (builtIn : engine.BuiltIn name) (different : other ≠ name)
    (command : Command) :
    (engine.scopes.setCommand other command true).base.commands.get? name =
      (Table.ofList Builtin.commands).get? name := by
  rw [Scopes.setCommand, if_pos rfl, Frame.bind, Table.get?_insert, if_neg different]
  exact builtIn

theorem createRegister (builtIn : engine.BuiltIn name) (different : other ≠ name)
    (value : Quantity) : (engine.createRegister other value).BuiltIn name :=
  builtIn.setGlobal different _

theorem setTemplate (builtIn : engine.BuiltIn name) (different : "the" ++ other ≠ name)
    (template : Template) : (engine.setTemplate other template).BuiltIn name :=
  builtIn.setGlobal different _

theorem createCounter (builtIn : engine.BuiltIn name) (different : "the" ++ other ≠ name)
    (superior : Option String) (value : Int) :
    (engine.createCounter other superior value).BuiltIn name := by
  unfold Engine.createCounter
  split
  · exact builtIn
  · exact builtIn.setGlobal different _

theorem createCounters (notPrinted : ∀ counter, "the" ++ counter ≠ name)
    (entries : List (String × Option String)) (builtIn : engine.BuiltIn name) :
    (entries.foldl (fun engine (counter, superior) => engine.createCounter counter superior 0)
      engine).BuiltIn name := by
  induction entries generalizing engine with
  | nil => exact builtIn
  | cons entry rest ih => exact ih (builtIn.createCounter (notPrinted entry.1) entry.2 0)

/-- At the beginning every name has its built-in meaning that is neither the printed form of
a counter nor a part of the date. -/
theorem fresh (settings : Settings) (files : Files) (date : Date)
    (notPrinted : ∀ counter, "the" ++ counter ≠ name)
    (notDate : ∀ part ∈ ["year", "month", "day"], part ≠ name) :
    (fresh settings files date .empty).BuiltIn name := by
  unfold Engine.fresh Engine.createEnumerationCounters
  dsimp only
  apply setTemplate _ (notPrinted _)
  apply setTemplate _ (notPrinted _)
  apply setTemplate _ (notPrinted _)
  apply createCounters notPrinted
  apply createRegister _ (notDate _ (by simp))
  apply createRegister _ (notDate _ (by simp))
  apply createRegister _ (notDate _ (by simp))
  exact of_scopes rfl

end BuiltIn

/-- The engine with a text in its input. -/
def withText (engine : Engine) (text : String) : Engine :=
  { engine with input := engine.input.pushText text "<string>" }

variable {text : String}

theorem Idle.withText (idle : engine.Idle) (text : String) : (engine.withText text).Idle :=
  idle.of_same rfl rfl rfl rfl

theorem Begins.withText (begins : engine.Begins)
    (ahead : (Reader.ofText text "<string>").ahead .initial = tokens) :
    Reading [] tokens (engine.withText text) ∧ (engine.withText text).mathStack = [] := by
  obtain ⟨reading, empty, formulas⟩ := begins
  refine ⟨⟨?_, reading.inner, reading.plain, reading.base⟩, formulas⟩
  rw [Engine.withText, empty]
  exact ahead

/-- A source is parsed if its items fill the root. -/
theorem runs_parse {fuel : Nat} {post : Engine → Prop}
    (runs : Runs (digestRoot (interpreter fuel)) (engine.withText text) fun _ after =>
      post after) :
    ∃ done after, parseTextWithin fuel text engine = .ok done.complete.1 after ∧ post done := by
  obtain ⟨_, done, equal, holds⟩ := runs
  refine ⟨done, done.complete.2, ?_, holds⟩
  have parses : parseTextWithin fuel text engine = interpret fuel (engine.withText text) := rfl
  rw [parses, interpret, equal]

end TexTree.Engine
