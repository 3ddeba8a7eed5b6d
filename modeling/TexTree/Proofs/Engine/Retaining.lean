import Mathlib.Logic.Basic
import TexTree.Session

/-!
# What computations retain

A computation retains a property of engines if an engine that has it before has it afterwards, also
if the computation fails (`Retains`).  It does so if its parts do.  The rules for this are known to
`grind`, so that the parts of a command are found by going through it once.

Much of what an engine does is to read its input and to report something.  This changes the input,
the log, the count of the expansions, and the meaning of names without one, which `\csname` makes
the same as that of `\relax`.  What does not depend on more than that (`Unaffected`) is retained by
everything that reads.
-/

namespace TexTree

namespace Engine

/-- The engine that a computation leaves behind. -/
def left {α : Type} : EStateM.Result TexError Engine α → Engine
  | .ok _ engine => engine
  | .error _ engine => engine

/-- A computation leaves engines with a property behind that they had before, whether it
fails or not. -/
def Retains {α : Type} (holds : Engine → Prop) (computation : TexM α) : Prop :=
  ∀ engine, holds engine → holds (left (computation engine))

/-- What holds of an engine is touched neither by reading and reporting, nor by giving the
meaning of `\relax` to a name that has none. -/
class Unaffected (holds : Engine → Prop) : Prop where
  input : ∀ {engine : Engine} (input : Input), holds engine → holds { engine with input }
  log : ∀ {engine : Engine} (log : Array LogEntry), holds engine → holds { engine with log }
  expansions : ∀ {engine : Engine} (expansions : Nat), holds engine →
    holds { engine with expansions }
  relax : ∀ {engine : Engine} {name : String} {relax : Command}, holds engine →
    engine.scopes.isDefined name = false → engine.scopes.command? "relax" = some relax →
    holds { engine with scopes := engine.scopes.setCommand name relax false }

end Engine

/-- An interpreter that retains what holds of an engine when it expands a command. -/
def Interpreter.Retains (holds : Engine → Prop) (interpreter : Interpreter) : Prop :=
  ∀ token command, Engine.Retains holds (interpreter.run (.expand token command))

namespace Engine

variable {holds : Engine → Prop} {interpreter : Interpreter} {α β : Type}

/-! ## Single steps -/

theorem get_run (engine : Engine) : (get : TexM Engine) engine = .ok engine engine := rfl

theorem modifyGet_run (change : Engine → α × Engine) (engine : Engine) :
    (modifyGet change : TexM α) engine = .ok (change engine).1 (change engine).2 := rfl

theorem throw_run (error : TexError) (engine : Engine) :
    (throw error : TexM α) engine = .error error engine := rfl

/-! ## Putting computations together -/

theorem Retains.bind {first : TexM α} {second : α → TexM β} (retainsFirst : Retains holds first)
    (retainsSecond : ∀ value, Retains holds (second value)) :
    Retains holds (first >>= second) := by
  intro engine kept
  have keptFirst := retainsFirst engine kept
  simp only [Bind.bind, EStateM.bind]
  cases run : first engine with
  | ok value after =>
      rw [run] at keptFirst
      exact retainsSecond value after keptFirst
  | error error after =>
      rw [run] at keptFirst
      exact keptFirst

/-- If a sequence of two computations does not retain the property, one of them does not. -/
@[grind .] theorem retains_bind_or (first : TexM α) (second : α → TexM β) :
    Retains holds (first >>= second) ∨ ¬Retains holds first ∨
      ∃ value, ¬Retains holds (second value) := by
  by_cases retained : Retains holds first ∧ ∀ value, Retains holds (second value)
  · exact .inl (retained.1.bind retained.2)
  · rw [not_and_or, not_forall] at retained
    exact .inr retained

@[grind .] theorem retains_pure (value : α) : Retains holds (pure value : TexM α) :=
  fun _ kept => kept

@[grind .] theorem retains_map_or (change : α → β) (computation : TexM α) :
    Retains holds (change <$> computation) ∨ ¬Retains holds computation := by
  rw [map_eq_pure_bind]
  grind

@[grind .] theorem retains_get : Retains holds (get : TexM Engine) := fun _ kept => kept

theorem retains_get_bind {second : Engine → TexM β}
    (retains : ∀ engine, holds engine → holds (left (second engine engine))) :
    Retains holds (get >>= second) := retains

theorem retains_modify {change : Engine → Engine}
    (keeps : ∀ engine, holds engine → holds (change engine)) :
    Retains holds (modify change : TexM PUnit) := keeps

@[grind .] theorem retains_modify_or (change : Engine → Engine) :
    Retains holds (modify change : TexM PUnit) ∨
      ∃ engine, holds engine ∧ ¬holds (change engine) := by
  by_cases keeps : ∀ engine, holds engine → holds (change engine)
  · exact .inl (retains_modify keeps)
  · exact .inr (by simpa using keeps)

@[grind .] theorem retains_modifyGet_or (change : Engine → α × Engine) :
    Retains holds (modifyGet change : TexM α) ∨
      ∃ engine, holds engine ∧ ¬holds (change engine).2 := by
  by_cases keeps : ∀ engine, holds engine → holds (change engine).2
  · exact .inl keeps
  · exact .inr (by simpa using keeps)

theorem Retains.ensuring {computation : TexM α} {change : Engine → Engine}
    (retains : Retains holds computation) (keeps : ∀ engine, holds engine → holds (change engine)) :
    Retains holds (ensuring computation change) := by
  intro engine kept
  have keptFirst := retains engine kept
  unfold Engine.ensuring
  cases run : computation engine with
  | ok value after =>
      rw [run] at keptFirst
      exact keeps after keptFirst
  | error error after =>
      rw [run] at keptFirst
      exact keeps after keptFirst

theorem Retains.forIn {items : List α} {step : α → PUnit → TexM (ForInStep PUnit)}
    (retains : ∀ item ∈ items, Retains holds (step item PUnit.unit)) :
    Retains holds (ForIn.forIn items PUnit.unit step) := by
  induction items with
  | nil => exact retains_pure _
  | cons item rest ih =>
      rw [List.forIn_cons]
      refine (retains item List.mem_cons_self).bind fun next => ?_
      split
      · exact retains_pure _
      · exact ih fun other member => retains other (List.mem_cons_of_mem item member)

theorem Retains.forM {items : List α} {step : α → TexM PUnit}
    (retains : ∀ item ∈ items, Retains holds (step item)) : Retains holds (items.forM step) := by
  induction items with
  | nil => exact retains_pure _
  | cons item rest ih =>
      exact (retains item List.mem_cons_self).bind fun _ =>
        ih fun other member => retains other (List.mem_cons_of_mem item member)

theorem Retains.mapM {items : List α} {step : α → TexM β}
    (retains : ∀ item ∈ items, Retains holds (step item)) : Retains holds (items.mapM step) := by
  induction items with
  | nil => exact retains_pure _
  | cons item rest ih =>
      rw [List.mapM_cons]
      refine (retains item List.mem_cons_self).bind fun _ => ?_
      refine (ih fun other member => retains other (List.mem_cons_of_mem item member)).bind ?_
      exact fun _ => retains_pure _

@[grind .] theorem retains_fail (fault : Fault) : Retains holds (fail fault : TexM α) :=
  fun _ kept => kept

@[grind .] theorem retains_command? (name : String) : Retains holds (command? name) :=
  fun _ kept => kept

@[grind .] theorem retains_checkSuperior (name : String) (superior : Option String) :
    Retains holds (checkSuperior name superior) := by
  cases superior <;> grind [checkSuperior]

@[grind ←] theorem retains_expand (reads : interpreter.Retains holds) (token : Token)
    (command : Command) : Retains holds (interpreter.run (.expand token command)) :=
  reads token command

/-! ## Reading the input -/

variable [unaffected : Unaffected holds]

@[grind .] theorem retains_report (entry : LogEntry) : Retains holds (report entry) :=
  fun _ kept => unaffected.log _ kept

@[grind .] theorem retains_reportAll (entries : List LogEntry) :
    Retains holds (reportAll entries) := fun _ kept => unaffected.log _ kept

@[grind .] theorem retains_warn (topic message : String) : Retains holds (warn topic message) :=
  retains_report _

@[grind .] theorem retains_warnNoCounter (name : String) : Retains holds (warnNoCounter name) :=
  retains_warn _ _

@[grind .] theorem retains_reading (read : CategoryTable → Input → α × Input) :
    Retains holds (reading read) := fun _ kept => unaffected.input _ kept

@[grind .] theorem retains_readingOrFail
    (read : CategoryTable → Input → Except Fault α × Input) :
    Retains holds (readingOrFail read) := by
  grind [readingOrFail]

@[grind .] theorem retains_nextRaw : Retains holds nextRaw := retains_reading _

@[grind .] theorem retains_nextRawFor (command : String) : Retains holds (nextRawFor command) := by
  grind [nextRawFor]

@[grind .] theorem retains_putBack (token : Token) : Retains holds (putBack token) :=
  fun _ kept => unaffected.input _ kept

@[grind .] theorem retains_pushTokens (tokens : List Token) : Retains holds (pushTokens tokens) :=
  fun _ kept => unaffected.input _ kept

@[grind .] theorem retains_pushText (text file : String) : Retains holds (pushText text file) :=
  fun _ kept => unaffected.input _ kept

@[grind .] theorem retains_skipSpaces : Retains holds skipSpaces := retains_reading _

@[grind .] theorem retains_readGroup : Retains holds readGroup := retains_readingOrFail _

@[grind .] theorem retains_readArgument : Retains holds readArgument := retains_readingOrFail _

@[grind .] theorem retains_readArgumentFor (command : String) :
    Retains holds (readArgumentFor command) := by
  grind [readArgumentFor]

@[grind .] theorem retains_readBracketed (opening closing : Char) :
    Retains holds (readBracketed opening closing) := retains_readingOrFail _

@[grind .] theorem retains_readBracketedText : Retains holds readBracketedText := by
  grind [readBracketedText]

@[grind .] theorem retains_readName : Retains holds readName := retains_readingOrFail _

@[grind .] theorem retains_readStar : Retains holds readStar := by
  grind [readStar]

@[grind .] theorem retains_readControl : Retains holds readControl := by
  unfold readControl
  refine retains_skipSpaces.bind fun _ => retains_nextRaw.bind fun next => ?_
  split <;> grind

@[grind .] theorem retains_readDefinedName (command : String) :
    Retains holds (readDefinedName command) := by
  grind [readDefinedName]

@[grind .] theorem retains_readAddress : Retains holds readAddress := retains_readingOrFail _

@[grind .] theorem retains_readIf (condition : Token → Bool) :
    Retains holds (readIf condition) := by
  grind [readIf]

@[grind .] theorem retains_readAnyChar (command : String) :
    Retains holds (readAnyChar command) := by
  grind [readAnyChar]

@[grind .] theorem retains_clearExpansions : Retains holds clearExpansions :=
  fun _ kept => unaffected.expansions _ kept

@[grind .] theorem retains_countExpansion (token : Token) :
    Retains holds (countExpansion token) := by
  unfold countExpansion
  refine Retains.bind (fun _ kept => unaffected.expansions _ kept) fun _ => ?_
  grind

@[grind .] theorem retains_printCounter (name : String) : Retains holds (printCounter name) := by
  grind [printCounter]

/-- A token list is read in place of the input. -/
@[grind ←] theorem retains_readingTokens (tokens : List Token) {computation : TexM α}
    (retains : Retains holds computation) : Retains holds (readingTokens tokens computation) := by
  refine (retains_pushTokens _).bind fun _ => retains.ensuring fun engine kept => ?_
  unfold dropRest
  rcases engine.input.throughToken _ _ with ⟨rest, last, input⟩
  have dropped := unaffected.input input kept
  dsimp only
  split
  · exact unaffected.log _ dropped
  · exact dropped

end Engine

end TexTree
