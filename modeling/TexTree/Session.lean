import TexTree.Builtin
import TexTree.Engine.Digestion

/-!
# Sessions

A session starts with an engine that knows the built-in commands, and interprets
one source after the other.  Definitions stay from one source to the next; scopes
and formulas that a source leaves open are closed, and each source becomes a
document of its own.
-/

namespace TexTree

namespace Engine

/-- The registers that hold a day. -/
def createDateRegisters (engine : Engine) (date : Date) : Engine :=
  ((engine.createRegister "year" (.count date.year)).createRegister
    "month" (.count date.month)).createRegister "day" (.count date.day)

/-- The counters of enumerations with their printed forms. -/
def createEnumerationCounters (engine : Engine) : Engine :=
  let created := [("enumi", none), ("enumii", some "enumi"), ("enumiii", some "enumii"),
      ("enumiv", some "enumiii")].foldl
    (fun engine (name, superior) => engine.createCounter name superior 0) engine
  ((created.setTemplate "enumii" ⟨"$\x7benumii.alph\x7d"⟩).setTemplate
    "enumiii" ⟨"$\x7benumiii.roman\x7d"⟩).setTemplate "enumiv" ⟨"$\x7benumiv.Alph\x7d"⟩

/-- An engine that knows the built-in commands and nothing else. -/
def fresh (settings : Settings) (files : Files) (date : Date)
    (libraries : Table (List Element)) : Engine :=
  let bare : Engine :=
    { settings
      input := .empty
      scopes := Builtin.scopes
      counters := .empty
      registers := .empty
      references := .empty
      packages := .empty
      environments := []
      globalNext := false
      protectedNext := false
      document := .empty
      mathStack := []
      listDepth := 0
      buffer := []
      expansions := 0
      jobName := settings.jobName.getD "texput"
      files
      libraries
      date
      log := #[] }
  (bare.createDateRegisters date).createEnumerationCounters

/-- The report of a scope that is closed because the source ended. -/
def unclosed (name : String) : LogEntry :=
  .warning "digest"
    (if name == "\x7b" then "Input ended inside a group; closing it"
    else "Input ended inside " ++ name ++ "; closing it")

/-- Close whatever a source has left open. -/
def closeScopes (engine : Engine) : Engine :=
  { engine with
    log := engine.log ++ engine.scopes.openNames.map unclosed
    scopes := engine.scopes.unwind
    environments := []
    references := { engine.references with current := none }
    globalNext := false
    protectedNext := false
    mathStack := []
    listDepth := 0
    buffer := []
    expansions := 0 }

/-- The reports of references without a label, in the order of the labels. -/
def unresolvedReports (references : References) : List LogEntry :=
  (references.unresolved.mergeSort fun left right => !(right < left)).map fun label =>
    .warning "digest" ("Unresolved reference " ++ label)

/-- Leave a source that has a fault. -/
def abandon (engine : Engine) : Engine :=
  { closeScopes { engine with input := .empty } with document := .empty }

/-- Leave a source that has been interpreted, and give its document. -/
def complete (engine : Engine) : Document × Engine :=
  let document := engine.document.paragraphs Document.root false
  let closed := engine.closeScopes
  (document,
    { closed with
      log := closed.log ++ unresolvedReports closed.references
      files := closed.files.closeAll
      document := .empty })

/-- The number of steps that are granted where none is given. -/
def defaultFuel : Nat := 1099511627776

/-- Interpret the input to its end, and give the document. -/
def interpret (fuel : Nat) : TexM Document := fun engine =>
  match digestRoot (interpreter fuel) engine with
  | .error error failed =>
      let place : FaultPlace := ⟨failed.input.position?, failed.input.preview⟩
      .error { error with place := some place } failed.abandon
  | .ok () done =>
      let (document, left) := done.complete
      .ok document left

/-- Interpret a text with the given number of steps. -/
def parseTextWithin (fuel : Nat) (text : String) : TexM Document := do
  pushText text "<string>"
  interpret fuel

/-- Interpret a text. -/
def parseText (text : String) : TexM Document := parseTextWithin defaultFuel text

/-- Interpret a file with the given number of steps.  Unless the settings name the
job, it is named after the file. -/
def parseFileWithin (fuel : Nat) (path : String) : TexM Document := do
  match (← get).files.tree.read path with
  | .error fault => fail (.unreadable fault)
  | .ok text =>
      modify fun engine =>
        if engine.settings.jobName.isNone then
          { engine with jobName := (Path.stem? path).getD engine.jobName }
        else engine
      report (.info "files" ("Parsing " ++ path))
      pushText text path
      interpret fuel

/-- Interpret a file. -/
def parseFile (path : String) : TexM Document := parseFileWithin defaultFuel path

end Engine

end TexTree
