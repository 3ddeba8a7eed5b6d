import TexTree.Engine.Fragment

/-!
# Packages and classes

The classes `article`, `report` and `book` are built in.  The files of other
packages and classes are read if the settings ask for it, with `@` as a letter;
otherwise they are passed over.
-/

namespace TexTree

/-- What is loaded. -/
inductive PackageKind where
  | package
  | documentClass
  deriving DecidableEq, Repr, Inhabited

namespace PackageKind

/-- The extension of the files. -/
def extension : PackageKind → String
  | .package => "sty"
  | .documentClass => "cls"

/-- The kind in words. -/
def text : PackageKind → String
  | .package => "package"
  | .documentClass => "class"

end PackageKind

namespace Engine

/-- Create a counter that is subordinate to another one and printed behind it. -/
def createCounterWithin (engine : Engine) (superior name : String) : Engine :=
  (engine.createCounter name (some superior) 0).setTemplate name (.within superior name)

/-- The counters below a section, each with its superior. -/
def sectionCounters : List (String × String) :=
  [("subsection", "section"), ("subsubsection", "subsection"), ("paragraph", "subsubsection"),
    ("subparagraph", "paragraph"), ("subsubparagraph", "subparagraph")]

/-- Create the counters of a standard class, with chapters or without. -/
def createClassCounters (engine : Engine) (hasChapters : Bool) : Engine :=
  let parts := (engine.createCounter "part" none 0).setTemplate "part" ⟨"$\x7bpart.Roman\x7d"⟩
  let numbered := ["section", "figure", "table", "equation"]
  let floats :=
    if hasChapters then
      numbered.foldl (fun engine name => engine.createCounterWithin "chapter" name)
        (parts.createCounter "chapter" none 0)
    else numbered.foldl (fun engine name => engine.createCounter name none 0) parts
  let sections :=
    sectionCounters.foldl (fun engine (name, superior) => engine.createCounterWithin superior name)
      floats
  sections.createCounter "footnote" (some (if hasChapters then "chapter" else "section")) 0

/-- Load what is built in; nothing if that is not there. -/
def loadBuiltin? (engine : Engine) (name : String) (kind : PackageKind) : Option Engine :=
  match engine.libraries.get? name, kind, name with
  | some elements, _, _ =>
      some { engine with
        scopes := elements.foldl
          (fun scopes element => scopes.setCommand element.name (.element element) true)
          engine.scopes }
  | none, .documentClass, "article" => some (engine.createClassCounters false)
  | none, .documentClass, "report" | none, .documentClass, "book" =>
      some (engine.createClassCounters true)
  | _, _, _ => none

/-- Interpret the text of a package.  What it produces is dropped. -/
def interpretPackage (interpreter : Interpreter) (text file : String) : TexM Unit := do
  report (.info "packages" ("Loading " ++ file))
  let category := (← get).scopes.categories.category '@'
  categorize '@' .letter false
  pushTokens [.endOfList "package"]
  pushText text file
  let fragment ← createFragment
  let current := (← get).references.current
  ensuring (digestUntil interpreter fragment "package") fun engine =>
    { engine with
      references := { engine.references with current }
      scopes := engine.scopes.categorize '@' category false }

/-- Load a package or class from its file. -/
def loadFromFile (interpreter : Interpreter) (name : String) (kind : PackageKind) :
    TexM Unit := do
  let engine ← get
  match engine.files.find? name kind.extension engine.input.file? with
  | none => warn "packages" ("File " ++ name ++ "." ++ kind.extension ++ " not found")
  | some path =>
      match engine.files.tree.read path with
      | .ok text => interpretPackage interpreter text path
      | .error fault => warn "packages" ("Could not read " ++ path ++ ": " ++ fault.message)

/-- Load a package or class, unless that has been done. -/
def loadPackage (interpreter : Interpreter) (kind : PackageKind) (options : List String)
    (name : String) : TexM Unit := do
  let name := Text.trim name
  if name.isEmpty || (← get).packages.contains name then return
  modify fun engine => { engine with packages := engine.packages.insert name options }
  let engine ← get
  match engine.loadBuiltin? name kind with
  | some loaded => set loaded
  | none =>
      if engine.settings.readsPackages then loadFromFile interpreter name kind
      else
        report (.info "packages"
          ("No implementation of " ++ kind.text ++ " " ++ name ++ "; skipping"))

/-- Load packages or classes. -/
def loadPackages (interpreter : Interpreter) (kind : PackageKind) (options : List String)
    (names : List String) : TexM Unit :=
  names.forM (loadPackage interpreter kind options)

/-- The parts of a list that is separated by commas. -/
def readList (tokens : List Token) : List String :=
  (((Token.displayList tokens).splitOn ",").map Text.trim).filter fun part => !part.isEmpty

/-- Load the packages or the class that the arguments of a token name. -/
def loadNamedPackages (interpreter : Interpreter) (token : Token) : TexM Unit := do
  let options := (← readBracketed '[' ']').elim [] readList
  let names := readList (← readArgumentFor token.text)
  let _ ← readBracketed '[' ']'
  let kind := if token.isNamed "documentclass" then .documentClass else .package
  loadPackages interpreter kind options names

end Engine

end TexTree
