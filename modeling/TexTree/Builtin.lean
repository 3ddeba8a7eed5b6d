import TexTree.Engine.Formula

/-!
# The built-in commands

All names that have a meaning before anything has been read.
-/

namespace TexTree

namespace Argument

/-- A required argument that becomes a part of the document. -/
def required (name : String) : Argument := ⟨name, .required, .fragment, ',', none⟩

/-- A required argument of a type. -/
def requiredOf (name : String) (type : ArgumentType) : Argument :=
  ⟨name, .required, type, ',', none⟩

/-- An optional argument in square brackets of a type. -/
def optionalOf (name : String) (type : ArgumentType) : Argument :=
  ⟨name, .bracketed '[' ']', type, ',', none⟩

/-- An optional argument in square brackets that becomes a part of the document. -/
def optional (name : String) : Argument := optionalOf name .fragment

/-- An optional star. -/
def star : Argument := ⟨"modifier", .modifier "*", .text, ',', none⟩

/-- The argument that becomes the content of the element. -/
def content : Argument := ⟨"self", .content, .fragment, ',', none⟩

end Argument

namespace Builtin

/-- The conditionals. -/
def conditions : List (String × Condition) :=
  [("if", .sameCharacter), ("ifcat", .sameCategory), ("ifx", .sameMeaning),
    ("ifnum", .integers), ("ifdim", .dimensions), ("ifodd", .parity), ("ifeven", .parity),
    ("ifvmode", .mode), ("ifhmode", .mode), ("ifmmode", .mode), ("ifinner", .mode),
    ("ifvoid", .box), ("ifhbox", .box), ("ifvbox", .box), ("ifeof", .box),
    ("iftrue", .always true), ("iffalse", .always false), ("ifdefined", .defined)]

/-- The other expandable commands. -/
def expansions : List (String × Expansion) :=
  [("csname", .namedControl), ("string", .spelling), ("noexpand", .frozenToken),
    ("expandafter", .expandedBehind), ("the", .internalValue), ("number", .integer),
    ("romannumeral", .romanNumeral), ("jobname", .jobName), ("meaning", .meaningOfToken),
    ("ifcase", .branch), ("else", .nothing), ("or", .nothing), ("fi", .nothing),
    ("value", .counterValue), ("arabic", .counterStyle), ("roman", .counterStyle),
    ("Roman", .counterStyle), ("alph", .counterStyle), ("Alph", .counterStyle),
    ("fnsymbol", .counterStyle), ("active::~", .fixed [.other '\xa0']), ("today", .date),
    ("TeX", .fixed (Token.ofText "TeX")), ("LaTeX", .fixed (Token.ofText "LaTeX")),
    (" ", .fixed [.space]), ("", .fixed [.space])]

/-- The commands that only change the state. -/
def actions : List (String × Action) :=
  [("def", .define "def" false false), ("edef", .define "edef" true false),
    ("gdef", .define "gdef" false true), ("xdef", .define "xdef" true true),
    ("let", .letMeaning), ("futurelet", .letNextMeaning), ("global", .makeGlobal),
    ("long", .nothing), ("outer", .nothing), ("protected", .makeProtected),
    ("chardef", .defineCharacter), ("mathchardef", .defineCharacter), ("char", .character),
    ("catcode", .categoryCode), ("endcsname", .strayNameEnd), ("relax", .nothing),
    ("input", .readFile), ("include", .readFile), ("endinput", .endFile),
    ("showthe", .showValue), ("openout", .openStream), ("write", .writeStream),
    ("closeout", .closeStream), ("immediate", .nothing), ("newcount", .newRegister),
    ("newdimen", .newRegister), ("newskip", .newRegister), ("newmuskip", .newRegister),
    ("newlength", .newRegister), ("advance", .arithmetic), ("multiply", .arithmetic),
    ("divide", .arithmetic), ("setlength", .setLength), ("addtolength", .setLength),
    ("newif", .newSwitch), ("newcommand", .newCommand), ("renewcommand", .newCommand),
    ("providecommand", .newCommand), ("DeclareRobustCommand", .newCommand),
    ("newenvironment", .newEnvironment), ("renewenvironment", .newEnvironment),
    ("makeatletter", .categorizeAt .letter), ("makeatother", .categorizeAt .other),
    ("newcounter", .newCounter), ("setcounter", .setCounter), ("addtocounter", .setCounter),
    ("stepcounter", .stepCounter), ("documentclass", .loadPackages),
    ("usepackage", .loadPackages), ("RequirePackage", .loadPackages),
    ("ProvidesPackage", .provides), ("ProvidesClass", .provides), ("ProvidesFile", .provides),
    ("NeedsTeXFormat", .provides), ("newtheorem", .newTheorem)]

/-- The commands that construct nodes in a way of their own. -/
def constructions : List (String × Construction) :=
  [("bgroup", .openGroup), ("egroup", .closeGroup), ("begingroup", .openGroup),
    ("endgroup", .closeGroup), ("begin", .beginEnvironment), ("end", .endEnvironment),
    ("active::$", .mathShift), ("(", .openMath "math" "\\("), (")", .closeMath "math"),
    ("[", .openMath "displaymath" "\\["), ("]", .closeMath "displaymath"),
    ("active::^", .script), ("active::_", .script), ("active::&", .alignmentTab),
    ("verb", .verbatimText)]

/-- The sectioning commands with their levels. -/
def sectionLevels : List (String × Level) :=
  [("part", .part), ("chapter", .chapter), ("section", .mainSection),
    ("subsection", .subsection), ("subsubsection", .subsubsection), ("paragraph", .paragraph),
    ("subparagraph", .subparagraph), ("subsubparagraph", .subsubparagraph)]

/-- A sectioning command, which is numbered by a counter of the same name. -/
def sectionElement (name : String) (level : Level) : Element :=
  { name, level, arguments := [.star, .optional "toc", .required "title"],
    digest := .sectioning, block := true, counter := some name }

/-- The item of a list. -/
def item : Element :=
  { name := "item", arguments := [.optional "term"], digest := .item, block := true }

/-- A list whose items are commands of its own. -/
def list (name : String) (item : Element) : Element :=
  { (ElementOf.environment name [] : Element) with
    block := true, hook := some .list, locals := [("item", .element item)] }

/-- An environment between paragraphs. -/
def blockEnvironment (name : String) : Element :=
  { (ElementOf.environment name [] : Element) with block := true }

/-- A command whose argument is its content. -/
def enclosing (name : String) : Element := { name, arguments := [.content] }

/-- A command that holds up to the end of the group. -/
def declaration (name : String) : Element := { name, digest := .declaration }

/-- The elements. -/
def elements : List Element :=
  [{ name := "par", level := Level.par },
    { name := "hskip", arguments := [.requiredOf "skip" .glue] },
    { name := "vskip", arguments := [.requiredOf "skip" .glue], block := true },
    { enclosing "hbox" with math := some false },
    { enclosing "vbox" with math := some false, block := true },
    { name := "refstepcounter", arguments := [.requiredOf "counter" .text],
      hook := some .stepCounter },
    { name := "label", arguments := [.requiredOf "label" .label] },
    { name := "ref", arguments := [.requiredOf "label" .reference] },
    { name := "pageref", arguments := [.requiredOf "label" .reference] },
    { name := "\\", arguments := [.star, .optionalOf "space" .dimensionGroup] },
    { name := "footnote", arguments := [.optional "mark", .content],
      counter := some "footnote" },
    { ElementOf.environment "document" [] with
      level := Level.document, hook := some .document }] ++
  sectionLevels.map (fun (name, level) => sectionElement name level) ++
  [list "itemize" item, list "description" item,
    list "enumerate" { item with hook := some .enumerateItem }] ++
  ["center", "flushleft", "flushright", "quote", "quotation", "abstract"].map
    blockEnvironment ++
  [Engine.mathEnvironment "math", Engine.mathEnvironment "displaymath",
    { Engine.mathEnvironment "equation" with counter := some "equation" },
    Engine.mathEnvironment "equation*"] ++
  ["textbf", "textit", "emph", "texttt", "textrm", "textsf", "underline"].map enclosing ++
  ["bf", "it", "em", "tt", "rm", "sf"].map declaration ++
  [{ blockEnvironment "verbatim" with hook := some .verbatim }]

/-- All built-in commands with their names. -/
def commands : List (String × Command) :=
  conditions.map (fun (name, test) => (name, .primitive name (.condition test))) ++
  expansions.map (fun (name, result) => (name, .primitive name (.expansion result))) ++
  actions.map (fun (name, effect) => (name, .primitive name (.action effect))) ++
  constructions.map (fun (name, kind) => (name, .primitive name (.construction kind))) ++
  elements.map (fun element => (element.name, .element element))

/-- The scopes with all built-in commands. -/
def scopes : Scopes :=
  { Scopes.initial with base := { Scopes.initial.base with commands := .ofList commands } }

end Builtin

end TexTree
