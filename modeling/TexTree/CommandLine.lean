import TexTree.Document.Display
import TexTree.Session

/-!
# The command line

What the arguments of the program ask for, and what it answers.  Options have a
long name and a letter; letters can be joined, and a value stands behind its
option, behind an equals sign, or right behind the letter.  A value cannot look
like an option.
-/

namespace TexTree.CommandLine

/-- The options of the program. -/
inductive Choice where
  | text
  | output
  | source
  | directory
  | jobName
  | readPackages
  | quiet
  | verbose
  | help
  | version
  deriving DecidableEq, Repr, Inhabited

namespace Choice

/-- The options with their long names and their letters. -/
def names : List (String × Char × Choice) :=
  [("text", 't', .text), ("output", 'o', .output), ("source", 's', .source),
    ("texinputs", 'I', .directory), ("jobname", 'j', .jobName),
    ("load-packages", 'l', .readPackages), ("quiet", 'q', .quiet), ("verbose", 'v', .verbose),
    ("help", 'h', .help), ("version", 'V', .version)]

/-- The option with a long name. -/
def ofName? (name : String) : Option Choice :=
  (names.find? fun entry => entry.1 == name).map fun entry => entry.2.2

/-- The option with a letter. -/
def ofLetter? (letter : Char) : Option Choice :=
  (names.find? fun entry => entry.2.1 == letter).map fun entry => entry.2.2

/-- Whether a value stands behind the option. -/
def takesValue : Choice → Bool
  | .text | .output | .directory | .jobName => true
  | _ => false

end Choice

/-- What is wrong with the arguments. -/
inductive UsageError where
  | unknownOption (name : String)
  | missingValue (choice : Choice)
  | unexpectedValue (choice : Choice)
  | repeated (choice : Choice)
  | emptyPath
  | extraArgument (text : String)
  deriving DecidableEq, Repr, Inhabited

/-- The option by its long name, as it is shown. -/
def Choice.shown (choice : Choice) : String :=
  "--" ++ ((Choice.names.find? fun entry => entry.2.2 == choice).map Prod.fst).getD ""

/-- The error in words. -/
def UsageError.message : UsageError → String
  | .unknownOption name => "unexpected argument '" ++ name ++ "' found"
  | .missingValue choice => "a value is required for '" ++ choice.shown ++ "'"
  | .unexpectedValue choice => "no value can be given to '" ++ choice.shown ++ "'"
  | .repeated choice => "the argument '" ++ choice.shown ++ "' cannot be used multiple times"
  | .emptyPath => "a path cannot be empty"
  | .extraArgument text => "unexpected argument '" ++ text ++ "' found"

/-- What the user has chosen. -/
structure Options where
  /-- The file to be interpreted. -/
  input : Option String := none
  /-- The text to be interpreted if there is no file. -/
  text : Option String := none
  /-- The file for the result. -/
  output : Option String := none
  /-- Whether the source is printed in place of the tree. -/
  printsSource : Bool := false
  /-- Additional directories in which files are looked for. -/
  directories : List String := []
  jobName : Option String := none
  readsPackages : Bool := false
  isQuiet : Bool := false
  verbosity : Nat := 0
  deriving DecidableEq, Repr, Inhabited

/-- What the arguments ask for. -/
inductive Request where
  | interpret (options : Options)
  | help
  | version
  deriving DecidableEq, Repr, Inhabited

namespace Options

/-- Choose a value that can be chosen once. -/
def once {α : Type} (choice : Choice) (old : Option α) (value : α) :
    Except UsageError (Option α) :=
  if old.isSome then .error (.repeated choice) else .ok (some value)

/-- A path is never empty. -/
def path (text : String) : Except UsageError String :=
  if text.isEmpty then .error .emptyPath else .ok text

/-- Switch on something that can be switched on once. -/
def switch (choice : Choice) (old : Bool) : Except UsageError Bool :=
  if old then .error (.repeated choice) else .ok true

/-- Choose a value for an option. -/
def withValue (options : Options) (choice : Choice) (value : String) :
    Except UsageError Options := do
  match choice with
  | .text => return { options with text := ← once choice options.text value }
  | .output => return { options with output := ← once choice options.output (← path value) }
  | .directory => return { options with directories := options.directories ++ [← path value] }
  | .jobName => return { options with jobName := ← once choice options.jobName value }
  | _ => throw (.unexpectedValue choice)

/-- Choose an option without a value. -/
def withFlag (options : Options) (choice : Choice) : Except UsageError Options := do
  match choice with
  | .source => return { options with printsSource := ← switch choice options.printsSource }
  | .readPackages =>
      return { options with readsPackages := ← switch choice options.readsPackages }
  | .quiet => return { options with isQuiet := ← switch choice options.isQuiet }
  | .verbose => return { options with verbosity := min (options.verbosity + 1) 255 }
  | _ => throw (.missingValue choice)

/-- Choose the file to be interpreted. -/
def withInput (options : Options) (text : String) : Except UsageError Options := do
  if options.input.isSome then throw (.extraArgument text)
  return { options with input := some (← path text) }

end Options

/-- What is left to do behind a group of letters. -/
inductive Pending where
  | options (chosen : Options)
  | value (chosen : Options) (choice : Choice)
  | request (asked : Request)

/-- Choose the options of a group of letters. -/
def letters (options : Options) : List Char → Except UsageError Pending
  | [] => .ok (.options options)
  | letter :: rest =>
      match Choice.ofLetter? letter with
      | none => .error (.unknownOption ("-" ++ String.singleton letter))
      | some .help => .ok (.request .help)
      | some .version => .ok (.request .version)
      | some choice =>
          if choice.takesValue then
            match rest with
            | [] => .ok (.value options choice)
            | '=' :: value => .options <$> options.withValue choice (String.ofList value)
            | value => .options <$> options.withValue choice (String.ofList value)
          else do
            let chosen ← options.withFlag choice
            letters chosen rest

/-- Choose the option with a long name and, behind an equals sign, its value. -/
def longOption (options : Options) (text : List Char) : Except UsageError Pending :=
  let name := String.ofList (text.takeWhile (· != '='))
  let value? := match text.dropWhile (· != '=') with
    | [] => none
    | _ :: value => some (String.ofList value)
  match Choice.ofName? name, value? with
  | none, _ => .error (.unknownOption ("--" ++ name))
  | some .help, none => .ok (.request .help)
  | some .version, none => .ok (.request .version)
  | some choice, some value =>
      if choice.takesValue then .options <$> options.withValue choice value
      else .error (.unexpectedValue choice)
  | some choice, none =>
      if choice.takesValue then .ok (.value options choice)
      else .options <$> options.withFlag choice

/-- What one argument asks for. -/
def argument (options : Options) (text : String) : Except UsageError Pending :=
  match text.toList with
  | '-' :: '-' :: name => longOption options name
  | '-' :: letter :: rest => letters options (letter :: rest)
  | _ => .options <$> options.withInput text

/-- Whether an argument can be the value of an option. -/
def isValue (text : String) : Bool := text == "-" || text.toList.head? != some '-'

/-- What the arguments ask for, behind those that have led to the given
options. -/
def parseFrom (options : Options) : List String → Except UsageError Request
  | [] => .ok (.interpret options)
  | text :: rest =>
      if text == "--" then .interpret <$> rest.foldlM Options.withInput options
      else
        match argument options text with
        | .error error => .error error
        | .ok (.request asked) => .ok asked
        | .ok (.options chosen) => parseFrom chosen rest
        | .ok (.value chosen choice) =>
            match rest with
            | [] => .error (.missingValue choice)
            | value :: rest' =>
                if isValue value then
                  match chosen.withValue choice value with
                  | .error error => .error error
                  | .ok chosen' => parseFrom chosen' rest'
                else .error (.missingValue choice)

/-- What the arguments ask for. -/
def parse (arguments : List String) : Except UsageError Request := parseFrom {} arguments

/-- What the program leaves behind. -/
structure Outcome where
  exitCode : Nat
  /-- What is printed. -/
  output : String
  log : List LogEntry
  /-- The files afterwards. -/
  tree : FileTree
  deriving Inhabited

/-- The report of an error. -/
def failure (message : String) : LogEntry := ⟨.error, "texdom", message⟩

/-- Interpret what the options name, if they name anything. -/
def interpretInput (workingDirectory : String) (options : Options) : TexM (Option Document) := do
  match options.input, options.text with
  | some given, _ =>
      let path := Path.withoutDots workingDirectory given
      Engine.report (.info "texdom" ("Parsing " ++ path))
      some <$> Engine.parseFile path
  | none, some text => some <$> Engine.parseText text
  | none, none => return none

/-- Write the result where the options say. -/
def writeResult (options : Options) (tree : FileTree) (log : List LogEntry) (result : String) :
    Outcome :=
  match options.output with
  | none => ⟨0, result ++ "\n", log, tree⟩
  | some path =>
      match tree.creatable path with
      | .ok place => ⟨0, "", log, tree.store place result.toUTF8⟩
      | .error fault =>
          ⟨1, "", log ++ [failure ("Error writing output: " ++ fault.message)], tree⟩

/-- Do what the options say.  `entries` is a list of directories in which files
are looked for. -/
def execute (tree : FileTree) (entries : Option String) (date : Date) (options : Options) :
    Outcome :=
  let workingDirectory := Path.ofComponents true tree.workingDirectory
  let files : Files :=
    ⟨tree, .build tree workingDirectory options.directories entries, workingDirectory, []⟩
  let settings : Settings :=
    { jobName := options.jobName
      reportsUnrecognized := !options.isQuiet
      readsPackages := options.readsPackages }
  match interpretInput workingDirectory options (Engine.fresh settings files date .empty) with
  | .error error engine =>
      ⟨1, "", engine.log.toList ++ [failure error.message], engine.files.closeAll.tree⟩
  | .ok none engine =>
      ⟨1, "", engine.log.toList ++ [failure "No input given; see --help"],
        engine.files.closeAll.tree⟩
  | .ok (some document) engine =>
      let result :=
        if options.printsSource then document.source Document.root
        else document.display Document.root
      writeResult options engine.files.closeAll.tree engine.log.toList result

/-- Whether a report is shown.  Reports of mere happenings are shown on demand. -/
def isShown (options : Options) (entry : LogEntry) : Bool :=
  entry.level != .info || options.verbosity > 0

/-- The level of a report in five characters. -/
def levelText (level : LogLevel) : String :=
  level.name ++ String.ofList (List.replicate (5 - level.name.length) ' ')

/-- A report as it is shown. -/
def entryText (entry : LogEntry) : String :=
  levelText entry.level ++ " [" ++ entry.topic ++ "] " ++ entry.message

/-- The name and the version of the program. -/
def version : String := "texdom 0.1.0\n"

/-- How the program is used. -/
def usage : String :=
  "Usage: texdom [OPTIONS] [INPUT]\n\n" ++
  "Arguments:\n" ++
  "  [INPUT]  Input file (tex)\n\n" ++
  "Options:\n" ++
  "  -t, --text <TEXT>            Input string (tex), used if no input file is given\n" ++
  "  -o, --output <OUTPUT>        Output file; the tree is printed to stdout otherwise\n" ++
  "  -s, --source                 Print the reconstructed source instead of the node tree\n" ++
  "  -I, --texinputs <TEXINPUTS>  Additional directories to search for input files\n" ++
  "  -j, --jobname <JOBNAME>      The value of \\jobname\n" ++
  "  -l, --load-packages          Load the TeX sources of packages without a built-in " ++
  "implementation\n" ++
  "  -q, --quiet                  Do not warn about unrecognized commands\n" ++
  "  -v, --verbose...             verbose (repeat for more)\n" ++
  "  -h, --help                   Print help\n" ++
  "  -V, --version                Print version\n"

end TexTree.CommandLine
