import Roundtable.Console.Command

/-!
# Arguments

The words behind the name of the program, read from the left. A word names a command, the
commands below it, or an operand; an option stands anywhere, with its value behind it or
joined to it, and behind `--` everything is an operand. **Every option may stand once on
each level of commands**; of the options that hold on all levels the innermost counts, and
a variable of the environment stands in where none is given.

Asking for the version or for help ends the reading at once.
-/

namespace Roundtable.Console

/-! ### The grammar -/

/-- Where a word stands: behind which commands. -/
inductive Level
  | root
  | config
  | runs
  | showConfig
  | validateConfig
  | generateConfig
  | listRuns
  | showRun
deriving DecidableEq, Repr

namespace Level

/-- The name of the program with the commands up to here. -/
def name : Level → String
  | root => "conclave"
  | config => "conclave-config"
  | runs => "conclave-runs"
  | showConfig => "conclave-config-show"
  | validateConfig => "conclave-config-validate"
  | generateConfig => "conclave-config-generate"
  | listRuns => "conclave-runs-list"
  | showRun => "conclave-runs-show"

/-- What is done on the level. -/
def about : Level → String
  | root => "Conclave orchestrator operator CLI"
  | config => "Configuration management"
  | runs => "Inspect persisted runs"
  | showConfig => "Show current configuration"
  | validateConfig => "Validate configuration file"
  | generateConfig => "Generate sample configuration"
  | listRuns => "List recorded runs"
  | showRun => "Show the latest state of a run"

/-- The commands that may follow. -/
def children : Level → List (String × Level)
  | root => [("config", config), ("runs", runs)]
  | config =>
    [("show", showConfig), ("validate", validateConfig), ("generate", generateConfig)]
  | runs => [("list", listRuns), ("show", showRun)]
  | _ => []

end Level

/-- An option. -/
structure OptionEntry where
  long : String
  short : Option Char
  /-- What its value is called, if it has one. -/
  value : Option String
  about : String
  /-- The variable of the environment that stands in. -/
  variableName : Option String
  /-- The value when it is not given. -/
  standard : Option String
deriving DecidableEq, Repr

namespace OptionEntry

/-- An option without a value. -/
def flag (long about : String) : OptionEntry := ⟨long, none, none, about, none, none⟩

/-- The path of the manifest. -/
def config : OptionEntry :=
  { long := "config", short := some 'c', value := some "FILE"
    about := "Path to configuration file (overrides discovery)"
    variableName := some Manifest.pathVariable, standard := none }

/-- The level of messages. -/
def logLevel : OptionEntry :=
  { long := "log-level", short := none, value := some "LOG_LEVEL"
    about := "Log level (trace, debug, info, warn, error); defaults to the config file"
    variableName := some "CONCLAVE_LOG_LEVEL", standard := none }

/-- The format of messages. -/
def logFormat : OptionEntry :=
  { long := "log-format", short := none, value := some "LOG_FORMAT"
    about := "Log output format (compact, json); defaults to the config file"
    variableName := some "CONCLAVE_LOG_FORMAT", standard := none }

/-- Where a new manifest is written. -/
def output : OptionEntry :=
  { long := "output", short := some 'o', value := some "OUTPUT", about := "Output path"
    variableName := none, standard := some "./conclave-config.yaml" }

end OptionEntry

/-- A word that is no option and no command. -/
structure Operand where
  name : String
  about : String
  isRequired : Bool
deriving DecidableEq, Repr

namespace Level

/-- The options of a level, in the order in which they are listed. Three hold on all
levels. -/
def entries : Level → List OptionEntry
  | showConfig =>
    [.config, .flag "paths" "Show config file paths checked", .logLevel, .logFormat]
  | generateConfig =>
    [.config, .output, .flag "examples" "Include examples and comments", .logLevel,
      .logFormat]
  | showRun =>
    [.config, .flag "history" "Print every recorded round, oldest first",
      .flag "json" "Emit JSON instead of a summary", .logLevel, .logFormat]
  | root | config | runs | validateConfig | listRuns => [.config, .logLevel, .logFormat]

/-- The operand of a level. -/
def operand? : Level → Option Operand
  | validateConfig => some ⟨"FILE", "Path to config file (default: discover)", false⟩
  | showRun => some ⟨"RUN_ID", "Run identifier", true⟩
  | root | config | runs | showConfig | generateConfig | listRuns => none

/-- The options without a value. -/
def flags (l : Level) : List String :=
  (l.entries.filter (·.value.isNone)).map (·.long)

/-- The options with a value: their names, and the letter some have. -/
def options (l : Level) : List (String × Option Char) :=
  (l.entries.filter (·.value.isSome)).map fun e => (e.long, e.short)

/-- The greatest number of operands. -/
def operandLimit (l : Level) : Nat := l.operand?.toList.length

end Level

/-- The values that are paths and must not be empty. -/
def needsText (option : String) : Bool := option == "config" || option == "output"

/-! ### Reading -/

/-- Why words are no command. -/
inductive Refusal
  | version (level : Level)
  | help (level : Level)
  /-- Help is asked for about asking for help. -/
  | helpOnHelp (level : Level)
  | usage
deriving DecidableEq, Repr

/-- What was read: on the level under way, and the options of all levels around it, the
innermost first. -/
structure Words where
  level : Level
  options : List (String × String)
  flags : List String
  operands : List String
  around : List (String × String)

namespace Words

/-- Nothing read yet. -/
def start : Words := ⟨.root, [], [], [], []⟩

/-- Down to a level. -/
def descend (w : Words) (l : Level) : Words :=
  { w with level := l, options := [], flags := [], around := w.options ++ w.around }

/-- An option with its value. -/
def setOption (w : Words) (name value : String) : Except Refusal Words :=
  if (w.options.lookup name).isSome || (needsText name && value.isEmpty) then .error .usage
  else .ok { w with options := (name, value) :: w.options }

/-- An option without a value. -/
def setFlag (w : Words) (name : String) : Except Refusal Words :=
  if w.flags.contains name then .error .usage else .ok { w with flags := name :: w.flags }

/-- An operand. Only one of those that exist is not the name of a file. -/
def addOperand (w : Words) (word : String) : Except Refusal Words :=
  if w.operands.length < w.level.operandLimit && !(w.level = .validateConfig && word.isEmpty) then
    .ok { w with operands := w.operands ++ [word] }
  else .error .usage

/-- The value of an option in the next word, which must not look like an option. -/
def nextValue? : List String → Option (String × List String)
  | [] => none
  | word :: rest =>
    match word.toList with
    | '-' :: _ :: _ => none
    | _ => some (word, rest)

/-- A long option: its name, and the value that was joined to it. -/
def readLong (w : Words) (name : String) (joined : Option String) (rest : List String) :
    Except Refusal (Words × List String) :=
  if (w.level.options.lookup name).isSome then
    match joined with
    | some value => do return (← w.setOption name value, rest)
    | none =>
      match nextValue? rest with
      | some (value, rest) => do return (← w.setOption name value, rest)
      | none => .error .usage
  else if joined.isSome then .error .usage
  else if name = "help" then .error (.help w.level)
  else if name = "version" then .error (.version w.level)
  else if w.level.flags.contains name then do return (← w.setFlag name, rest)
  else .error .usage

/-- Options of one letter; behind one with a value the rest is its value. -/
def readLetters (w : Words) (letters : List Char) (rest : List String) :
    Except Refusal (Words × List String) :=
  match letters with
  | [] => .ok (w, rest)
  | 'h' :: _ => .error (.help w.level)
  | 'V' :: _ => .error (.version w.level)
  | c :: joined =>
    match w.level.options.find? fun (_, letter) => letter = some c with
    | none => .error .usage
    | some (name, _) =>
      match joined with
      | [] => w.readLong name none rest
      | '=' :: value => w.readLong name (some (String.ofList value)) rest
      | value => w.readLong name (some (String.ofList value)) rest

/-- What words behind `help` ask for. -/
def helpWith (l : Level) : List String → Refusal
  | [] => .help l
  | word :: rest =>
    match l.children.lookup word with
    | some child => helpWith child rest
    | none =>
      if word = "help" && rest.isEmpty && !l.children.isEmpty then .helpOnHelp l else .usage

/-- A word that is no option. -/
def readWord (w : Words) (word : String) (rest : List String) : Except Refusal Words :=
  match w.level.children.lookup word with
  | some child => .ok (w.descend child)
  | none =>
    if word = "help" && !w.level.children.isEmpty then .error (helpWith w.level rest)
    else w.addOperand word

/-- The name and the value of a long option. -/
def splitLong (body : List Char) : String × Option String :=
  let name := body.takeWhile (· ≠ '=')
  let value := match body.dropWhile (· ≠ '=') with
    | _ :: v => some (String.ofList v)
    | [] => none
  (String.ofList name, value)

/-- Reads words; `plain` tells that all of them are operands. Each step takes a word at
least, so the count bounds them. -/
def read : Nat → (plain : Bool) → Words → List String → Except Refusal Words
  | _, _, w, [] => .ok w
  | 0, _, _, _ :: _ => .error .usage
  | n + 1, true, w, word :: rest => do read n true (← w.addOperand word) rest
  | n + 1, false, w, word :: rest =>
    match word.toList with
    | ['-', '-'] => read n true w rest
    | '-' :: '-' :: body => do
      let (name, value) := splitLong body
      let (w, rest) ← w.readLong name value rest
      read n false w rest
    | '-' :: c :: letters => do
      let (w, rest) ← w.readLetters (c :: letters) rest
      read n false w rest
    | _ => do read n false (← w.readWord word rest) rest

end Words

/-! ### Invocations -/

/-- What the program was called for. -/
structure Invocation where
  config : Option String
  logLevel : Option String
  logFormat : Option String
  command : Option Command
deriving Repr

/-- The command of a level, if it is one. -/
def Words.command (w : Words) : Except Refusal (Option Command) :=
  match w.level, w.operands with
  | .root, _ => .ok none
  | .config, _ | .runs, _ => .error .usage
  | .showConfig, _ => .ok (some (.showConfig (w.flags.contains "paths")))
  | .validateConfig, operands => .ok (some (.validateConfig operands.head?))
  | .generateConfig, _ =>
    .ok (some (.generateConfig
      ((w.options.lookup "output").getD (OptionEntry.output.standard.getD ""))
      (w.flags.contains "examples")))
  | .listRuns, _ => .ok (some .listRuns)
  | .showRun, id :: _ =>
    .ok (some (.showRun id (w.flags.contains "history") (w.flags.contains "json")))
  | .showRun, [] => .error .usage

/-- The value of an option that holds on all levels. -/
def Words.shared (w : Words) (env : Environment) (e : OptionEntry) : Option String :=
  ((w.options ++ w.around).lookup e.long).or (e.variableName.bind env.lookup)

/-- **Reads the arguments of the program.** -/
def Invocation.read (env : Environment) (args : List String) : Except Refusal Invocation := do
  let w ← Words.read args.length false .start args
  let command ← w.command
  if env.lookup Manifest.pathVariable = some "" then .error .usage
  else
    return ⟨w.shared env .config, w.shared env .logLevel, w.shared env .logFormat, command⟩

end Roundtable.Console
