import Roundtable.Console.Help

/-!
# The program

From arguments to an exit code. The manifest is loaded once to settle how the program
logs, whatever becomes of that, and once more by the command.
-/

namespace Roundtable

/-! ### Logging -/

/-- How one process logs. -/
structure LogSettings where
  level : String
  format : String
deriving DecidableEq, Repr

namespace LogSettings

/-- What was asked for counts before what the manifest says. -/
def resolve (level format : Option String) (preferences : LogPreferences) : LogSettings :=
  ⟨level.getD preferences.level, format.getD preferences.format⟩

/-- Each message is a JSON object. -/
def isJson (s : LogSettings) : Bool := s.format == "json"

end LogSettings

namespace Console

/-! ### Filters of messages -/

/-- The names and numbers of levels. -/
def levelNames : List (List Char) :=
  ["trace", "debug", "info", "warn", "error", "off", "0", "1", "2", "3", "4", "5"].map
    String.toList

/-- A level, in either case. -/
def isLevel (s : List Char) : Bool := levelNames.contains (s.map Char.toLower)

/-- A character of the name of a module. -/
def isTargetChar (c : Char) : Bool :=
  c.isAlphanum || c == '_' || c == ':' || c == '-' || (0x80 ≤ c.toNat && !isBlank c)

/-- The text behind the name of a module or a span in brackets. -/
def behindScope? (s : List Char) : Option (List Char) :=
  match s with
  | '[' :: r =>
    match r.dropWhile (· ≠ ']') with
    | _ :: rest => some rest
    | [] => none
  | _ =>
    let rest := s.dropWhile isTargetChar
    if rest.length < s.length then some rest else none

/-- A scope ends here, perhaps with a level. -/
def endsRule : List Char → Bool
  | [] | ['='] => true
  | '=' :: level => isLevel level
  | _ => false

/-- One rule of a filter: a level, or one scope or two with a level behind them. -/
def isFilterRule (s : List Char) : Bool :=
  isLevel s || (behindScope? s).any fun r => endsRule r || (behindScope? r).any endsRule

/-- A filter: rules between commas. -/
def isFilter (s : String) : Bool :=
  (Text.pieces ',' s.toList).all fun rule => rule.isEmpty || isFilterRule rule

/-- The filter of the process can be made: from its variable, or else from the settings. -/
def hasFilter (env : Environment) (s : LogSettings) : Bool :=
  (env.lookup "RUST_LOG").any isFilter || isFilter s.level

/-! ### Endings -/

/-- How a process ends: its exit code, and what it wrote to its two outputs. -/
structure Ending where
  code : Nat
  output : String
  errors : String
deriving DecidableEq, Repr

/-- A text whose further lines are indented. -/
def indentLines (indent : String) (s : String) : String := Text.replace "\n" ("\n" ++ indent) s

/-- The causes of a failure, numbered if there are several. -/
def causeLines (causes : List String) : String :=
  match causes with
  | [] => ""
  | [cause] => "\n\nCaused by:\n    " ++ indentLines "    " cause
  | _ =>
    "\n\nCaused by:" ++ String.join (causes.zipIdx.map fun (cause, n) =>
      "\n" ++ padLeft 5 (decimal n) ++ ": " ++ indentLines "       " cause)

/-- **A failure as it is told at the end of a process.** -/
def failureText : List String → String
  | [] => ""
  | what :: causes => "Error: " ++ what ++ causeLines causes ++ "\n"

/-- The ending of a command. -/
def Ending.of (o : Outcome) : Ending :=
  match o.failure with
  | none => ⟨0, o.output, ""⟩
  | some chain => ⟨1, o.output, failureText chain⟩

/-- The version of the program. -/
def version : String := "0.4.0-pre-alpha"

/-- The ending of words that are no command. -/
def Ending.ofRefusal (env : Environment) : Refusal → Ending
  | .version l => ⟨0, l.name ++ " " ++ version ++ "\n", ""⟩
  | .help l => ⟨0, l.helpText env, ""⟩
  | .helpOnHelp l => ⟨0, l.helpOnHelpText, ""⟩
  | .usage => ⟨2, "", "error: invalid arguments; use --help for usage.\n"⟩

/-- **Runs the program.** The outputs may be coloured differently. -/
def process (env : Environment) (colouredOutput colouredErrors : Bool) (args : List String) :
    FileProgram Ending :=
  match Invocation.read env args with
  | .error refusal => return .ofRefusal env refusal
  | .ok call => do
    let loaded ← Manifest.load env call.config
    let preferences := match loaded with
      | .ok m => m.settings.logging
      | .error _ => .standard
    if !hasFilter env (.resolve call.logLevel call.logFormat preferences) then
      return ⟨1, "", failureText ["Failed to create log filter", "invalid filter directive"]⟩
    else
      match call.command with
      | none =>
        let message := Style.yellow.paint colouredErrors
          "No command specified. Use --help for usage."
        return ⟨1, "", message ++ "\n"⟩
      | some command => return .of (← command.run ⟨env, colouredOutput, call.config⟩)

end Console

end Roundtable
