import Roundtable.Console.Arguments

/-!
# Help

What the program says about itself: for each level of commands what is done there, how it
is called, and its commands, operands and options, one in a line, with their descriptions
in a column of their own. An option that a variable stands in for shows its value.
-/

namespace Roundtable.Console

/-- Lines of names and descriptions, the descriptions two columns behind the longest
name. -/
def columns (rows : List (String × String)) : String :=
  let width := rows.foldl (fun n (name, _) => max n name.length) 0
  String.join (rows.map fun (name, about) => "  " ++ padRight (width + 2) name ++ about ++ "\n")

namespace OptionEntry

/-- The letter and the name of an option, and its value. -/
def label (e : OptionEntry) : String :=
  (match e.short with
    | some c => "-" ++ String.ofList [c] ++ ", "
    | none => "    ") ++
  "--" ++ e.long ++
  (match e.value with
    | some v => " <" ++ v ++ ">"
    | none => "")

/-- What an option is for, and where its value comes from when it is not given. -/
def description (env : Environment) (e : OptionEntry) : String :=
  e.about ++
  (match e.variableName with
    | some v => " [env: " ++ v ++ "=" ++ (env.lookup v).getD "" ++ "]"
    | none => "") ++
  (match e.standard with
    | some v => " [default: " ++ v ++ "]"
    | none => "")

/-- Asks for help. -/
def help : OptionEntry := { flag "help" "Print help" with short := some 'h' }

/-- Asks for the version. -/
def version : OptionEntry := { flag "version" "Print version" with short := some 'V' }

end OptionEntry

/-- An operand as it is called. -/
def Operand.label (o : Operand) : String :=
  if o.isRequired then "<" ++ o.name ++ ">" else "[" ++ o.name ++ "]"

namespace Level

/-- What asking for help does. -/
def helpAbout : String := "Print this message or the help of the given subcommand(s)"

/-- What the words after the name of a level may be. -/
def usageTail (l : Level) : String :=
  match l, l.operand? with
  | .root, _ => " [COMMAND]"
  | .config, _ | .runs, _ => " <COMMAND>"
  | _, some o => " " ++ o.label
  | _, none => ""

/-- The name of a level as it is typed. -/
def typedName (l : Level) : String := Text.replace "-" " " l.name

/-- The part of a help text under a heading; none where nothing belongs there. -/
def part (heading : String) (rows : List (String × String)) : String :=
  if rows.isEmpty then "" else "\n" ++ heading ++ ":\n" ++ columns rows

/-- The commands of a level and what they do. -/
def commandRows (l : Level) : List (String × String) :=
  if l.children.isEmpty then []
  else (l.children.map fun (name, child) => (name, child.about)) ++ [("help", helpAbout)]

/-- **The help text of a level.** -/
def helpText (env : Environment) (l : Level) : String :=
  l.about ++ "\n\nUsage: " ++ l.typedName ++ " [OPTIONS]" ++ l.usageTail ++ "\n" ++
    part "Commands" l.commandRows ++
    part "Arguments" (l.operand?.toList.map fun o => (o.label, o.about)) ++
    part "Options"
      ((l.entries ++ [OptionEntry.help, OptionEntry.version]).map fun e =>
        (e.label, e.description env))

/-- The help text of asking for help. -/
def helpOnHelpText (l : Level) : String :=
  helpAbout ++ "\n\nUsage: " ++ l.typedName ++ " help [COMMAND]...\n" ++
    part "Arguments" [("[COMMAND]...", "Print help for the subcommand(s)")]

end Level

end Roundtable.Console
