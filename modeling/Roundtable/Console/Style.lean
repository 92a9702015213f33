import Roundtable.Environment
import Roundtable.Text.Split

/-!
# Styles of a terminal

A style is switched on in front of a text and everything is reset behind it. A reset
inside the text does not end the style: it is switched on again there.
-/

namespace Roundtable.Console

/-- How a text is shown. -/
inductive Style
  | bold
  | dimmed
  | red
  | green
  | yellow
deriving DecidableEq, Repr

/-- The number of a style. -/
def Style.code : Style → String
  | .bold => "1"
  | .dimmed => "2"
  | .red => "31"
  | .green => "32"
  | .yellow => "33"

/-- Switches all styles off. -/
def resetStyle : String := "\x1b[0m"

/-- Switches a style on. -/
def Style.start (s : Style) : String := "\x1b[" ++ s.code ++ "m"

/-- The text in a style, if the terminal shows any. -/
def Style.paint (s : Style) (coloured : Bool) (text : String) : String :=
  if coloured then s.start ++ Text.replace resetStyle (resetStyle ++ s.start) text ++ resetStyle
  else text

/-- A variable is set and is not zero. -/
def isSwitchedOn (env : Environment) (name : String) : Bool :=
  (env.lookup name).any (· ≠ "0")

/-- Whether the output of a process is coloured: it can be forced, else forbidden, and is
by standard what the terminal wants. -/
def wantsColour (env : Environment) (terminal : Bool) : Bool :=
  if isSwitchedOn env "CLICOLOR_FORCE" then true
  else if (env.lookup "NO_COLOR").isSome then false
  else terminal && (env.lookup "CLICOLOR").all (· ≠ "0")

end Roundtable.Console
