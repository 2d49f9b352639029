import UtilityCss.CommandLine.Commands

/-!
# The program

Options of the program stand before the name of a command; options of a command may stand
anywhere behind it. Misuse prints nothing and ends with exit code two.
-/

namespace UtilityCss

namespace CommandLine

/-- The options of the program. -/
def programOptions : OptionTable where
  long :=
    [("--prefix", .value), ("--dark-mode", .value), ("--important", .flag),
      ("--verbose", .flag), ("--version", .flag)]
  letters := [('v', "--verbose")]

/-- The options of the command that compiles. -/
def compileOptions : OptionTable where
  long := [("--minify", .flag), ("--layers", .flag), ("--sort", .flag), ("--comments", .flag)]

/-- What is printed for the version. -/
def versionLine : Text := "brisk, version 0.1.0"

/-- The outcome of printing the version. -/
def version : Outcome := { output := lines [versionLine] }

/-- The configuration that the options of the program ask for; none for a dark mode that
does not exist. -/
def config? (arguments : Arguments) : Option Config :=
  let darkMode := (arguments.value? "--dark-mode").getD "class"
  if darkModes.contains darkMode then some {
    classPrefix := (arguments.value? "--prefix").getD []
    darkMode
    important := arguments.hasFlag "--important" }
  else none

/-- How the stylesheet is to be written. -/
def stylesheetOptions (arguments : Arguments) : Stylesheet.Options where
  minify := arguments.hasFlag "--minify"
  comments := arguments.hasFlag "--comments"
  sortByProperty := arguments.hasFlag "--sort"
  useLayers := arguments.hasFlag "--layers"

/-- Run a command on its arguments, of which at least one has to be an operand. -/
def withOperands (table : OptionTable) (args : List Text) (command : Arguments → Outcome) :
    Outcome :=
  match Arguments.read? table true args with
  | none => .misuse
  | some arguments => if arguments.operands = [] then .misuse else command arguments

/-- The outcome for a command that does not exist: its name and arguments are read as
options once more, and only the version is answered. -/
def unknownCommand (args : List Text) : Outcome :=
  match Arguments.read? programOptions false args with
  | some arguments => if arguments.hasFlag "--version" then version else .misuse
  | none => .misuse

/-- Run a command by name. -/
def runCommand (config : Config) (name : Text) (args : List Text) : Outcome :=
  if name == "compile" then
    withOperands compileOptions args fun arguments =>
      compile config (stylesheetOptions arguments) arguments.operands
  else if name == "migrate" then
    withOperands {} args fun arguments => migrate arguments.operands
  else if name == "check" then
    withOperands {} args fun arguments => check config arguments.operands
  else unknownCommand (name :: args)

/-- Run the program. -/
def run (args : List Text) : Outcome :=
  match Arguments.read? programOptions false args with
  | none => .misuse
  | some arguments =>
      if arguments.hasFlag "--version" then version
      else match config? arguments, arguments.operands with
        | some config, name :: rest => runCommand config name rest
        | _, _ => .misuse

end CommandLine

end UtilityCss
