import UtilityCss.Table
import UtilityCss.Text.Basic

/-!
# Arguments of commands

Arguments are options or operands. An option begins with a dash and is more than that dash.
A long option takes its value from behind an equals sign or from the next argument,
whatever that is. Two dashes alone end the options. Single letters stand for flags and can
be written together behind one dash.
-/

namespace UtilityCss

namespace CommandLine

/-- What an option takes. -/
inductive OptionKind where
  | flag
  | value
  deriving DecidableEq

/-- The options that a command knows. -/
structure OptionTable where
  long : Table Text OptionKind := []
  /-- The long flags that single letters stand for. -/
  letters : Table Char Text := []

/-- Options and operands. -/
structure Arguments where
  flags : List Text := []
  /-- The value of each option; the last one given counts. -/
  values : Table Text Text := []
  operands : List Text := []

namespace Arguments

/-- Whether an argument is an option. -/
def isOption (arg : Text) : Bool := Text.startsWith arg "-" && 1 < arg.length

/-- Put flags in front of what was read after them. -/
def withFlags (names : List Text) (later : Arguments) : Arguments :=
  { later with flags := names ++ later.flags }

/-- Put the value of an option in front of what was read after it. -/
def withValue (name value : Text) (later : Arguments) : Arguments :=
  if later.values.hasKey name then later
  else { later with values := (name, value) :: later.values }

/-- Put an operand in front of what was read after it. -/
def withOperand (operand : Text) (later : Arguments) : Arguments :=
  { later with operands := operand :: later.operands }

/-- Read arguments; none if they are misused. Operands end the options unless the two may
be mixed. -/
def read? (table : OptionTable) (mixed : Bool) : List Text → Option Arguments
  | [] => some {}
  | arg :: rest =>
      if arg == "--" then some { operands := rest }
      else if isOption arg then
        let (name, given) := match Text.cutFirst? '=' arg with
          | some (name, value) => (name, some value)
          | none => (arg, none)
        match table.long.get? name, given with
        | some .value, some value => (read? table mixed rest).map (withValue name value)
        | some .value, none =>
            match rest with
            | [] => none
            | value :: rest => (read? table mixed rest).map (withValue name value)
        | some .flag, some _ => none
        | some .flag, none => (read? table mixed rest).map (withFlags [name])
        | none, _ =>
            if Text.startsWith arg "--" then none
            else do
              let names ← (arg.drop 1).mapM table.letters.get?
              (read? table mixed rest).map (withFlags names)
      else if mixed then (read? table mixed rest).map (withOperand arg)
      else some { operands := arg :: rest }

/-- Whether a flag is given. -/
def hasFlag (arguments : Arguments) (name : Text) : Bool := arguments.flags.contains name

/-- The value of an option. -/
def value? (arguments : Arguments) (name : Text) : Option Text := arguments.values.get? name

end Arguments

end CommandLine

end UtilityCss
