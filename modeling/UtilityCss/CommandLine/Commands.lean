import UtilityCss.CommandLine.Arguments
import UtilityCss.Engine.Config
import UtilityCss.Lint.Check
import UtilityCss.Migration.Defaults

/-!
# Commands

What each command prints for its operands, and the exit code it ends with.
-/

namespace UtilityCss

namespace CommandLine

/-- How a command ended. -/
structure Outcome where
  exitCode : Nat := 0
  /-- What was printed. -/
  output : Text := []
  /-- The error that ended the command early. -/
  error : Option Error := none

namespace Outcome

/-- Arguments that no command accepts. -/
def misuse : Outcome := { exitCode := 2 }

/-- A command that an error ended before it printed anything. -/
def failed (error : Error) : Outcome := { exitCode := 1, error := some error }

end Outcome

/-- Lines, each with its end. -/
def lines (content : List Text) : Text := content.flatMap (· ++ ['\n'])

/-- Print a stylesheet for class texts. Unknown tokens are left out, and nothing is printed
for an empty stylesheet. -/
def compile (config : Config) (options : Stylesheet.Options) (texts : List Text) : Outcome :=
  match Engine.build config with
  | .error error => .failed error
  | .ok engine =>
      match (engine.compile texts options {}).1 with
      | .error error => .failed error
      | .ok css => { output := if css = [] || Text.endsWith css ['\n'] then css else css ++ ['\n'] }

/-- How many findings there are of each severity. -/
def findingCounts (diagnostics : List Diagnostic) : Text :=
  let count (severity : Severity) : Nat := diagnostics.countP (·.severity == severity)
  "Summary: " ++ Text.ofNat (count .error) ++ " error(s), " ++
    Text.ofNat (count .warning) ++ " warning(s), " ++ Text.ofNat (count .info) ++ " info"

/-- The report of a check in which something was found. -/
def findings (diagnostics : List Diagnostic) : Outcome :=
  { output := lines (diagnostics.map Diagnostic.line ++ [[], findingCounts diagnostics])
    exitCode := if diagnostics.any Diagnostic.isError then 1 else 0 }

/-- Check class texts and print what is found. -/
def check (config : Config) (texts : List Text) : Outcome :=
  match Engine.build config with
  | .error error => .failed error
  | .ok engine =>
      match (Lint.validate engine texts [] {}).1 with
      | .error error => .failed error
      | .ok [] =>
          let count := Text.ofNat texts.length
          { output := lines ["OK: " ++ count ++ " token(s) checked (0 diagnostics)"] }
      | .ok diagnostics => findings diagnostics

/-- What a verdict comes to, in one word. -/
inductive Status where
  | deprecated
  | incompatible
  | warning
  | ok
  deriving DecidableEq

namespace Status

/-- The status of a verdict: deprecation counts more than incompatibility, and that more
than a warning. -/
def ofVerdict (verdict : Migration.Verdict) : Status :=
  if verdict.deprecated then .deprecated
  else if !verdict.compatible then .incompatible
  else if verdict.hasWarning then .warning
  else .ok

/-- The word for a status. -/
def label : Status → Text
  | .deprecated => "DEPRECATED"
  | .incompatible => "INCOMPATIBLE"
  | .warning => "WARNING"
  | .ok => "OK"

end Status

/-- The line for a verdict. -/
def verdictLine (verdict : Migration.Verdict) : Text :=
  Text.padRight 12 (Status.ofVerdict verdict).label ++ " " ++ verdict.given ++
    (match verdict.mapped.filter (· ≠ []) with
      | some mapped => " -> " ++ mapped
      | none => []) ++
    (match verdict.warning.filter (· ≠ []) with
      | some warning => "  (" ++ warning ++ ")"
      | none => [])

/-- Print verdicts, their sum and advice. -/
def migration (verdicts : List Migration.Verdict) : Text :=
  let advice := Migration.suggestions verdicts
  let summary : Text := "Summary: " ++ (Migration.Report.ofVerdicts verdicts).summary
  lines (verdicts.map verdictLine ++ [[], summary] ++
    (if advice = [] then [] else [] :: advice))

/-- Print how the class names in some texts carry over. -/
def migrate (texts : List Text) : Outcome :=
  let names := texts.flatMap Migration.extractClasses
  match (Migration.mapClasses Migration.defaultRules [] names {}).1 with
  | .error error => .failed error
  | .ok verdicts => { output := migration verdicts }

end CommandLine

end UtilityCss
