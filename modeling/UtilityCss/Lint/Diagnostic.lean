import UtilityCss.Text.Basic

/-!
# Diagnostics

Findings about class lists: what was checked, how serious the finding is, and the
token it concerns.
-/

namespace UtilityCss

/-- How serious a finding is. -/
inductive Severity where
  | error
  | warning
  | info
  deriving DecidableEq

/-- The name of a severity in reports. -/
def Severity.label : Severity → Text
  | .error => "ERROR"
  | .warning => "WARNING"
  | .info => "INFO"

/-- A finding about a token, or about a list as a whole. -/
structure Diagnostic where
  /-- The check that found it. -/
  rule : Text
  severity : Severity
  message : Text
  /-- A short name for the kind of finding. -/
  code : Text := []
  token : Option Text := none
  /-- What to do about it, if there is advice. -/
  fix : Option Text := none
  deriving DecidableEq

namespace Diagnostic

def isError (diagnostic : Diagnostic) : Bool := diagnostic.severity == .error

def isWarning (diagnostic : Diagnostic) : Bool := diagnostic.severity == .warning

/-- One line of a report: severity, token if there is a non-empty one, message. -/
def line (diagnostic : Diagnostic) : Text :=
  let location : Text :=
    match diagnostic.token with
    | none | some [] => []
    | some token => " [token=" ++ token ++ "]"
  diagnostic.severity.label ++ location ++ ": " ++ diagnostic.message

end Diagnostic

end UtilityCss
