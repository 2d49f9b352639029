import UtilityCss.Text.Basic

/-!
# Verdicts on foreign class names

A verdict says what a class name of another dialect becomes, and whether it works as it
stands. A report adds the verdicts of a list up.
-/

namespace UtilityCss

namespace Migration

/-- What is to be said of one class name. -/
structure Verdict where
  given : Text
  /-- The name to use instead, if it differs. -/
  mapped : Option Text := none
  /-- Whether the name works as it stands. -/
  compatible : Bool := true
  deprecated : Bool := false
  /-- The name to use instead of a deprecated one. -/
  replacement : Option Text := none
  warning : Option Text := none
  deriving DecidableEq

namespace Verdict

/-- Whether there is a warning that says something. -/
def hasWarning (verdict : Verdict) : Bool := verdict.warning.any (· ≠ [])

/-- Whether nothing needs to be done. -/
def isClean (verdict : Verdict) : Bool :=
  verdict.compatible && !verdict.deprecated && !verdict.hasWarning

/-- Whether a warning is all there is to say. -/
def isWarned (verdict : Verdict) : Bool :=
  verdict.hasWarning && verdict.compatible && !verdict.deprecated

end Verdict

/-- The verdicts of a list, added up. -/
structure Report where
  total : Nat
  /-- How many names need no attention. -/
  compatible : Nat
  incompatible : List Verdict := []
  deprecated : List Verdict := []
  warnings : List Verdict := []
  /-- The share of names that need no attention, in percent. -/
  rate : Nat := 100

/-- A share in percent, with halves rounded up; nothing of nothing is all of it. -/
def percent (part total : Nat) : Nat :=
  if total = 0 then 100 else (part * 200 + total) / (total * 2)

namespace Report

/-- Add verdicts up. -/
def ofVerdicts (verdicts : List Verdict) : Report :=
  let compatible := verdicts.countP Verdict.isClean
  { total := verdicts.length
    compatible
    incompatible := verdicts.filter (!·.compatible)
    deprecated := verdicts.filter (·.deprecated)
    warnings := verdicts.filter Verdict.isWarned
    rate := percent compatible verdicts.length }

/-- A report in one line. -/
def summary (report : Report) : Text :=
  Text.ofNat report.compatible ++ "/" ++ Text.ofNat report.total ++ " compatible (" ++
    Text.ofNat report.rate ++ "%), " ++ Text.ofNat report.deprecated.length ++ " deprecated, " ++
    Text.ofNat report.incompatible.length ++ " incompatible, " ++
    Text.ofNat report.warnings.length ++ " with warnings"

end Report

/-- How many deprecated names are listed before the rest is only counted. -/
def deprecatedShown : Nat := 5

/-- How many different warnings are listed. -/
def warningsShown : Nat := 3

/-- Advice on deprecated names. -/
def deprecatedAdvice (verdicts : List Verdict) : List Text :=
  let deprecated := verdicts.filter (·.deprecated)
  if deprecated = [] then []
  else
    ("Found " ++ Text.ofNat deprecated.length ++ " deprecated classes that should be updated:") ::
    (deprecated.take deprecatedShown).map (fun verdict =>
      "  - " ++ verdict.given ++ " -> " ++
        (verdict.replacement.filter (· ≠ [])).getD "see warning") ++
    (if deprecatedShown < deprecated.length then
      ["  ... and " ++ Text.ofNat (deprecated.length - deprecatedShown) ++ " more"]
    else [])

/-- Advice from warnings, each given once. -/
def warningAdvice (verdicts : List Verdict) : List Text :=
  let warned := verdicts.filter Verdict.hasWarning
  if warned = [] then []
  else
    let distinct := (warned.filterMap (·.warning)).eraseDups
    ("\nFound " ++ Text.ofNat warned.length ++ " classes with suggestions:") ::
    (distinct.take warningsShown).map ("  - " ++ ·)

/-- Advice to group names that have one variant. -/
def groupAdvice (verdicts : List Verdict) : List Text :=
  if 2 < verdicts.countP fun verdict => Text.startsWith verdict.given "hover:" then
    ["\nTip: Use variant groups for cleaner hover states:",
      "  hover:(bg-blue-500 text-white scale-105)"]
  else []

/-- What to do about verdicts, line by line. -/
def suggestions (verdicts : List Verdict) : List Text :=
  deprecatedAdvice verdicts ++ warningAdvice verdicts ++ groupAdvice verdicts

end Migration

end UtilityCss
