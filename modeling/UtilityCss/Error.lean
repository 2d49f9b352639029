import UtilityCss.Lint.Diagnostic
import UtilityCss.Text.Quoted

/-!
# Errors

Everything that can go wrong, by cause. The wording of each cause is in
`Error.message`. Causes that concern numbers, patterns and theme sections arise
while a rule or variant computes; the others belong to one operation each.
-/

namespace UtilityCss

/-- The ways to choose the dark variant, by name. -/
def darkModes : List Text := ["class", "selector", "media"]

/-- What went wrong. -/
inductive Error where
  /-- A single token is a variant group; the position is where the group begins. -/
  | variantGroup (token : Text) (position : Nat)
  /-- A registry that takes no more entries was asked to take one. -/
  | frozen
  | duplicateRule (name : Text)
  | duplicateDynamicVariant (name : Text)
  /-- Something that is no rule was offered as one; its kind is given. -/
  | unsupportedRule (kind : Text)
  | unsupportedVariant (kind : Text)
  | unknownDarkMode (mode : Text)
  /-- A plug-in stopped with an error of its own. -/
  | install (plugin : Text) (cause : Error)
  /-- A class list has findings of severity error. -/
  | rejected (diagnostics : List Diagnostic)
  /-- The settings name no dark mode. -/
  | invalidDarkMode (mode : Text)
  /-- A numeral has a digit sign without value, or too many digits. -/
  | unreadableNumber
  /-- A quotient is beyond the range of numbers. -/
  | quotientTooLarge
  /-- A theme section is a value of another kind than a table. -/
  | notATable (kind : Text) (operation : Text)
  | invalidPattern
  /-- A pattern has no group of a name that its user relies on. -/
  | unknownGroup
  /-- A group that its user relies on took no part in the match. -/
  | absentGroup
  /-- A failure stated by a plug-in or rule. -/
  | failure (message : Text)

namespace Error

/-- The registry's refusals. -/
def isRegistryRefusal : Error → Bool
  | .duplicateRule _ | .duplicateDynamicVariant _ | .unsupportedRule _ | .unsupportedVariant _
  | .unknownDarkMode _ => true
  | _ => false

/-- The wording of an error. -/
def message : Error → Text
  | .variantGroup token _ =>
      "Variant group in " ++ Text.quote token ++ "; expand it with parse_all()"
  | .frozen => "Registry is frozen; build a new engine to change plugins"
  | .duplicateRule name => "Duplicate rule name: " ++ Text.quote name
  | .duplicateDynamicVariant name => "Duplicate dynamic variant name: " ++ Text.quote name
  | .unsupportedRule kind => "Unsupported rule type: " ++ kind
  | .unsupportedVariant kind => "Unsupported variant type: " ++ kind
  | .unknownDarkMode mode =>
      "Unknown dark mode " ++ Text.quote mode ++ "; expected one of " ++
        Text.join ", " darkModes
  | .install plugin cause =>
      "Plugin " ++ Text.quote plugin ++ " failed to install: " ++ cause.message
  | .rejected diagnostics =>
      let errors := diagnostics.filter Diagnostic.isError
      Text.ofNat errors.length ++ " error(s) in class list: " ++
        Text.join "; " (errors.map Diagnostic.line)
  | .invalidDarkMode mode =>
      "dark_mode must be one of " ++ Text.join ", " darkModes ++ ", got " ++ Text.quote mode
  | .unreadableNumber => "unreadable number"
  | .quotientTooLarge => "integer division result too large for a float"
  | .notATable kind operation =>
      "'" ++ kind ++ "' object has no attribute '" ++ operation ++ "'"
  | .invalidPattern => "invalid pattern"
  | .unknownGroup => "no such group"
  | .absentGroup => "absent group"
  | .failure message => message

end Error

end UtilityCss
