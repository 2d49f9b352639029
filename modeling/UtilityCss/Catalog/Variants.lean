import UtilityCss.Registry.Plugin
import UtilityCss.Sorting

/-!
# The variants of the catalogue

States, pseudo-elements, media features, writing direction and dark mode are static.
Screens, containers, group and peer states, attributes and feature queries are computed
from the name. Screens and containers are those of the theme at installation.
-/

namespace UtilityCss

namespace Catalog

/-- States by name, as suffixes of a selector. -/
def pseudoClasses : Table Text Text :=
  [("hover", ":hover"), ("focus", ":focus"), ("focus-within", ":focus-within"),
    ("focus-visible", ":focus-visible"), ("active", ":active"), ("visited", ":visited"),
    ("target", ":target"), ("first", ":first-child"), ("last", ":last-child"),
    ("only", ":only-child"), ("odd", ":nth-child(odd)"), ("even", ":nth-child(even)"),
    ("first-of-type", ":first-of-type"), ("last-of-type", ":last-of-type"),
    ("only-of-type", ":only-of-type"), ("empty", ":empty"), ("disabled", ":disabled"),
    ("enabled", ":enabled"), ("checked", ":checked"), ("indeterminate", ":indeterminate"),
    ("default", ":default"), ("required", ":required"), ("optional", ":optional"),
    ("valid", ":valid"), ("invalid", ":invalid"), ("in-range", ":in-range"),
    ("out-of-range", ":out-of-range"), ("placeholder-shown", ":placeholder-shown"),
    ("autofill", ":autofill"), ("read-only", ":read-only"), ("open", "[open]")]

/-- Pseudo-elements by name. -/
def pseudoElements : Table Text Text :=
  [("before", "::before"), ("after", "::after"), ("placeholder", "::placeholder"),
    ("file", "::file-selector-button"), ("marker", "::marker"), ("selection", "::selection"),
    ("first-line", "::first-line"), ("first-letter", "::first-letter"),
    ("backdrop", "::backdrop")]

/-- Media features by name. -/
def mediaFeatures : Table Text Text :=
  [("print", "@media print"),
    ("motion-safe", "@media (prefers-reduced-motion: no-preference)"),
    ("motion-reduce", "@media (prefers-reduced-motion: reduce)"),
    ("portrait", "@media (orientation: portrait)"),
    ("landscape", "@media (orientation: landscape)"),
    ("contrast-more", "@media (prefers-contrast: more)"),
    ("contrast-less", "@media (prefers-contrast: less)")]

/-- States of accessibility that are true or false. -/
def ariaStates : List Text :=
  ["busy", "checked", "disabled", "expanded", "hidden", "pressed", "readonly", "required",
    "selected"]

/-- The variant of dark mode: below an ancestor, which may be given, or by the preference of
the reader. -/
def darkVariant (mode : Text := "class") (selector : Option Text := none) :
    Except Error Variant :=
  let chosen (default : Text) : Text := (selector.filter (· ≠ [])).getD default
  if mode == "class" then .ok ⟨"dark", .parent, chosen ".dark"⟩
  else if mode == "selector" then .ok ⟨"dark", .parent, chosen "[data-theme=\"dark\"]"⟩
  else if mode == "media" then .ok ⟨"dark", .atRule, "@media (prefers-color-scheme: dark)"⟩
  else .error (.unknownDarkMode mode)

/-- The text between brackets in its normal form; none if it is blank. -/
def condition? (inner : Text) : Option Text :=
  let condition := Text.trim (Payload.normalize inner)
  if condition = [] then none else some condition

/-- A feature query in parentheses. -/
def featureQuery (condition : Text) : Text :=
  let condition := Text.trim condition
  if Text.startsWith condition "(" then condition
  else match Text.cutFirst? ':' condition with
    | some (property, value) => "(" ++ Text.trim property ++ ": " ++ Text.trim value ++ ")"
    | none => "(" ++ condition ++ ")"

/-- A width in pixels. One newline may follow. -/
def pixels? (width : Text) : Option Binary64 := do
  let numeral ← Text.beforeTail? "px" ((Text.beforeTail? ['\n'] width).getD width)
  let (whole, places) ← match Text.cutFirst? '.' numeral with
    | none => some (numeral, [])
    | some (_, []) => none
    | some parts => some parts
  if whole = [] then none
  else
    let digits ← Text.digitValues? (whole ++ places)
    some (.ofDecimal (Text.ofDigitValues digits) places.length)

/-- Screens by width, the narrowest first. A width that is not in pixels counts as zero. -/
def orderScreens (screens : Theme) : List (Text × Text) :=
  let screens := screens.filterMap fun (name, width) => width.text?.map (name, ·)
  let breadth (screen : Text × Text) : Binary64 := (pixels? screen.2).getD .zero
  stableSort (fun a b => !(breadth b).lt (breadth a)) screens

/-- The query for a screen up to the next one. -/
def onlyScreen (width : Text) (next : Option (Text × Text)) : Text :=
  let query := "@media (min-width: " ++ width ++ ")"
  match next.bind fun screen => pixels? screen.2 with
  | some upper =>
      query ++ " and (max-width: " ++ Css.number (upper.sub (.ofDecimal 2 2)) ++ "px)"
  | none => query

/-- The screens of a theme: from a width, below it, or up to the next screen. -/
def screenVariant (screens : List (Text × Text)) : ComputedVariant where
  name := "screens"
  pattern := .written "(?P<max>max-)?(?P<screen>[a-z0-9]+)(?P<only>-only)?"
  resolve found := do
    let name ← found.text "screen"
    match screens.dropWhile (·.1 ≠ name) with
    | [] => return none
    | (_, width) :: wider =>
        let query ←
          if (← found.named "max").any (· ≠ []) then
            pure ("@media not all and (min-width: " ++ width ++ ")")
          else if (← found.named "only").any (· ≠ []) then pure (onlyScreen width wider.head?)
          else pure ("@media (min-width: " ++ width ++ ")")
        return some ⟨found.whole, .atRule, query⟩

/-- The state of a group around an element, or of a peer before it. -/
def groupVariant : ComputedVariant where
  name := "group-peer"
  pattern := .written "(?P<kind>group|peer)-(?:(?P<state>[a-z-]+)|\\[(?P<arbitrary>.+)\\])"
  resolve found := do
    let kind ← found.text "kind"
    let state ← found.named "state"
    let condition := match ← found.named "arbitrary" with
      | some inner => condition? inner
      | none => state.bind pseudoClasses.get?
    return condition.map fun condition =>
      if kind == "group" then ⟨found.whole, .parent, ".group" ++ condition⟩
      else ⟨found.whole, .selector, ".peer" ++ condition ++ " ~ &"⟩

/-- A data attribute. -/
def dataVariant : ComputedVariant where
  name := "data"
  pattern := .written "data-\\[(?P<value>.+)\\]"
  resolve found := do
    let inner ← found.text "value"
    return (condition? inner).map fun condition =>
      ⟨found.whole, .pseudo, "[data-" ++ condition ++ "]"⟩

/-- An attribute of accessibility. -/
def ariaVariant : ComputedVariant where
  name := "aria"
  pattern := .written "aria-(?:(?P<state>[a-z-]+)|\\[(?P<arbitrary>.+)\\])"
  resolve found := do
    let state ← found.named "state"
    let condition := match ← found.named "arbitrary" with
      | some inner => condition? inner
      | none => (state.filter ariaStates.contains).map (· ++ "=\"true\"")
    return condition.map fun condition => ⟨found.whole, .pseudo, "[aria-" ++ condition ++ "]"⟩

/-- A feature query. -/
def supportsVariant : ComputedVariant where
  name := "supports"
  pattern := .written "supports-\\[(?P<value>.+)\\]"
  resolve found := do
    let inner ← found.text "value"
    return (condition? inner).map fun condition =>
      ⟨found.whole, .atRule, "@supports " ++ featureQuery condition⟩

/-- A least or greatest width. -/
def widthVariant : ComputedVariant where
  name := "min-max"
  pattern := .written "(?P<kind>min|max)-\\[(?P<value>.+)\\]"
  resolve found := do
    match condition? (← found.text "value") with
    | none => return none
    | some width =>
        let feature : Text := if (← found.text "kind") == "min" then "min-width" else "max-width"
        return some ⟨found.whole, .atRule, "@media (" ++ feature ++ ": " ++ width ++ ")"⟩

/-- The width of a container: in brackets, or an entry of the theme. -/
def containerWidth (containers : Value) (size : Text) : Except Error (Option Text) :=
  if Text.startsWith size "[" then .ok (condition? (size.drop 1).dropLast)
  else match containers with
    | .table entries => .ok (((entries.lookup size).filter Value.isPresent).map Value.plainText)
    | other => .error (.notATable other.kindName "get")

/-- The least width of the container around an element. -/
def containerVariant (containers : Value) : ComputedVariant where
  name := "container"
  pattern := .written "@(?P<size>[0-9]*x?[a-z]+|\\[.+\\])"
  resolve found := do
    let width ← containerWidth containers (← found.text "size")
    return width.map fun width =>
      ⟨found.whole, .atRule, "@container (min-width: " ++ width ++ ")"⟩

/-- The variants that have a name of their own. -/
def staticVariants (dark : Variant) : List Variant :=
  pseudoClasses.map (fun (name, suffix) => ⟨name, .pseudo, suffix⟩) ++
    pseudoElements.map (fun (name, suffix) => ⟨name, .pseudo, suffix⟩) ++
    mediaFeatures.map (fun (name, query) => ⟨name, .atRule, query⟩) ++
    [⟨"rtl", .selector, "[dir=\"rtl\"] &"⟩, ⟨"ltr", .selector, "[dir=\"ltr\"] &"⟩, dark]

/-- The screens of a theme as a variant. -/
def themeScreens (theme : Theme) : Except Error (List AnyVariant) :=
  match (theme.get? "screens").getD (.table []) with
  | .table screens => .ok [.computed (screenVariant (orderScreens screens))]
  | other => .error (.notATable other.kindName "items")

/-- The containers of a theme as a variant. -/
def themeContainers (theme : Theme) : Except Error (List AnyVariant) :=
  .ok [.computed (containerVariant ((theme.get? "containers").getD (.table [])))]

/-- The plug-in of all variants. -/
def variantsPlugin (dark : Variant) : Plugin where
  name := "variants"
  steps :=
    [.addVariants ((staticVariants dark).map (.proper ∘ .static)),
      .addThemed themeScreens,
      .addVariants ([groupVariant, dataVariant, ariaVariant, supportsVariant, widthVariant].map
        (.proper ∘ .computed)),
      .addThemed themeContainers]

end Catalog

end UtilityCss
