import UtilityCss.Catalog.Basic

/-!
# Box utilities

The space inside, around and between boxes, and their widths and heights: keywords, shares
of the viewport, fractions, and lengths.
-/

namespace UtilityCss

namespace Catalog

/-! ## Spacing -/

/-- The sides of a box that a letter stands for, as suffixes of a property. -/
def boxSides : Table Text (List Text) :=
  [("", [""]), ("x", ["-left", "-right"]), ("y", ["-top", "-bottom"]), ("t", ["-top"]),
    ("r", ["-right"]), ("b", ["-bottom"]), ("l", ["-left"]), ("s", ["-inline-start"]),
    ("e", ["-inline-end"])]

/-- A property of the sides of a box. -/
def boxProperty (property : Text) (allowAuto : Bool) : Compute := fun found theme => do
  let key ← found.text "value"
  let value : Option Text :=
    if allowAuto && key == "auto" then some "auto" else theme.length? key
  match value with
  | none => return none
  | some value =>
      let side ← found.text "side"
      return some (declare (((boxSides.get? side).getD []).map (property ++ ·)) value)

/-- The space between children on one axis. -/
def spaceBetween : Compute := fun found theme => do
  match theme.length? (← found.text "value") with
  | none => return none
  | some value =>
      let property : Text :=
        if (← found.named "axis") == some "x" then "margin-left" else "margin-top"
      return some (declare [property] value)

/-- All children but the first, as a template for a selector. -/
def betweenChildren : Text := "& > :not([hidden]) ~ :not([hidden])"

/-- The plug-in of spacing. -/
def spacing : Plugin := rulesPlugin "spacing"
  [computedRule "padding" "p(?P<side>[xytrblse]?)-(?P<value>.+)" (boxProperty "padding" false),
    computedRule "margin" "m(?P<side>[xytrblse]?)-(?P<value>.+)" (boxProperty "margin" true) true,
    { computedRule "space-between" "space-(?P<axis>[xy])-(?P<value>.+)" spaceBetween true with
      selector := some betweenChildren }]

/-! ## Sizing -/

/-- The properties of each size. -/
def sizeProperties : Table Text (List Text) :=
  [("w", ["width"]), ("h", ["height"]), ("size", ["width", "height"]), ("min-w", ["min-width"]),
    ("min-h", ["min-height"]), ("max-w", ["max-width"]), ("max-h", ["max-height"])]

/-- Sizes that have a name. -/
def sizeKeywords : Table Text Text :=
  [("auto", "auto"), ("full", "100%"), ("min", "min-content"), ("max", "max-content"),
    ("fit", "fit-content")]

/-- The sizes of the viewport, each for its own axis. -/
def viewport? (kind key : Text) : Option Text :=
  let horizontal := (["w", "min-w", "max-w"] : List Text).contains kind
  if key == "screen" then some (if horizontal then "100vw" else "100vh")
  else
    let units : List Text :=
      if horizontal then ["svw", "lvw", "dvw"] else ["svh", "lvh", "dvh"]
    if units.contains key then some ("100" ++ key) else none

/-- The value of a size. -/
def sizeValue (kind key : Text) (theme : Theme) : Except Error (Option Text) := do
  if let some value := sizeKeywords.get? key then return some value
  if let some value := viewport? kind key then return some value
  if let some value ← Css.fraction key then return some value
  if kind == "max-w" then
    if let some value := theme.text? "maxWidth" key then return some value
  return theme.length? key

/-- A width, a height or both. -/
def size : Compute := fun found theme => do
  let kind ← found.text "kind"
  let key ← found.text "value"
  return (← sizeValue kind key theme).map (declare ((sizeProperties.get? kind).getD []))

/-- The plug-in of sizing. -/
def sizing : Plugin := rulesPlugin "sizing"
  [computedRule "size" "(?P<kind>min-w|min-h|max-w|max-h|size|w|h)-(?P<value>.+)" size]

end Catalog

end UtilityCss
