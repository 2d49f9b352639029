import UtilityCss.Catalog.Box
import UtilityCss.Sorting

/-!
# Surface utilities

Colours of backgrounds, text, borders and the like; widths, styles and corners of borders;
dividing lines between children, rings and outlines. Colours are plain here: an opacity is
worked in later.
-/

namespace UtilityCss

namespace Catalog

/-! ## Colours -/

/-- The properties of each colour. -/
def colorProperties : Table Text (List Text) :=
  [("bg", ["background-color"]), ("text", ["color"]), ("border", ["border-color"]),
    ("border-x", ["border-left-color", "border-right-color"]),
    ("border-y", ["border-top-color", "border-bottom-color"]),
    ("border-t", ["border-top-color"]), ("border-r", ["border-right-color"]),
    ("border-b", ["border-bottom-color"]), ("border-l", ["border-left-color"]),
    ("outline", ["outline-color"]), ("decoration", ["text-decoration-color"]),
    ("accent", ["accent-color"]), ("caret", ["caret-color"]), ("fill", ["fill"]),
    ("stroke", ["stroke"]), ("ring", ["--tw-ring-color"])]

/-- The kinds of colour, the longest names first, so that none hides a longer one. -/
def colorKinds : List Text :=
  stableSort (fun a b => b.length ≤ a.length) colorProperties.keys

/-- A colour of the element itself. -/
def color : Compute := fun found theme => do
  match theme.color? (← found.text "value") with
  | none => return none
  | some value =>
      let kind ← found.text "kind"
      return some (declare ((colorProperties.get? kind).getD []) value)

/-- A colour of a nested block. -/
def nestedColor (template property : Text) : Compute := fun found theme => do
  let key ← found.text "value"
  return (theme.color? key).map fun value => [(template, .texts [(property, value)])]

/-- The plug-in of colours. -/
def colors : Plugin := rulesPlugin "colors"
  [computedRule "color" ("(?P<kind>" ++ Text.join "|" colorKinds ++ ")-(?P<value>.+)") color,
    computedRule "placeholder-color" "placeholder-(?P<value>.+)"
      (nestedColor "&::placeholder" "color"),
    computedRule "divide-color" "divide-(?P<value>.+)"
      (nestedColor betweenChildren "border-color")]

/-! ## Borders -/

/-- The widths of the sides that a letter stands for. -/
def borderWidths : Table Text (List Text) :=
  [("", ["border-width"]), ("x", ["border-left-width", "border-right-width"]),
    ("y", ["border-top-width", "border-bottom-width"]), ("t", ["border-top-width"]),
    ("r", ["border-right-width"]), ("b", ["border-bottom-width"]), ("l", ["border-left-width"])]

/-- The radii of the corners that one or two letters stand for. -/
def cornerRadii : Table Text (List Text) :=
  [("", ["border-radius"]), ("t", ["border-top-left-radius", "border-top-right-radius"]),
    ("r", ["border-top-right-radius", "border-bottom-right-radius"]),
    ("b", ["border-bottom-right-radius", "border-bottom-left-radius"]),
    ("l", ["border-top-left-radius", "border-bottom-left-radius"]),
    ("tl", ["border-top-left-radius"]), ("tr", ["border-top-right-radius"]),
    ("br", ["border-bottom-right-radius"]), ("bl", ["border-bottom-left-radius"])]

/-- The styles of a border. -/
def borderStyles : List Text := ["solid", "dashed", "dotted", "double", "hidden", "none"]

/-- An entry of a scale: the default one without a key, else a bracketed length or the entry
of the key. -/
def scaled? (theme : Theme) (scale : Text) : Option Text → Option Text
  | none => theme.text? scale "DEFAULT"
  | some key => if Payload.isBracketed key then theme.length? key else theme.text? scale key

/-- A scaled value for the properties that a group of the pattern chooses. -/
def scaledSides (scale group : Text) (properties : Table Text (List Text)) : Compute :=
  fun found theme => do
    match scaled? theme scale (← found.named "value") with
    | none => return none
    | some value =>
        let side := (← found.named group).getD []
        return some (declare ((properties.get? side).getD []) value)

/-- Dividing lines between children that lie across an axis. -/
def dividing (horizontal : Bool) (width : Text) : Properties :=
  let (far, near) : Text × Text :=
    if horizontal then ("border-right-width", "border-left-width")
    else ("border-bottom-width", "border-top-width")
  [(betweenChildren, .texts [(far, "0px"), (near, width)])]

/-- The width of dividing lines. -/
def divideWidth : Compute := fun found theme => do
  match scaled? theme "borderWidth" (← found.named "value") with
  | none => return none
  | some width => return some (dividing ((← found.named "axis") == some "x") width)

/-- The width of a ring. -/
def ringWidth? (theme : Theme) : Option Text → Option Text
  | none => some "3px"
  | some key =>
      if Payload.isBracketed key then theme.length? key
      else if Text.isDigits key then some (key ++ "px")
      else none

/-- A ring around the element. -/
def ring : Compute := fun found theme => do
  return (ringWidth? theme (← found.named "value")).map fun width =>
    declare ["box-shadow"] ("0 0 0 " ++ width ++ " var(--tw-ring-color, rgb(59 130 246 / 0.5))")

/-- The plug-in of borders. -/
def borders : Plugin := rulesPlugin "borders"
  ([computedRule "border-width" "border(?:-(?P<side>[xytrbl]))?(?:-(?P<value>\\d+|\\[.+\\]))?"
        (scaledSides "borderWidth" "side" borderWidths),
      computedRule "border-radius"
        "rounded(?:-(?P<corner>tl|tr|br|bl|[trbl]))?(?:-(?P<value>[a-z0-9]+|\\[.+\\]))?"
        (scaledSides "borderRadius" "corner" cornerRadii)] ++
    borderStyles.map (fun style => fixedRule ("border-" ++ style) [("border-style", style)]) ++
    [{ pattern := .literal "divide-x", body := .nested (dividing true "1px") },
      { pattern := .literal "divide-y", body := .nested (dividing false "1px") },
      computedRule "divide-width" "divide-(?P<axis>[xy])-(?P<value>\\d+|\\[.+\\])" divideWidth,
      computedRule "ring-width" "ring(?:-(?P<value>\\d+|\\[.+\\]))?" ring,
      fixedRule "outline-none" [("outline", "2px solid transparent"), ("outline-offset", "2px")],
      fixedRule "outline" [("outline-style", "solid")]])

end Catalog

end UtilityCss
