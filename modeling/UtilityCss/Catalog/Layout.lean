import UtilityCss.Catalog.Basic

/-!
# Layout utilities

Display, position, overflow, insets, order, flexbox and grid.
-/

namespace UtilityCss

namespace Catalog

/-- Class names of display types. -/
def displays : Table Text Text :=
  [("block", "block"), ("inline-block", "inline-block"), ("inline", "inline"), ("flex", "flex"),
    ("inline-flex", "inline-flex"), ("grid", "grid"), ("inline-grid", "inline-grid"),
    ("table", "table"), ("table-row", "table-row"), ("table-cell", "table-cell"),
    ("contents", "contents"), ("list-item", "list-item"), ("flow-root", "flow-root"),
    ("hidden", "none")]

/-- Class names of positions. -/
def positions : List Text := ["static", "fixed", "absolute", "relative", "sticky"]

/-- Alignments across an axis. -/
def itemAlignments : Table Text Text :=
  [("start", "flex-start"), ("end", "flex-end"), ("center", "center"), ("baseline", "baseline"),
    ("stretch", "stretch")]

/-- Distributions along an axis. -/
def distributions : Table Text Text :=
  [("normal", "normal"), ("start", "flex-start"), ("end", "flex-end"), ("center", "center"),
    ("between", "space-between"), ("around", "space-around"), ("evenly", "space-evenly"),
    ("stretch", "stretch")]

/-- Alignments of one item. -/
def selfAlignments : Table Text Text := ("auto", "auto") :: itemAlignments

/-- Class names of flexbox. -/
def flexClasses : List (Text × Text × Text) :=
  [("flex-row", "flex-direction", "row"), ("flex-row-reverse", "flex-direction", "row-reverse"),
    ("flex-col", "flex-direction", "column"),
    ("flex-col-reverse", "flex-direction", "column-reverse"), ("flex-wrap", "flex-wrap", "wrap"),
    ("flex-wrap-reverse", "flex-wrap", "wrap-reverse"), ("flex-nowrap", "flex-wrap", "nowrap"),
    ("flex-1", "flex", "1 1 0%"), ("flex-auto", "flex", "1 1 auto"),
    ("flex-initial", "flex", "0 1 auto"), ("flex-none", "flex", "none"),
    ("grow", "flex-grow", "1"), ("grow-0", "flex-grow", "0"), ("shrink", "flex-shrink", "1"),
    ("shrink-0", "flex-shrink", "0")]

/-- The properties of each inset. -/
def insetProperties : Table Text (List Text) :=
  [("inset", ["inset"]), ("inset-x", ["left", "right"]), ("inset-y", ["top", "bottom"]),
    ("top", ["top"]), ("right", ["right"]), ("bottom", ["bottom"]), ("left", ["left"]),
    ("start", ["inset-inline-start"]), ("end", ["inset-inline-end"])]

/-- The value of an inset: a keyword, a fraction or a length. -/
def insetValue (key : Text) (theme : Theme) : Except Error (Option Text) := do
  if key == "auto" then return some "auto"
  else if key == "full" then return some "100%"
  else return (← Css.fraction key).orElse fun _ => theme.length? key

/-- The insets of an element. -/
def inset : Compute := fun found theme => do
  match ← insetValue (← found.text "value") theme with
  | none => return none
  | some value =>
      let side ← found.text "side"
      return some (declare ((insetProperties.get? side).getD []) value)

/-- Named places in the order of items. -/
def namedOrders : Table Text Text := [("first", "-9999"), ("last", "9999"), ("none", "0")]

/-- A place in the order of items. -/
def orderValue? (key : Text) : Option Text :=
  (namedOrders.get? key).orElse fun _ =>
    if Text.isDigits key then some key else Css.bracketed? key

/-- Which axis overflows, and how. -/
def overflow : Compute := fun found _ => do
  let axis := (← found.named "axis").filter (· ≠ [])
  let value ← found.text "value"
  return some (declare ["overflow" ++ (axis.map ('-' :: ·)).getD []] value)

/-- Gaps between items, on one axis or both. -/
def gap : Compute := fun found theme => do
  match theme.length? (← found.text "value") with
  | none => return none
  | some value =>
      let axis ← found.named "axis"
      let property : Text :=
        if axis == some "x" then "column-gap" else if axis == some "y" then "row-gap" else "gap"
      return some (declare [property] value)

/-- Whether a key is a numeral above zero. -/
def isPositive (key : Text) : Except Error Bool :=
  if Text.isDigits key then return 0 < (← Css.readNat key) else return false

/-- Columns or rows of a grid: a number of equal ones, none, or a bracketed list. -/
def gridTemplate : Compute := fun found _ => do
  let property : Text :=
    if (← found.named "kind") == some "cols" then "grid-template-columns"
    else "grid-template-rows"
  let key ← found.text "value"
  let positive ← isPositive key
  let value : Option Text :=
    if positive then some ("repeat(" ++ key ++ ", minmax(0, 1fr))")
    else if key == "none" then some "none"
    else Css.bracketed? key
  return value.map (declare [property])

/-- How many columns or rows of a grid an item takes. -/
def gridSpan : Compute := fun found _ => do
  let property : Text :=
    if (← found.named "kind") == some "col" then "grid-column" else "grid-row"
  let key ← found.text "value"
  let positive ← isPositive key
  let value : Option Text :=
    if key == "full" then some "1 / -1"
    else if positive then some ("span " ++ key ++ " / span " ++ key)
    else none
  return value.map (declare [property])

/-- Rules for single class names of display and position. -/
def displayRules : List Rule :=
  { fixedRule "container"
      [("width", "100%"), ("margin-left", "auto"), ("margin-right", "auto")] with
    layer := .components } ::
  fixedRule "@container" [("container-type", "inline-size")] ::
  displays.map (fun (name, value) => fixedRule name [("display", value)]) ++
  positions.map (fun name => fixedRule name [("position", name)]) ++
  [fixedRule "visible" [("visibility", "visible")],
    fixedRule "invisible" [("visibility", "hidden")],
    fixedRule "collapse" [("visibility", "collapse")],
    fixedRule "isolate" [("isolation", "isolate")],
    fixedRule "box-border" [("box-sizing", "border-box")],
    fixedRule "box-content" [("box-sizing", "content-box")],
    fixedRule "sr-only"
      [("position", "absolute"), ("width", "1px"), ("height", "1px"), ("padding", "0"),
        ("margin", "-1px"), ("overflow", "hidden"), ("clip", "rect(0, 0, 0, 0)"),
        ("white-space", "nowrap"), ("border-width", "0")]]

/-- Rules for overflow and for the place of an element. -/
def placementRules : List Rule :=
  [computedRule "overflow"
      "overflow(?:-(?P<axis>[xy]))?-(?P<value>auto|hidden|clip|visible|scroll)" overflow,
    computedRule "inset"
      "(?P<side>inset-x|inset-y|inset|top|right|bottom|left|start|end)-(?P<value>.+)" inset true,
    computedRule "z-index" "z-(?P<value>.+)"
      (fromEntry ["z-index"] fun key theme => theme.plain? "zIndex" key) true,
    computedRule "order" "order-(?P<value>.+)"
      (fromEntry ["order"] fun key _ => orderValue? key) true]

/-- Rules for flexbox and grid. -/
def flexRules : List Rule :=
  flexClasses.map (fun (name, property, value) => fixedRule name [(property, value)]) ++
  [computedRule "align-items" "items-(?P<value>[a-z]+)"
      (fromEntry ["align-items"] fun key _ => itemAlignments.get? key),
    computedRule "justify-content" "justify-(?P<value>[a-z]+)"
      (fromEntry ["justify-content"] fun key _ => distributions.get? key),
    computedRule "align-content" "content-(?P<value>[a-z]+)"
      (fromEntry ["align-content"] fun key _ => distributions.get? key),
    computedRule "align-self" "self-(?P<value>[a-z]+)"
      (fromEntry ["align-self"] fun key _ => selfAlignments.get? key),
    computedRule "gap" "gap(?:-(?P<axis>[xy]))?-(?P<value>.+)" gap,
    computedRule "grid-template" "grid-(?P<kind>cols|rows)-(?P<value>.+)" gridTemplate,
    computedRule "grid-span" "(?P<kind>col|row)-span-(?P<value>.+)" gridSpan]

/-- The plug-in of layout. -/
def layout : Plugin := rulesPlugin "layout" (displayRules ++ placementRules ++ flexRules)

end Catalog

end UtilityCss
