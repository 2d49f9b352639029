import UtilityCss.Catalog.Basic

/-!
# Effect and transform utilities

Opacity, shadows, transitions, cursors and interaction; then shifts, rotations, skews and
changes of size. Each transform sets a custom property and the one declaration that reads
them all, so that several of them work together and a change of sign concerns the custom
property only.
-/

namespace UtilityCss

namespace Catalog

/-! ## Effects -/

/-- Class names of transitions. -/
def transitions : Table Text Text :=
  [("transition",
      "color, background-color, border-color, text-decoration-color, fill, stroke, " ++
        "opacity, box-shadow, transform"),
    ("transition-all", "all"),
    ("transition-colors",
      "color, background-color, border-color, text-decoration-color, fill, stroke"),
    ("transition-opacity", "opacity"), ("transition-shadow", "box-shadow"),
    ("transition-transform", "transform")]

/-- A transition of some properties. -/
def transition (properties : Text) : Declarations :=
  [("transition-property", properties),
    ("transition-timing-function", "cubic-bezier(0.4, 0, 0.2, 1)"),
    ("transition-duration", "150ms")]

/-- Shapes of the cursor. -/
def cursors : List Text :=
  ["auto", "default", "pointer", "wait", "text", "move", "help", "not-allowed", "none", "grab",
    "grabbing"]

/-- An opacity: a bracketed value, or a percentage up to a hundred. -/
def opacityValue (key : Text) (_ : Theme) : Except Error (Option Text) := do
  if Payload.isBracketed key then return Css.bracketed? key
  else if Text.isDigits key then
    let amount ← Css.readNat key
    if amount ≤ 100 then return some (← hundredths amount) else return none
  else return none

/-- A shadow of the theme, or a bracketed one. -/
def shadow : Compute := fun found theme => do
  let key := ((← found.named "value").filter (· ≠ [])).getD "DEFAULT"
  return (theme.plain? "boxShadow" key).map (declare ["box-shadow"])

/-- A duration: an entry of the theme, a bracketed value, or a number of milliseconds. -/
def durationValue? (key : Text) (theme : Theme) : Option Text :=
  (theme.plain? "transitionDuration" key).orElse fun _ =>
    if Text.isDigits key then some (key ++ "ms") else none

/-- A delay: a number of milliseconds or a bracketed value. -/
def delayValue? (key : Text) : Option Text :=
  if Text.isDigits key then some (key ++ "ms") else Css.bracketed? key

/-- The plug-in of effects. -/
def effects : Plugin := rulesPlugin "effects"
  (transitions.map (fun (name, properties) => fixedRule name (transition properties)) ++
    fixedRule "transition-none" [("transition-property", "none")] ::
    cursors.map (fun cursor => fixedRule ("cursor-" ++ cursor) [("cursor", cursor)]) ++
    [fixedRule "pointer-events-none" [("pointer-events", "none")],
      fixedRule "pointer-events-auto" [("pointer-events", "auto")],
      fixedRule "select-none" [("user-select", "none")],
      fixedRule "select-text" [("user-select", "text")],
      fixedRule "select-all" [("user-select", "all")],
      fixedRule "select-auto" [("user-select", "auto")],
      computedRule "opacity" "opacity-(?P<value>.+)" (fromValue ["opacity"] opacityValue),
      computedRule "box-shadow" "shadow(?:-(?P<value>.+))?" shadow,
      computedRule "duration" "duration-(?P<value>.+)"
        (fromEntry ["transition-duration"] durationValue?),
      computedRule "ease" "ease-(?P<value>.+)"
        (fromEntry ["transition-timing-function"] fun key theme =>
          theme.plain? "transitionTimingFunction" key),
      computedRule "delay" "delay-(?P<value>.+)"
        (fromEntry ["transition-delay"] fun key _ => delayValue? key)])

/-! ## Transforms -/

/-- The transform that reads all custom properties. -/
def sharedTransform : Text :=
  "translate(var(--tw-translate-x, 0), var(--tw-translate-y, 0)) " ++
    "rotate(var(--tw-rotate, 0)) " ++
    "skewX(var(--tw-skew-x, 0)) skewY(var(--tw-skew-y, 0)) " ++
    "scaleX(var(--tw-scale-x, 1)) scaleY(var(--tw-scale-y, 1))"

/-- Origins of transforms. -/
def origins : Table Text Text :=
  [("center", "center"), ("top", "top"), ("top-right", "top right"), ("right", "right"),
    ("bottom-right", "bottom right"), ("bottom", "bottom"), ("bottom-left", "bottom left"),
    ("left", "left"), ("top-left", "top left")]

/-- Custom properties with the shared transform. -/
def transforming (properties : List Text) (value : Text) : Properties :=
  declare properties value ++ declare ["transform"] sharedTransform

/-- A custom property on the axis that the match names, or on both. -/
def onAxes (property : Text) (axis : Option Text) : List Text :=
  match axis.filter (· ≠ []) with
  | some axis => [property ++ axis]
  | none => [property ++ "x", property ++ "y"]

/-- A distance: the full size, a fraction or a length. -/
def distance (key : Text) (theme : Theme) : Except Error (Option Text) := do
  if key == "full" then return some "100%"
  else return (← Css.fraction key).orElse fun _ => theme.length? key

/-- A shift of the element. -/
def translate : Compute := fun found theme => do
  match ← distance (← found.text "value") theme with
  | none => return none
  | some value =>
      return some (transforming (onAxes "--tw-translate-" (← found.named "axis")) value)

/-- An angle: a bracketed value or a number of degrees. -/
def angle? (key : Text) : Option Text :=
  if Payload.isBracketed key then Css.bracketed? key
  else if Text.isDigits key then some (key ++ "deg")
  else none

/-- A rotation of the element. -/
def rotate : Compute := fun found _ => do
  return (angle? (← found.text "value")).map (transforming ["--tw-rotate"])

/-- A skew of the element. -/
def skew : Compute := fun found _ => do
  match angle? (← found.text "value") with
  | none => return none
  | some value => return some (transforming ["--tw-skew-" ++ (← found.text "axis")] value)

/-- A factor: a bracketed value or a percentage. -/
def factor (key : Text) : Except Error (Option Text) := do
  if Payload.isBracketed key then return Css.bracketed? key
  else if Text.isDigits key then return some (← hundredths (← Css.readNat key))
  else return none

/-- A change of the size of the element. -/
def resize : Compute := fun found _ => do
  match ← factor (← found.text "value") with
  | none => return none
  | some value => return some (transforming (onAxes "--tw-scale-" (← found.named "axis")) value)

/-- The plug-in of transforms. -/
def transforms : Plugin := rulesPlugin "transforms"
  ([computedRule "translate" "translate-(?:(?P<axis>[xy])-)?(?P<value>.+)" translate true,
      computedRule "rotate" "rotate-(?P<value>.+)" rotate true,
      computedRule "skew" "skew-(?P<axis>[xy])-(?P<value>.+)" skew true,
      computedRule "scale" "scale-(?:(?P<axis>[xy])-)?(?P<value>.+)" resize true,
      fixedRule "transform-none" [("transform", "none")]] ++
    origins.map fun (name, value) => fixedRule ("origin-" ++ name) [("transform-origin", value)])

end Catalog

end UtilityCss
