import UtilityCss.Catalog.Basic

/-!
# Typography utilities

Fonts, text and white space.
-/

namespace UtilityCss

namespace Catalog

/-- Class names of text alignment, style, decoration and case. -/
def textClasses : List (Text × Declarations) :=
  [("text-left", [("text-align", "left")]), ("text-center", [("text-align", "center")]),
    ("text-right", [("text-align", "right")]), ("text-justify", [("text-align", "justify")]),
    ("text-start", [("text-align", "start")]), ("text-end", [("text-align", "end")]),
    ("italic", [("font-style", "italic")]), ("not-italic", [("font-style", "normal")]),
    ("underline", [("text-decoration-line", "underline")]),
    ("overline", [("text-decoration-line", "overline")]),
    ("line-through", [("text-decoration-line", "line-through")]),
    ("no-underline", [("text-decoration-line", "none")]),
    ("uppercase", [("text-transform", "uppercase")]),
    ("lowercase", [("text-transform", "lowercase")]),
    ("capitalize", [("text-transform", "capitalize")]),
    ("normal-case", [("text-transform", "none")]),
    ("truncate",
      [("overflow", "hidden"), ("text-overflow", "ellipsis"), ("white-space", "nowrap")]),
    ("text-ellipsis", [("text-overflow", "ellipsis")]), ("text-clip", [("text-overflow", "clip")]),
    ("antialiased",
      [("-webkit-font-smoothing", "antialiased"), ("-moz-osx-font-smoothing", "grayscale")]),
    ("break-normal", [("overflow-wrap", "normal"), ("word-break", "normal")]),
    ("break-words", [("overflow-wrap", "break-word")]),
    ("break-all", [("word-break", "break-all")])]

/-- Treatments of white space. -/
def whiteSpaces : List Text :=
  ["normal", "nowrap", "pre", "pre-line", "pre-wrap", "break-spaces"]

/-- The declarations of a font size in the theme: a size, or a list of a size and a line
height. -/
def fontSizeEntry? : Value → Option Properties
  | .text size => some [("font-size", .text size)]
  | .list (size :: lineHeight :: _) => some [("font-size", size), ("line-height", lineHeight)]
  | .list [size] => some [("font-size", size)]
  | _ => none

/-- A font size: a bracketed length or an entry of the theme. -/
def fontSize : Compute := fun found theme => do
  let key ← found.text "value"
  if Payload.isBracketed key then
    let value := (Css.bracketed? key [some "length"]).orElse fun _ => Css.bracketed? key
    return (value.filter Css.looksLikeLength).map (declare ["font-size"])
  else return (theme.lookup? "fontSize" key).bind fontSizeEntry?

/-- A font weight or a font family. -/
def font : Compute := fun found theme => do
  let key ← found.text "value"
  if Payload.isBracketed key then
    return (Css.bracketed? key).map fun value =>
      declare [if Text.isDigits value then "font-weight" else "font-family"] value
  else
    match theme.text? "fontWeight" key with
    | some weight => return some (declare ["font-weight"] weight)
    | none => return (theme.text? "fontFamily" key).map (declare ["font-family"])

/-- The plug-in of typography. -/
def typography : Plugin := rulesPlugin "typography"
  (textClasses.map (fun (name, declarations) => fixedRule name declarations) ++
    whiteSpaces.map (fun value => fixedRule ("whitespace-" ++ value) [("white-space", value)]) ++
    [computedRule "font-size" "text-(?P<value>.+)" fontSize,
      computedRule "font" "font-(?P<value>.+)" font,
      computedRule "line-height" "leading-(?P<value>.+)"
        (fromEntry ["line-height"] fun key theme => theme.plain? "lineHeight" key),
      computedRule "letter-spacing" "tracking-(?P<value>.+)"
        (fromEntry ["letter-spacing"] fun key theme => theme.plain? "letterSpacing" key)])

end Catalog

end UtilityCss
