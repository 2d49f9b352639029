import UtilityCss.Number.Significant
import UtilityCss.Text.Case
import UtilityCss.Text.Digit
import UtilityCss.Token.Basic

/-!
# Changing CSS values

Three changes of single values: a sign change for numbers and dimensions, an alpha
channel for colours, and a mark of importance. Values that a change is not meant
for pass through it.
-/

namespace UtilityCss

namespace Css

/-- A numeral in a value: six significant digits. -/
def number (x : Binary64) : Text := Number.significant 6 x

/-- A number with an optional unit of letters and percent signs, unsigned: the digits,
the places after the point, and the unit. -/
def dimension? (t : Text) : Option (Nat × Nat × Text) := do
  let (whole, rest) := t.span Text.isDecimal
  let (places, unit) := match rest with
    | '.' :: after => after.span Text.isDecimal
    | _ => ([], rest)
  let (places, unit) := if places = [] then ([], rest) else (places, unit)
  if whole ++ places = [] then none
  else if !unit.all fun c => c == '%' || Text.isLatinLetter c then none
  else
    let digits ← Text.digitValues? (whole ++ places)
    some (Text.ofDigitValues digits, places.length, unit)

/-- The functions whose value can be scaled in `calc`. -/
def mathFunctions : List Text := ["var(", "calc(", "min(", "max(", "clamp("]

/-- Change the sign of a value. Zero keeps it, and so does a value that is no number. -/
def negate (value : Text) : Text :=
  let value := Text.trim value
  match dimension? value with
  | some (digits, places, _) =>
      if (Binary64.ofDecimal digits places).isZero then value else '-' :: value
  | none =>
      match value with
      | '-' :: magnitude =>
          if (dimension? magnitude).isSome then magnitude
          else value
      | _ =>
          if mathFunctions.any (Text.startsWith value) then "calc(" ++ value ++ " * -1)" else value

/-- The value of a hexadecimal digit of ASCII. -/
def hexValue? (c : Char) : Option Nat :=
  if '0' ≤ c && c ≤ '9' then some (c.toNat - 48)
  else if 'a' ≤ c && c ≤ 'f' then some (c.toNat - 87)
  else if 'A' ≤ c && c ≤ 'F' then some (c.toNat - 55)
  else none

/-- The channels of a hexadecimal colour of three, four, six or eight digits; a fourth
channel is dropped. One newline may follow. -/
def hexChannels? (t : Text) : Option (Nat × Nat × Nat) := do
  let digits ← Text.afterLead? ['#'] ((Text.beforeTail? ['\n'] t).getD t)
  match ← digits.mapM hexValue? with
  | [r, g, b] => some (17 * r, 17 * g, 17 * b)
  | [r, g, b, _] => some (17 * r, 17 * g, 17 * b)
  | [r, r', g, g', b, b'] => some (16 * r + r', 16 * g + g', 16 * b + b')
  | [r, r', g, g', b, b', _, _] => some (16 * r + r', 16 * g + g', 16 * b + b')
  | _ => none

/-- Whether two texts agree up to case. -/
def agreesUpToCase (pattern t : Text) : Bool :=
  pattern.length == t.length && (pattern.zip t).all fun (p, c) => (Text.caseOrbit c).contains p

/-- The functions that make colours from channels. -/
def colorFunctions : List Text := ["rgb", "rgba", "hsl", "hsla"]

/-- The function and the arguments of a functional colour without inner parentheses. -/
def functionalColor? (t : Text) : Option (Text × Text) := do
  let (function, rest) ← Text.cutFirst? '(' t
  let arguments ← Text.beforeTail? [')'] rest
  if !colorFunctions.any (agreesUpToCase · function) then none
  else if arguments.any fun c => c == '(' || c == ')' then none
  else some (function, arguments)

/-- Whether a value is a hexadecimal or functional colour. -/
def isColor (value : Text) : Bool :=
  let value := Text.trim value
  (hexChannels? value).isSome || (functionalColor? value).isSome

/-- An alpha channel: a share has at most four places. -/
def alphaText : Opacity → Text
  | .share alpha => number (alpha.roundPlaces 4)
  | .verbatim value => Payload.normalize value

/-- Give a colour an alpha channel in place of the one it has. -/
def withAlpha (alpha : Opacity) (value : Text) : Text :=
  let bare := Text.trim value
  match hexChannels? bare with
  | some (r, g, b) =>
      "rgb(" ++ Text.ofNat r ++ " " ++ Text.ofNat g ++ " " ++ Text.ofNat b ++ " / " ++
        alphaText alpha ++ ")"
  | none =>
      match functionalColor? bare with
      | none => value
      | some (function, arguments) =>
          let function := ((Text.lowerAscii function).reverse.dropWhile (· == 'a')).reverse
          let channels := Text.words (Text.substitute ',' " " (Text.substitute '/' " " arguments))
          match channels with
          | first :: second :: third :: _ =>
              function ++ "(" ++ Text.join " " [first, second, third] ++ " / " ++
                alphaText alpha ++ ")"
          | _ => value

/-- The mark of importance with the space before it. -/
def importantMark : Text := " !important"

/-- A value and its mark of importance, if it ends with one. -/
def splitImportant (value : Text) : Text × Text :=
  match Text.beforeTail? importantMark value with
  | some bare => (bare, importantMark)
  | none => (value, [])

/-- Mark a value as important. -/
def markImportant (value : Text) : Text :=
  if Text.endsWith value importantMark then value else value ++ importantMark

/-- Change a value and leave its mark of importance in place. -/
def mapBare (change : Text → Text) (value : Text) : Text :=
  let (bare, mark) := splitImportant value
  change bare ++ mark

end Css

end UtilityCss
