import UtilityCss.Css.Value
import UtilityCss.Error
import UtilityCss.Text.Letter
import UtilityCss.Theme.Value
import UtilityCss.Token.Payload

/-!
# Values for utilities

A key of a utility is a name on a scale of the theme, a fraction, or a bracketed value.
Bracketed values with a type hint are taken for that type only; without one, a value that
looks like a colour is a colour and any other value can be a length.
-/

namespace UtilityCss

namespace Css

/-- The functions whose result is taken for a colour. -/
def colorLeads : List Text :=
  ["var(", "color-mix(", "oklch(", "oklab(", "lab(", "lch(", "hwb("]

/-- Whether a value is taken for a colour: a colour, a function that gives one, or a
word. -/
def looksLikeColor (value : Text) : Bool :=
  let value := Text.trim value
  isColor value || colorLeads.any (Text.startsWith value) || Text.isLetters value

/-- The functions whose result is taken for a length. -/
def lengthLeads : List Text := ["calc(", "min(", "max(", "clamp("]

/-- Whether a value is taken for a length: a number with an optional sign and unit, or a
function that gives one. -/
def looksLikeLength (value : Text) : Bool :=
  let value := Text.trim value
  let magnitude := (Text.afterLead? ['-'] value).getD value
  (dimension? magnitude).isSome ||
    lengthLeads.any fun lead => agreesUpToCase lead (value.take lead.length)

/-- The bracketed value of a key, if its type hint is among those expected. -/
def bracketed? (key : Text) (hints : List (Option Text) := [none]) : Option Text := do
  if !Payload.isBracketed key then none
  else
    let (hint, value) ← Payload.read? key
    let value := Text.trim value
    if hints.contains hint && value ≠ [] then some value else none

/-- The greatest number of digits of a numeral that is read. -/
def digitLimit : Nat := 4300

/-- The number that a numeral of decimal digits denotes. -/
def readNat (numeral : Text) : Except Error Nat :=
  match Text.digitValues? numeral with
  | some digits =>
      if digits = [] || digitLimit < digits.length then .error .unreadableNumber
      else .ok (Text.ofDigitValues digits)
  | none => .error .unreadableNumber

/-- The quotient of two numbers. -/
def divide (num den : Nat) : Except Error Binary64 :=
  match Binary64.quotient? num den with
  | some quotient => .ok quotient
  | none => .error .quotientTooLarge

/-- The two numerals of a fraction. One newline may follow. -/
def fractionParts? (key : Text) : Option (Text × Text) := do
  let (num, den) ← Text.cutFirst? '/' ((Text.beforeTail? ['\n'] key).getD key)
  if num ≠ [] && den ≠ [] && num.all Text.isDecimal && den.all Text.isDecimal then some (num, den)
  else none

/-- A fraction as a percentage with at most six places. A denominator of zero gives none. -/
def fraction (key : Text) : Except Error (Option Text) := do
  match fractionParts? key with
  | none => return none
  | some (num, den) =>
      let den ← readNat den
      if den = 0 then return none
      let quotient ← divide (← readNat num) den
      return some (number ((quotient.scale 100 1).roundPlaces 6) ++ "%")

end Css

namespace Theme

/-- The colour of a key: a bracketed colour, a colour of the theme, or a shade of one of
its palettes. -/
def color? (theme : Theme) (key : Text) : Option Text :=
  if Payload.isBracketed key then
    (Css.bracketed? key [some "color"]).orElse fun _ =>
      (Css.bracketed? key).filter Css.looksLikeColor
  else do
    let colors ← (← theme.get? "colors").table?
    match (colors.get? key).bind Value.text? with
    | some value => some value
    | none =>
        let (name, shade) := (Text.cutLast? '-' key).getD ([], key)
        let palette ← (← colors.get? name).table?
        (← palette.get? shade).text?

/-- The length of a key: a bracketed value that does not look like a colour, or an entry of
a scale. -/
def length? (theme : Theme) (key : Text) (scale : Text := "spacing") : Option Text :=
  if Payload.isBracketed key then
    (Css.bracketed? key [some "length"]).orElse fun _ =>
      (Css.bracketed? key).filter fun value => !Css.looksLikeColor value
  else theme.text? scale key

/-- Any bracketed value without a type hint, or an entry of a scale. -/
def plain? (theme : Theme) (scale key : Text) : Option Text :=
  if Payload.isBracketed key then Css.bracketed? key else theme.text? scale key

end Theme

end UtilityCss
