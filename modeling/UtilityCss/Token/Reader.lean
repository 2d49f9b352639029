import UtilityCss.Group.Expansion
import UtilityCss.Pattern.Cache
import UtilityCss.Token.Basic

/-!
# Reading tokens

A class name is taken apart from the outside in: blanks at its ends, a mark of
importance, the variants that are known, a second mark of importance, a minus
sign, a bracketed payload and an opacity behind a slash. A part that is malformed
stays in the body.

Which segments are variants is decided by a test that the reader is given, and the
two patterns it uses are looked up in the pattern cache.
-/

namespace UtilityCss

namespace Token

/-- The key of the pattern for opacities. -/
def opacityKey : Text := "parser.opacity"

/-- A number that may be a percentage, or a bracketed value. -/
def opacitySource : Text :=
  "^(?:(?P<number>\\d+(?:\\.\\d+)?|\\.\\d+)(?P<percent>%)?|\\[(?P<arbitrary>.+)\\])$"

/-- The key of the pattern for type hints. -/
def hintKey : Text := "parser.type-hint"

/-- Small letters and dashes before a colon that is not the start of `://`. -/
def hintSource : Text := "^(?P<hint>[a-z][a-z-]*):(?P<value>(?!//).+)$"

/-- Whether a segment is a variant: one in balanced brackets that is not empty always
is, any other if `known` says so. -/
def isVariant (known : Text → Cached Bool) (segment : Text) : Cached Bool :=
  if segment = [] then return false
  else if Payload.isBracketed segment then
    return Brackets.closingBracket? segment 0 == some (segment.length - 1) && 2 < segment.length
  else known segment

/-- The longest run of leading segments that are variants, and the segments after it.
The last segment is never among the variants. -/
def takeVariants (known : Text → Cached Bool) : List Text → Cached (List Text × List Text)
  | [] => return ([], [])
  | [segment] => return ([], [segment])
  | segment :: rest => do
      if ← isVariant known segment then
        let (variants, others) ← takeVariants known rest
        return (segment :: variants, others)
      else return ([], segment :: rest)

/-- Take one mark of importance off the start of a text. -/
def splitImportant : Text → Bool × Text
  | '!' :: rest => (true, rest)
  | t => (false, t)

/-- Take a minus sign off the start of a body. Two dashes begin the name of a custom
property, and a dash alone is a body. -/
def splitNegative : Text → Bool × Text
  | '-' :: c :: rest => if c = '-' then (false, '-' :: c :: rest) else (true, c :: rest)
  | t => (false, t)

/-- Where a body may have its payload: at its start, or after its first dash that is
followed by a bracket. -/
def payloadStart? (body : Text) : Option Nat :=
  if Text.startsWith body "[" then some 0 else (Text.find? "-[" body).map (· + 1)

/-- The positions of the brackets around a payload that is not blank and is followed
by nothing or by a slash. -/
def payloadSpan? (body : Text) : Option (Nat × Nat) := do
  let start ← payloadStart? body
  let close ← Brackets.closingBracket? body start
  let rest := body.drop (close + 1)
  if rest ≠ [] && !Text.startsWith rest "/" then none
  else if Text.trim ((body.take close).drop (start + 1)) = [] then none
  else some (start, close)

/-- A payload with its type hint, and the position of the bracket that closes it. -/
structure PayloadReading where
  payload : Text
  typeHint : Option Text
  close : Nat

/-- The payload of a body. A type hint is taken off a payload that follows a dash. -/
def readPayload (body : Text) : Cached (Option PayloadReading) := do
  match payloadSpan? body with
  | none => return none
  | some (start, close) =>
      let inner := (body.take close).drop (start + 1)
      let pattern ← PatternCache.fetch hintKey (.text hintSource)
      match pattern.matchStart inner with
      | some found =>
          if start = 0 then return some ⟨inner, none, close⟩
          else
            let value ← found.text "value"
            let hint ← found.text "hint"
            return some ⟨value, some hint, close⟩
      | none => return some ⟨inner, none, close⟩

/-- The position of the last slash outside square brackets, reading from a given depth
and position. -/
def lastSlash? : Nat → Nat → Text → Option Nat
  | _, _, [] => none
  | depth, position, c :: rest =>
      let inner := if c = '[' then depth + 1 else if c = ']' then depth - 1 else depth
      (lastSlash? inner (position + 1) rest).orElse fun _ =>
        if c = '/' && depth == 0 then some position else none

/-- The slash before a modifier: the last one outside brackets after the payload, unless
it begins the body. -/
def modifierSlash? (body : Text) (start : Nat) : Option Nat :=
  (lastSlash? 0 start (body.drop start)).filter (· ≠ 0)

/-- A numeral with at most one point, as its digits and the number of places after the
point. -/
def decimal? (t : Text) : Option (Nat × Nat) :=
  let (whole, places) := (Text.cutFirst? '.' t).getD (t, [])
  if whole ++ places = [] then none
  else (Text.digitValues? (whole ++ places)).map fun digits =>
    (Text.ofDigitValues digits, places.length)

/-- The share that a numeral denotes: percentages, numbers without a point and numbers
above one are hundredths; the result is at most one. -/
def readShare (numeral : Text) (percent : Bool) : Except Error Binary64 :=
  match decimal? numeral with
  | none => .error .unreadableNumber
  | some (digits, places) =>
      let amount := Binary64.ofDecimal digits places
      let amount :=
        if percent || !numeral.contains '.' || Binary64.one.lt amount then amount.scale 1 100
        else amount
      .ok (if Binary64.one.lt amount then .one else amount)

/-- The opacity that a modifier denotes, if it is one. -/
def readOpacity (modifier : Text) : Cached (Option Opacity) := do
  let pattern ← PatternCache.fetch opacityKey (.text opacitySource)
  match pattern.matchStart modifier with
  | none => return none
  | some found =>
      match ← found.named "arbitrary" with
      | some value => return if Text.trim value = [] then none else some (.verbatim value)
      | none =>
          let numeral ← found.text "number"
          let percent ← found.named "percent"
          let share ← readShare numeral (percent.any (· ≠ []))
          return some (.share share)

/-- Split a body for reports: the text before its first dash that does not begin it, and
the text after that dash. A payload is left out. -/
def splitUtility (body : Text) (hasPayload : Bool) : Text × Option Text :=
  let base :=
    if hasPayload then ((body.takeWhile (· != '[')).reverse.dropWhile (· == '-')).reverse
    else body
  match base with
  | [] => ([], none)
  | first :: rest =>
      match Text.cutFirst? '-' rest with
      | none => (base, none)
      | some (before, after) => (first :: before, if after = [] then none else some after)

/-- The slash before a modifier and the opacity that the modifier denotes. -/
def readModifier (body : Text) (start : Nat) : Cached (Option (Nat × Opacity)) := do
  match modifierSlash? body start with
  | none => return none
  | some slash =>
      let opacity ← readOpacity (body.drop (slash + 1))
      return opacity.map (slash, ·)

/-- Whether a text is a variant group alone. -/
def isGroup (t : Text) : Bool := Text.startsWith t "(" && Text.endsWith t ")"

/-- The token whose payload and modifier were found in a body. -/
def ofParts (raw : Text) (variants : List Text) (important negative : Bool) (body : Text)
    (payload : Option PayloadReading) (found : Option (Nat × Opacity)) : Token :=
  let (body, modifier) := match found with
    | some (slash, _) => (body.take slash, some (body.drop (slash + 1)))
    | none => (body, none)
  let (utility, value) := splitUtility body payload.isSome
  { raw, utility, value, variants, important, negative, body, modifier
    opacity := found.map (·.2)
    payload := payload.map (·.payload)
    typeHint := payload.bind (·.typeHint) }

/-- Take apart what is left of a class name without its variants and its marks of
importance. A variant group is an error. -/
def readBody (raw : Text) (variants : List Text) (important : Bool) (t : Text) :
    Cached Token := do
  if isGroup t then throw (.variantGroup raw (raw.length - t.length))
  else
    let (negative, body) := splitNegative t
    let payload ← readPayload body
    let found ← readModifier body (payload.elim 0 (·.close + 1))
    return ofParts raw variants important negative body payload found

/-- Take a class name apart. A name that is a variant group alone is an error. -/
def read (known : Text → Cached Bool) (raw : Text) : Cached Token := do
  let (outerMark, text) := splitImportant (Text.trim raw)
  let (variants, segments) ← takeVariants known (ClassName.segments text)
  let (innerMark, body) := splitImportant (Text.join ":" segments)
  readBody raw variants (outerMark || innerMark) body

/-- Take the tokens of a class text apart, leaving out those that cannot be. -/
def readEach (known : Text → Cached Bool) : List Text → Cached (List Token)
  | [] => return []
  | raw :: rest => fun cache =>
      match read known raw cache with
      | (.ok token, cache) => (do return token :: (← readEach known rest) : Cached _) cache
      | (.error (.variantGroup ..), cache) => readEach known rest cache
      | (.error error, cache) => (.error error, cache)

/-- The tokens of a class text, with its variant groups written out. -/
def readAll (known : Text → Cached Bool) (t : Text) : Cached (List Token) :=
  readEach known (Group.expand t)

end Token

end UtilityCss
