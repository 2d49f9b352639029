import UtilityCss.Number.Binary64
import UtilityCss.Token.Assembly

/-!
# Tokens

A token is one class name taken apart: its variants, its marks, the body that
rules are matched against, and the payload and opacity found in the body.
-/

namespace UtilityCss

/-- The opacity that a token asks for: a share of one, or a value taken verbatim. -/
inductive Opacity where
  | share (alpha : Binary64)
  | verbatim (value : Text)
  deriving DecidableEq

/-- A class name taken apart. -/
structure Token where
  /-- The class name as it was given. -/
  raw : Text
  /-- The text before the first dash, for reports only. -/
  utility : Text := []
  /-- The text after that dash. -/
  value : Option Text := none
  /-- The variants, outermost first. -/
  variants : List Text := []
  opacity : Option Opacity := none
  /-- The text in square brackets, verbatim and without its type hint. -/
  payload : Option Text := none
  typeHint : Option Text := none
  important : Bool := false
  negative : Bool := false
  /-- What rules are matched against. -/
  body : Text := []
  /-- The text that gave the opacity, without its slash. -/
  modifier : Option Text := none
  deriving DecidableEq

namespace Token

def hasVariants (token : Token) : Bool := token.variants ≠ []

def hasPayload (token : Token) : Bool := token.payload.isSome

/-- The body with the modifier that was split off. -/
def fullBody (token : Token) : Text :=
  match token.modifier with
  | none => token.body
  | some modifier => token.body ++ '/' :: modifier

/-- A class name with the parts of the token: the mark of importance stands behind the
variants. -/
def toText (token : Token) : Text :=
  ClassName.assemble token.fullBody token.variants token.negative token.important

end Token

end UtilityCss
