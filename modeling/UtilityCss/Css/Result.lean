import UtilityCss.Css.Declaration

/-!
# Styled tokens

What a token comes to: the declarations of its selector, further blocks under
selectors of their own, and the at-rules around them all.
-/

namespace UtilityCss

/-- The output layers, in cascade order. -/
inductive Layer where
  | base
  | components
  | utilities
  deriving DecidableEq

namespace Layer

/-- The layers in cascade order. -/
def all : List Layer := [.base, .components, .utilities]

/-- The name of a layer in CSS. -/
def name : Layer → Text
  | .base => "base"
  | .components => "components"
  | .utilities => "utilities"

end Layer

/-- A token with the declarations it resolved to. -/
structure Styled where
  token : Token
  declarations : Declarations
  ruleName : Text := []
  layer : Layer := .utilities
  /-- The place among results that are sorted by property. -/
  sortKey : Int := 0
  selector : Text := []
  /-- The at-rules around the blocks, outermost first. -/
  atRules : List Text := []
  /-- Further blocks by selector. -/
  nested : Table Text Declarations := []

/-- Whether a styled token declares nothing. -/
def Styled.isEmpty (styled : Styled) : Bool :=
  styled.declarations == [] && styled.nested.all (·.2 == [])

end UtilityCss
