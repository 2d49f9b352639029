import UtilityCss.Text.Basic

/-!
# Faults of brackets

The first fault of the square brackets in a text, reading from the left: a bracket without
its partner, or a pair outside others with nothing in it.
-/

namespace UtilityCss

namespace Lint

/-- What is wrong with the square brackets of a token. -/
inductive BracketFault where
  | unbalanced
  | empty
  deriving DecidableEq

namespace BracketFault

/-- The code of a fault in findings. -/
def code : BracketFault → Text
  | .unbalanced => "unbalanced-brackets"
  | .empty => "empty-arbitrary"

/-- The wording of a fault. -/
def message : BracketFault → Text
  | .unbalanced => "Unbalanced brackets in arbitrary value"
  | .empty => "Empty arbitrary value"

end BracketFault

/-- The first fault in the rest of a text. So many brackets are open, and `fresh` says
whether the last character opened the outermost one. -/
def bracketFaultFrom : (depth : Nat) → (fresh : Bool) → Text → Option BracketFault
  | 0, _, [] => none
  | _ + 1, _, [] => some .unbalanced
  | depth, fresh, c :: rest =>
      if c = '[' then bracketFaultFrom (depth + 1) (depth == 0) rest
      else if c = ']' then
        if depth = 0 then some .unbalanced
        else if depth = 1 && fresh then some .empty
        else bracketFaultFrom (depth - 1) false rest
      else bracketFaultFrom depth false rest

/-- The first fault of the brackets in a token. -/
def bracketFault? (token : Text) : Option BracketFault := bracketFaultFrom 0 false token

/-- Whether a token ends in an opacity with nothing in its brackets. -/
def hasEmptyOpacity (token : Text) : Bool := Text.endsWith token "/[]"

end Lint

end UtilityCss
