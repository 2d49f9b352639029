import UtilityCss.Pattern.Match

/-!
# Templates

A template is a text in which `$&` stands for a whole match and `$1` to `$9` for
its groups. A group that took no part stands for nothing; the number of a group
that the pattern does not have stays as it is written. The inserted text is not
read again.
-/

namespace UtilityCss

namespace Template

/-- The text that `$` and a digit stand for. -/
def groupText (found : Match) (digit : Char) : Text :=
  let index := digit.toNat - 48
  if found.groupCount < index then ['$', digit] else (found.group? index).getD []

/-- Write the texts of a match for the placeholders of a template. -/
def fill (found : Match) : Text → Text
  | '$' :: '&' :: rest => found.whole ++ fill found rest
  | '$' :: c :: rest =>
      if '1' ≤ c && c ≤ '9' then groupText found c ++ fill found rest
      else '$' :: fill found (c :: rest)
  | c :: rest => c :: fill found rest
  | [] => []

end Template

end UtilityCss
