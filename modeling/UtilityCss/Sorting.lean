/-!
# Stable sorting

Items that the order does not tell apart keep their places.
-/

namespace UtilityCss

/-- Put an item into a sorted list, before the items that it does not come after. -/
def insertSorted (before : α → α → Bool) (item : α) : List α → List α
  | [] => [item]
  | other :: rest =>
      if before item other then item :: other :: rest
      else other :: insertSorted before item rest

/-- Sort a list; `before a b` says that `a` may stand before `b`. -/
def stableSort (before : α → α → Bool) : List α → List α
  | [] => []
  | item :: rest => insertSorted before item (stableSort before rest)

end UtilityCss
