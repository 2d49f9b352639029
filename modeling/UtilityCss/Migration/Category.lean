import UtilityCss.Pattern.Cache

/-!
# Categories of class names

The first category whose pattern occurs in a name is its category.
-/

namespace UtilityCss

namespace Migration

/-- The categories with their patterns, in order. -/
def categories : List (Text × Text) :=
  [("spacing", "^(p|m|px|py|pt|pb|pl|pr|mx|my|mt|mb|ml|mr|gap|space)-"),
    ("layout", "^(flex|grid|block|inline|hidden|items|justify|content|place)-"),
    ("sizing", "^(w|h|min-w|max-w|min-h|max-h|size|aspect)-"),
    ("typography", "^(text|font|leading|tracking|line-clamp|truncate|whitespace)"),
    ("colors", "^(bg|text|border|ring|outline|shadow|accent|caret|fill|stroke|from|via|to)-"),
    ("borders", "^(border|rounded|ring|outline)-"),
    ("effects", "^(shadow|opacity|blur|brightness|contrast|grayscale|backdrop|filter)"),
    ("transforms", "^(-?)(translate|rotate|scale|skew|origin)-"),
    ("transitions", "^(transition|duration|ease|delay|animate)-"),
    ("interactivity", "^(cursor|pointer-events|resize|select|touch|scroll)-"),
    ("positioning", "^(relative|absolute|fixed|sticky|static|top|right|bottom|left|inset|z)-")]

/-- The category of names that are in none of the others. -/
def otherCategory : Text := "other"

/-- The first of some categories that a name is in. -/
def firstCategory (name : Text) : List (Text × Text) → Cached Text
  | [] => return otherCategory
  | (category, source) :: rest => do
      let found ← PatternCache.test ("migration:category:" ++ category) (.text source) name
      if found then return category else firstCategory name rest

/-- The category of a name. -/
def category (name : Text) : Cached Text := firstCategory name categories

/-- Add names to a grouping by category. -/
def groupInto (groups : Table Text (List Text)) : List Text → Cached (Table Text (List Text))
  | [] => return groups
  | name :: rest => do
      let category ← category name
      let members := (groups.get? category).getD []
      groupInto (groups.put category (members ++ [name])) rest

/-- The names of each category, both in order of appearance. -/
def groupByCategory (names : List Text) : Cached (Table Text (List Text)) := groupInto [] names

end Migration

end UtilityCss
