import UtilityCss.Migration.Mapping

/-!
# The default mapping rules

Most names are kept. Dividing lines become borders, the directive that loads a layer becomes
a layer, and two names with one variant become a group.
-/

namespace UtilityCss

namespace Migration

/-- A rule that keeps the names it knows. -/
def keep (name pattern : Text) : MappingRule :=
  { pattern, replacement := .template sameTemplate, compatible := true, name }

/-- Rules for spacing, layout and sizing. -/
def boxRules : List MappingRule :=
  [keep "spacing" "^(p|m|px|py|pt|pb|pl|pr|mx|my|mt|mb|ml|mr)-(.+)$",
    keep "gap" "^(gap|gap-x|gap-y)-(.+)$",
    keep "space" "^(space-x|space-y)-(.+)$",
    keep "display" "^(flex|grid|block|inline|inline-block|inline-flex|hidden)$",
    keep "alignment"
      "^(items|justify|content|place)-(start|end|center|between|around|evenly|stretch)$",
    keep "flex-direction" "^(flex-row|flex-col|flex-wrap|flex-nowrap)$",
    keep "grid-template" "^(grid-cols|grid-rows)-(.+)$",
    keep "grid-placement" "^(col|row)-(span|start|end)-(.+)$",
    keep "sizing" "^(w|h|min-w|max-w|min-h|max-h)-(.+)$",
    keep "size" "^(size)-(.+)$",
    keep "aspect" "^aspect-(.+)$"]

/-- Rules for typography, colours and borders. -/
def surfaceRules : List MappingRule :=
  [keep "text" "^(text|font)-(.+)$",
    keep "text-spacing" "^(leading|tracking|line-clamp)-(.+)$",
    keep "text-transform" "^(uppercase|lowercase|capitalize|normal-case)$",
    keep "text-wrap" "^(truncate|whitespace|break|hyphens)-?(.*)$",
    keep "colors" "^(bg|text|border|ring|outline|shadow|accent|caret|fill|stroke)-(.+)$",
    keep "gradient-stops" "^(from|via|to)-(.+)$",
    keep "borders" "^(border|rounded|ring|outline)-?(.*)$"]

/-- Rules for effects, transforms, transitions and interaction. -/
def effectRules : List MappingRule :=
  [keep "effects"
      "^(shadow|opacity|blur|brightness|contrast|grayscale|invert|saturate|sepia)-?(.*)$",
    keep "filters" "^(backdrop|filter|drop-shadow)-(.+)$",
    keep "transforms" "^(translate|rotate|scale|skew|origin)-(.+)$",
    keep "negative-transforms" "^(-?)(translate|rotate|scale|skew)-(.+)$",
    keep "transitions" "^(transition|duration|ease|delay)-?(.*)$",
    keep "animation" "^animate-(.+)$",
    keep "interactivity" "^(cursor|pointer-events|resize|select|touch|scroll)-(.+)$"]

/-- Rules for the place and the visibility of elements. -/
def placeRules : List MappingRule :=
  [keep "position" "^(relative|absolute|fixed|sticky|static)$",
    keep "inset" "^(top|right|bottom|left|inset|z)-(.+)$",
    keep "visibility" "^(visible|invisible|collapse)$",
    keep "overflow" "^(overflow|overscroll)-(.+)$",
    keep "flex-grid" "^(flex|grow|shrink|basis|order|grid-flow)-(.+)$",
    keep "grid-auto" "^(auto-cols|auto-rows)-(.+)$",
    keep "container" "^container$",
    keep "mx-auto" "^(mx-auto)$",
    keep "sr-only" "^sr-only$",
    keep "not-sr-only" "^not-sr-only$"]

/-- Rules for names that change. -/
def changeRules : List MappingRule :=
  [{ name := "divide-width"
     pattern := "^divide-(x|y)-(.+)$"
     replacement := .template "border-$1-$2"
     compatible := false
     deprecated := true
     warning := some
      "divide-* utilities should use border utilities with appropriate child selectors" },
    { name := "divide-style"
      pattern := "^divide-(solid|dashed|dotted|double|none)$"
      replacement := .template "border-$1"
      compatible := false
      deprecated := true
      warning := some "divide-* utilities should use border utilities" },
    { name := "ring-offset"
      pattern := "^ring-offset-(.+)$"
      replacement := .template "ring-offset-$1"
      compatible := true
      warning := some "Consider using outline utilities for better accessibility" },
    { name := "tailwind-directive"
      pattern := "@tailwind\\s+(base|components|utilities)"
      replacement := .template "@layer $1"
      compatible := false
      warning := some "Replace @tailwind directive with @layer" },
    { name := "hover-group"
      pattern := "^hover:(bg-[^\\s]+)\\s+hover:(text-[^\\s]+)$"
      replacement := .template "hover:($1 $2)"
      compatible := true
      warning := some "brisk supports variant groups for cleaner syntax" }]

/-- The default rules, in order. -/
def defaultRules : List MappingRule :=
  boxRules ++ surfaceRules ++ effectRules ++ placeRules ++ changeRules

end Migration

end UtilityCss
