import UtilityCss.Css.Stylesheet

/-!
# Rendering stylesheets

Two forms: one declaration to a line with two spaces for each level, or without any
blanks that are not needed. In both, a comment with the class names it comes from may
precede each block.
-/

namespace UtilityCss

namespace Stylesheet

/-- The comment of a block. -/
def comment (block : Block) : Text := "/* " ++ Text.join " " block.sources ++ " */"

/-- The blanks before a line at a level. -/
def indent (depth : Nat) : Text := List.replicate (2 * depth) ' '

/-- The lines of a block. -/
def blockLines (comments : Bool) (depth : Nat) (block : Block) : List Text :=
  (if comments then [indent depth ++ comment block] else []) ++
    [indent depth ++ block.selector ++ " \x7b"] ++
    block.declarations.map (fun (property, value) =>
      indent (depth + 1) ++ property ++ ": " ++ value ++ ";") ++
    [indent depth ++ "\x7d"]

mutual

/-- A tree with one declaration to a line. -/
def pretty (comments : Bool) (depth : Nat) : Node → Text
  | .block block => Text.join "\n" (blockLines comments depth block)
  | .wrapper header children =>
      indent depth ++ header ++ " \x7b\n" ++
        Text.join "\n" (prettyAll comments (depth + 1) children) ++
        "\n" ++ indent depth ++ "\x7d"

/-- Each tree of a forest with one declaration to a line. -/
def prettyAll (comments : Bool) (depth : Nat) : List Node → List Text
  | [] => []
  | node :: rest => pretty comments depth node :: prettyAll comments depth rest

end

/-- A block without blanks that are not needed. -/
def compactBlock (comments : Bool) (block : Block) : Text :=
  (if comments then comment block else []) ++ block.selector ++ "\x7b" ++
    Text.join ";" (block.declarations.map fun (property, value) => property ++ ":" ++ value) ++
    "\x7d"

mutual

/-- A tree without blanks that are not needed. -/
def compact (comments : Bool) : Node → Text
  | .block block => compactBlock comments block
  | .wrapper header children => header ++ "\x7b" ++ compactAll comments children ++ "\x7d"

/-- A forest without blanks that are not needed. -/
def compactAll (comments : Bool) : List Node → Text
  | [] => []
  | node :: rest => compact comments node ++ compactAll comments rest

end

/-- The text of a stylesheet. -/
def render (options : Options) (forest : List Node) : Text :=
  if options.minify then compactAll options.comments forest
  else if forest.isEmpty then []
  else Text.join "\n\n" (prettyAll options.comments 0 forest) ++ "\n"

/-- The stylesheet of some results, as text. -/
def generate (options : Options) (results : List Styled) : Text :=
  render options (build options results)

end Stylesheet

end UtilityCss
