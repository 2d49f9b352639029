import UtilityCss.Css.Result
import UtilityCss.Sorting

/-!
# Stylesheets

A stylesheet is a forest: blocks of declarations, and at-rules around blocks and
other at-rules. It is built layer by layer. All declarations for one selector inside
the same at-rules go into one block, at the place of the first of them; a block then
shares the at-rules of the block before it as far as they agree.
-/

namespace UtilityCss

namespace Stylesheet

/-- Declarations on their way into a stylesheet. -/
structure Supply where
  atRules : List Text
  selector : Text
  declarations : Declarations
  /-- The class name they come from. -/
  raw : Text

/-- The declarations of one selector inside some at-rules. -/
structure Block where
  atRules : List Text
  selector : Text
  declarations : Declarations
  /-- The class names they come from, without repetition. -/
  sources : List Text
  deriving DecidableEq

/-- A tree of the stylesheet. -/
inductive Node where
  | block (block : Block)
  | wrapper (header : Text) (children : List Node)

/-- The choices about the order and form of a stylesheet. -/
structure Options where
  minify : Bool := false
  comments : Bool := false
  sortByProperty : Bool := false
  useLayers : Bool := false

/-- The supplies of a styled token that declare something. -/
def supplies (styled : Styled) : List Supply :=
  (((styled.selector, styled.declarations) :: styled.nested).filter (·.2 ≠ [])).map
    fun (selector, declarations) =>
      { atRules := styled.atRules, selector, declarations, raw := styled.token.raw }

namespace Supply

/-- Whether a supply goes into a block. -/
def fits (supply : Supply) (block : Block) : Bool :=
  block.atRules == supply.atRules && block.selector == supply.selector

/-- Add a supply to the block it goes into. A later value of a property wins. -/
def addTo (supply : Supply) (block : Block) : Block :=
  { block with
    declarations := block.declarations.putAll supply.declarations
    sources := if block.sources.contains supply.raw then block.sources
      else block.sources ++ [supply.raw] }

/-- Add a supply to its block, or to a new block at the end. -/
def insert (supply : Supply) : List Block → List Block
  | [] => [supply.addTo ⟨supply.atRules, supply.selector, [], []⟩]
  | block :: rest =>
      if supply.fits block then supply.addTo block :: rest else block :: supply.insert rest

end Supply

/-- One block for each selector and list of at-rules, in order of first supply. -/
def merge (supplies : List Supply) : List Block :=
  supplies.foldl (fun blocks supply => supply.insert blocks) []

/-- Put a block at the end of a forest inside at-rules, of which it shares those that end
the forest. -/
def place (block : Block) : List Text → List Node → List Node
  | [], forest => forest ++ [.block block]
  | header :: headers, forest =>
      match forest.getLast? with
      | some (.wrapper other children) =>
          if other = header then forest.dropLast ++ [.wrapper header (place block headers children)]
          else forest ++ [.wrapper header (place block headers [])]
      | _ => forest ++ [.wrapper header (place block headers [])]

/-- The forest of some blocks. -/
def nest (blocks : List Block) : List Node :=
  blocks.foldl (fun forest block => place block block.atRules forest) []

/-- The order of sorting by property: by sort key, then by the number of variants. -/
def precedes (a b : Styled) : Bool :=
  a.sortKey < b.sortKey ||
    (a.sortKey == b.sortKey && a.token.variants.length ≤ b.token.variants.length)

/-- The results of one layer that declare something, in output order. -/
def inLayer (options : Options) (results : List Styled) (layer : Layer) : List Styled :=
  let results := results.filter fun styled => !styled.isEmpty && styled.layer == layer
  if options.sortByProperty then stableSort precedes results else results

/-- The forest of one layer. -/
def layerForest (options : Options) (results : List Styled) (layer : Layer) : List Node :=
  nest (merge ((inLayer options results layer).flatMap supplies))

/-- The forest of one layer, under a header of its own if layers are asked for. -/
def layerSection (options : Options) (results : List Styled) (layer : Layer) : List Node :=
  let forest := layerForest options results layer
  if options.useLayers && inLayer options results layer ≠ [] then
    [.wrapper ("@layer " ++ layer.name) forest]
  else forest

end Stylesheet

/-- The stylesheet of some results. -/
def Stylesheet.build (options : Stylesheet.Options) (results : List Styled) :
    List Stylesheet.Node :=
  Layer.all.flatMap (Stylesheet.layerSection options results)

end UtilityCss
