import Mathlib.Data.List.Chain
import Mathlib.Data.List.Nodup
import Mathlib.Data.Prod.Lex
import UtilityCss.Css.Stylesheet
import UtilityCss.Proofs.OrderedTables
import UtilityCss.Proofs.StableSorting

/-!
# The structure of a stylesheet

Read from left to right with the headers around them, the blocks of a layer are one for
each selector and list of at-rules that is supplied with declarations, in the order of
first supply. Merging and nesting are each described by what one supply or one block
changes; the statements about a whole layer follow by induction.
-/

namespace UtilityCss

namespace Stylesheet

/-- Where a supply goes: its at-rules and its selector. -/
def Supply.key (supply : Supply) : List Text × Text := (supply.atRules, supply.selector)

def Block.key (block : Block) : List Text × Text := (block.atRules, block.selector)

/-- All declarations that go to one place, in the order in which they are supplied. -/
def suppliedTo (key : List Text × Text) (supplies : List Supply) : List (Text × Text) :=
  (supplies.filter (·.key = key)).flatMap (·.declarations)

/-! ### Merging -/

theorem fits_iff (supply : Supply) (block : Block) :
    supply.fits block = true ↔ block.key = supply.key := by
  simp [Supply.fits, Block.key, Supply.key]

@[simp]
theorem key_addTo (supply : Supply) (block : Block) : (supply.addTo block).key = block.key := rfl

theorem keys_insert (supply : Supply) (blocks : List Block) :
    (supply.insert blocks).map Block.key =
      if supply.key ∈ blocks.map Block.key then blocks.map Block.key
      else blocks.map Block.key ++ [supply.key] := by
  induction blocks with
  | nil => rfl
  | cons block rest ih =>
    simp only [Supply.insert, fits_iff, List.map_cons, List.mem_cons]
    by_cases hkey : block.key = supply.key
    · simp [hkey]
    · have hkey' : ¬ supply.key = block.key := fun h => hkey h.symm
      rw [if_neg hkey, List.map_cons, ih]
      by_cases hmem : supply.key ∈ rest.map Block.key <;> simp [hmem, hkey']

/-- A block after a supply is a block from before that is for another place, or the block
for the place of the supply with the supply added. -/
theorem mem_insert {supply : Supply} {blocks : List Block} {block : Block}
    (hnodup : (blocks.map Block.key).Nodup) (hblock : block ∈ supply.insert blocks) :
    (block ∈ blocks ∧ block.key ≠ supply.key) ∨
      ∃ old : Block, old.key = supply.key ∧ block = supply.addTo old ∧
        (old ∈ blocks ∨
          (old.declarations = [] ∧ old.sources = []) ∧ supply.key ∉ blocks.map Block.key) := by
  induction blocks with
  | nil =>
    right
    refine ⟨⟨supply.atRules, supply.selector, [], []⟩, rfl, ?_, .inr ?_⟩
    · exact List.mem_singleton.mp hblock
    · exact ⟨⟨rfl, rfl⟩, List.not_mem_nil⟩
  | cons first rest ih =>
    rw [List.map_cons, List.nodup_cons] at hnodup
    simp only [Supply.insert, fits_iff] at hblock
    by_cases hkey : first.key = supply.key
    · rw [if_pos hkey] at hblock
      rcases List.mem_cons.mp hblock with rfl | hrest
      · exact .inr ⟨first, hkey, rfl, .inl List.mem_cons_self⟩
      · refine .inl ⟨List.mem_cons_of_mem first hrest, ?_⟩
        intro hsame
        apply hnodup.1
        rw [hkey, ← hsame]
        exact List.mem_map_of_mem hrest
    · rw [if_neg hkey] at hblock
      rcases List.mem_cons.mp hblock with rfl | hrest
      · exact .inl ⟨List.mem_cons_self, hkey⟩
      · rcases ih hnodup.2 hrest with ⟨hmem, hne⟩ | ⟨old, hold, hadd, hmem | ⟨hempty, hnew⟩⟩
        · exact .inl ⟨List.mem_cons_of_mem first hmem, hne⟩
        · exact .inr ⟨old, hold, hadd, .inl (List.mem_cons_of_mem first hmem)⟩
        · refine .inr ⟨old, hold, hadd, .inr ⟨hempty, ?_⟩⟩
          rw [List.map_cons, List.mem_cons]
          rintro (hsame | hmem)
          · exact hkey hsame.symm
          · exact hnew hmem

theorem merge_concat (supplies : List Supply) (supply : Supply) :
    merge (supplies ++ [supply]) = supply.insert (merge supplies) := by
  simp [merge]

theorem keys_merge (supplies : List Supply) :
    (merge supplies).map Block.key = (supplies.map Supply.key).eraseDups := by
  induction supplies using List.reverseRecOn with
  | nil => rfl
  | append_singleton supplies supply ih =>
    rw [merge_concat, keys_insert, List.map_append, List.map_singleton, eraseDups_concat, ih]
    simp only [List.mem_eraseDups]

theorem suppliedTo_concat (key : List Text × Text) (supplies : List Supply) (supply : Supply) :
    suppliedTo key (supplies ++ [supply]) =
      suppliedTo key supplies ++ if supply.key = key then supply.declarations else [] := by
  by_cases hkey : supply.key = key <;> simp [suppliedTo, hkey]

theorem suppliedTo_eq_nil {key : List Text × Text} {supplies : List Supply}
    (hkey : key ∉ supplies.map Supply.key) : suppliedTo key supplies = [] := by
  have hnone : supplies.filter (·.key = key) = [] := by
    rw [List.filter_eq_nil_iff]
    intro supply hsupply hsame
    exact hkey (of_decide_eq_true hsame ▸ List.mem_map_of_mem hsupply)
  rw [suppliedTo, hnone, List.flatMap_nil]

theorem declarations_merge {supplies : List Supply} {block : Block}
    (hblock : block ∈ merge supplies) :
    block.declarations = Table.ofEntries (suppliedTo block.key supplies) := by
  induction supplies using List.reverseRecOn generalizing block with
  | nil => exact absurd hblock List.not_mem_nil
  | append_singleton supplies supply ih =>
    have hkeys := keys_merge supplies
    have hnodup : ((merge supplies).map Block.key).Nodup := hkeys ▸ nodup_eraseDups _
    rw [merge_concat] at hblock
    rw [suppliedTo_concat]
    rcases mem_insert hnodup hblock with
      ⟨hmem, hne⟩ | ⟨old, hold, rfl, hmem | ⟨⟨hempty, -⟩, hnew⟩⟩
    · rw [if_neg (Ne.symm hne), List.append_nil]
      exact ih hmem
    · have hdeclarations := ih hmem
      rw [key_addTo, if_pos hold.symm, Table.ofEntries, Table.putAll_append]
      exact congrArg (Table.putAll · supply.declarations) hdeclarations
    · have hnone : suppliedTo old.key supplies = [] := by
        apply suppliedTo_eq_nil
        rwa [hold, ← List.mem_eraseDups, ← hkeys]
      rw [key_addTo, if_pos hold.symm, hnone, List.nil_append]
      exact congrArg (Table.putAll · supply.declarations) hempty

/-! ### Nesting -/

mutual

/-- The blocks of a tree from left to right, each with the headers around it, outermost
first, behind those of `outer`. -/
def Node.read (outer : List Text) : Node → List (List Text × Block)
  | .block block => [(outer, block)]
  | .wrapper header children => readAll (outer ++ [header]) children

def readAll (outer : List Text) : List Node → List (List Text × Block)
  | [] => []
  | node :: rest => node.read outer ++ readAll outer rest

end

theorem readAll_append (outer : List Text) (forest more : List Node) :
    readAll outer (forest ++ more) = readAll outer forest ++ readAll outer more := by
  induction forest with
  | nil => rfl
  | cons node rest ih => simp [readAll, ih]

mutual

theorem read_behind (outer inner : List Text) (node : Node) :
    node.read (outer ++ inner) = (node.read inner).map (Prod.map (outer ++ ·) id) := by
  cases node with
  | block content => rfl
  | wrapper header children =>
    rw [Node.read, Node.read, List.append_assoc]
    exact readAll_behind outer (inner ++ [header]) children

theorem readAll_behind (outer inner : List Text) (forest : List Node) :
    readAll (outer ++ inner) forest = (readAll inner forest).map (Prod.map (outer ++ ·) id) := by
  cases forest with
  | nil => rfl
  | cons node rest =>
    rw [readAll, readAll, List.map_append, read_behind, readAll_behind outer inner rest]

end

/-- The block goes into the wrapper that ends the forest, or into a new wrapper behind a
forest that does not end in one with this header. -/
theorem place_cons (block : Block) (header : Text) (headers : List Text) (forest : List Node) :
    (∃ front children, forest = front ++ [.wrapper header children] ∧
        place block (header :: headers) forest =
          front ++ [.wrapper header (place block headers children)]) ∨
      (∀ children, forest.getLast? ≠ some (.wrapper header children)) ∧
        place block (header :: headers) forest =
          forest ++ [.wrapper header (place block headers [])] := by
  rcases forest.eq_nil_or_concat' with rfl | ⟨front, last, rfl⟩
  · exact .inr ⟨by simp, rfl⟩
  · cases last with
    | block other => exact .inr ⟨by simp, by simp [place]⟩
    | wrapper other children =>
      by_cases hheader : other = header
      · subst hheader
        exact .inl ⟨front, children, rfl, by simp [place]⟩
      · refine .inr ⟨?_, by simp [place, hheader]⟩
        intro children hlast
        simp [hheader] at hlast

theorem readAll_place (block : Block) (headers : List Text) (forest : List Node)
    (outer : List Text) :
    readAll outer (place block headers forest) =
      readAll outer forest ++ [(outer ++ headers, block)] := by
  induction headers generalizing forest outer with
  | nil => simp [place, readAll_append, readAll, Node.read]
  | cons header headers ih =>
    rcases place_cons block header headers forest with ⟨front, children, rfl, hplace⟩ | ⟨_, hplace⟩
    · rw [hplace]
      simp [readAll_append, readAll, Node.read, ih]
    · rw [hplace]
      simp [readAll_append, readAll, Node.read, ih]

theorem nest_concat (blocks : List Block) (block : Block) :
    nest (blocks ++ [block]) = place block block.atRules (nest blocks) := by
  simp [nest]

theorem readAll_nest (blocks : List Block) :
    readAll [] (nest blocks) = blocks.map fun block => (block.atRules, block) := by
  induction blocks using List.reverseRecOn with
  | nil => rfl
  | append_singleton blocks block ih =>
    rw [nest_concat, readAll_place, ih, List.map_append, List.map_singleton, List.nil_append]

/-- The lists of siblings in a forest: the forest, and the children of each wrapper. -/
inductive Level (forest : List Node) : List Node → Prop where
  | top : Level forest forest
  | inside {siblings children : List Node} {header : Text} (hsiblings : Level forest siblings)
      (hwrapper : .wrapper header children ∈ siblings) : Level forest children

def Node.header? : Node → Option Text
  | .block _ => none
  | .wrapper header _ => some header

/-- Whether a block declares something and a wrapper holds something. -/
def Node.Filled : Node → Prop
  | .block content => content.declarations ≠ []
  | .wrapper _ children => children ≠ []

/-- No two neighbours are wrappers with the same header. -/
def Parted (siblings : List Node) : Prop :=
  siblings.IsChain fun a b => ∀ header, a.header? = some header → b.header? ≠ some header

/-- What holds of the siblings at each level of a forest. -/
def Throughout (P : List Node → Prop) (forest : List Node) : Prop :=
  ∀ siblings, Level forest siblings → P siblings

theorem throughout_iff {P : List Node → Prop} {forest : List Node} :
    Throughout P forest ↔ P forest ∧ ∀ header children,
      .wrapper header children ∈ forest → Throughout P children := by
  constructor
  · intro hall
    refine ⟨hall forest .top, ?_⟩
    intro header children hwrapper siblings hlevel
    apply hall
    induction hlevel with
    | top => exact .inside .top hwrapper
    | inside _ hinner ih => exact .inside ih hinner
  · rintro ⟨htop, hbelow⟩ siblings hlevel
    -- Each level is the forest or a level of one of its wrappers.
    have hsplit : siblings = forest ∨ ∃ header children,
        .wrapper header children ∈ forest ∧ Level children siblings := by
      induction hlevel with
      | top => exact .inl rfl
      | inside _ hinner ih =>
        rcases ih with rfl | ⟨header, children, hwrapper, hlevel⟩
        · exact .inr ⟨_, _, hinner, .top⟩
        · exact .inr ⟨header, children, hwrapper, .inside hlevel hinner⟩
    rcases hsplit with rfl | ⟨header, children, hwrapper, hlevel⟩
    · exact htop
    · exact hbelow header children hwrapper siblings hlevel

/-- What nesting keeps up in each list of siblings. -/
structure Tidy (siblings : List Node) : Prop where
  parted : Parted siblings
  filled : ∀ node ∈ siblings, node.Filled

theorem place_ne_nil (block : Block) (headers : List Text) (forest : List Node) :
    place block headers forest ≠ [] := by
  cases headers with
  | nil => simp [place]
  | cons header headers =>
    rcases place_cons block header headers forest with ⟨front, children, rfl, hplace⟩ | ⟨_, hplace⟩
    · simp [hplace]
    · simp [hplace]

theorem parted_concat {siblings : List Node} {node : Node} (hparted : Parted siblings)
    (hlast : ∀ last, siblings.getLast? = some last →
      ∀ header, last.header? = some header → node.header? ≠ some header) :
    Parted (siblings ++ [node]) := by
  apply List.isChain_append.mpr
  refine ⟨hparted, .singleton node, ?_⟩
  intro last hmem first hfirst
  obtain rfl : node = first := by simpa using hfirst
  exact hlast last hmem

/-- One more sibling at the end keeps a forest tidy. -/
theorem tidy_concat {siblings : List Node} {node : Node} (hsiblings : Throughout Tidy siblings)
    (hlast : ∀ last, siblings.getLast? = some last →
      ∀ header, last.header? = some header → node.header? ≠ some header)
    (hfilled : node.Filled)
    (hbelow : ∀ header children, node = .wrapper header children → Throughout Tidy children) :
    Throughout Tidy (siblings ++ [node]) := by
  obtain ⟨htop, hinner⟩ := throughout_iff.mp hsiblings
  refine throughout_iff.mpr ⟨⟨parted_concat htop.parted hlast, ?_⟩, ?_⟩
  · intro other hother
    rcases List.mem_append.mp hother with hold | hnew
    · exact htop.filled other hold
    · rwa [List.mem_singleton.mp hnew]
  · intro header children hwrapper
    rcases List.mem_append.mp hwrapper with hold | hnew
    · exact hinner header children hold
    · exact hbelow header children (List.mem_singleton.mp hnew).symm

theorem tidy_of_concat {siblings : List Node} {node : Node}
    (hforest : Throughout Tidy (siblings ++ [node])) : Throughout Tidy siblings := by
  obtain ⟨htop, hinner⟩ := throughout_iff.mp hforest
  refine throughout_iff.mpr ⟨⟨(List.isChain_append.mp htop.parted).1, ?_⟩, ?_⟩
  · exact fun other hother => htop.filled other (List.mem_append_left _ hother)
  · exact fun header children hwrapper => hinner header children (List.mem_append_left _ hwrapper)

theorem tidy_place {block : Block} (hblock : block.declarations ≠ []) (headers : List Text)
    {forest : List Node} (hforest : Throughout Tidy forest) :
    Throughout Tidy (place block headers forest) := by
  induction headers generalizing forest with
  | nil => exact tidy_concat hforest (by simp [Node.header?]) hblock (by simp)
  | cons header headers ih =>
    rcases place_cons block header headers forest with
      ⟨front, children, rfl, hplace⟩ | ⟨hlast, hplace⟩
    · obtain ⟨htop, hbelow⟩ := throughout_iff.mp hforest
      rw [hplace]
      refine tidy_concat (tidy_of_concat hforest) ?_ (place_ne_nil block headers children) ?_
      · -- The headers are those from before, and being parted is about headers only.
        obtain ⟨-, -, hend⟩ := List.isChain_append.mp htop.parted
        exact fun last hmem => hend last hmem (.wrapper header children) rfl
      · rintro _ _ ⟨⟩
        exact ih (hbelow header children (by simp))
    · rw [hplace]
      refine tidy_concat hforest ?_ (place_ne_nil block headers []) ?_
      · intro last hmem other hother hsame
        cases last with
        | block => simp [Node.header?] at hother
        | wrapper name children =>
          obtain rfl := Option.some.inj hother
          obtain rfl := Option.some.inj hsame
          exact hlast children hmem
      · rintro _ _ ⟨⟩
        exact ih (throughout_iff.mpr ⟨⟨.nil, by simp⟩, by simp⟩)

theorem tidy_nest {blocks : List Block} (hblocks : ∀ block ∈ blocks, block.declarations ≠ []) :
    Throughout Tidy (nest blocks) := by
  induction blocks using List.reverseRecOn with
  | nil => exact throughout_iff.mpr ⟨⟨.nil, by simp [nest]⟩, by simp [nest]⟩
  | append_singleton blocks block ih =>
    rw [nest_concat]
    apply tidy_place
    · exact hblocks block (by simp)
    · apply ih
      intro other hother
      exact hblocks other (List.mem_append_left _ hother)

/-! ### Layers -/

/-- What results are sorted by: the sort key, then the number of variants. -/
def propertyOrder (styled : Styled) : Int ×ₗ Nat :=
  toLex (styled.sortKey, styled.token.variants.length)

theorem precedes_eq : precedes = fun a b => decide (propertyOrder a ≤ propertyOrder b) := by
  funext a b
  simp [precedes, propertyOrder, Prod.Lex.toLex_le_toLex, Bool.decide_or, Bool.decide_and,
    beq_eq_decide]

/-- `ordered` are the results of one layer that declare something, in output order. -/
def Ordered (options : Options) (results : List Styled) (layer : Layer)
    (ordered : List Styled) : Prop :=
  let given := results.filter fun styled => !styled.isEmpty && styled.layer == layer
  if options.sortByProperty then StablySorted propertyOrder given ordered else ordered = given

theorem ordered_inLayer (options : Options) (results : List Styled) (layer : Layer) :
    Ordered options results layer (inLayer options results layer) := by
  unfold Ordered inLayer
  split
  · rw [precedes_eq]
    exact stablySorted_stableSort _
  · rfl

/-- A forest arranges supplies: it has one block for each place that they go to, inside the
headers of that place, with the declarations that go there. -/
structure Arranged (supplies : List Supply) (forest : List Node) : Prop where
  places : (readAll [] forest).map (fun entry => entry.2.key) = (supplies.map Supply.key).eraseDups
  headers {path : List Text} {block : Block} (hread : (path, block) ∈ readAll [] forest) :
    path = block.atRules
  properties {path : List Text} {block : Block} (hread : (path, block) ∈ readAll [] forest) :
    block.declarations.keys = ((suppliedTo block.key supplies).map Prod.fst).eraseDups
  values {path : List Text} {block : Block} (hread : (path, block) ∈ readAll [] forest)
    (property : Text) :
    block.declarations.get? property = Table.get? (suppliedTo block.key supplies).reverse property
  parted : Throughout Parted forest

theorem declarations_ne_nil {styled : Styled} {supply : Supply}
    (hsupply : supply ∈ supplies styled) : supply.declarations ≠ [] := by
  obtain ⟨piece, hpiece, rfl⟩ := List.mem_map.mp hsupply
  exact of_decide_eq_true (List.mem_filter.mp hpiece).2

theorem merged_ne_nil {supplies : List Supply}
    (hfull : ∀ supply ∈ supplies, supply.declarations ≠ [])
    {block : Block} (hblock : block ∈ merge supplies) : block.declarations ≠ [] := by
  have hkey : block.key ∈ supplies.map Supply.key := by
    rw [← List.mem_eraseDups, ← keys_merge]
    exact List.mem_map_of_mem hblock
  obtain ⟨supply, hsupply, hsame⟩ := List.mem_map.mp hkey
  rw [declarations_merge hblock]
  apply Table.ofEntries_ne_nil
  obtain ⟨entry, hentry⟩ := List.exists_mem_of_ne_nil _ (hfull supply hsupply)
  apply List.ne_nil_of_mem (a := entry)
  simp only [suppliedTo, List.mem_flatMap, List.mem_filter, decide_eq_true_eq]
  exact ⟨supply, ⟨hsupply, hsame⟩, hentry⟩

theorem tidy_layerForest (options : Options) (results : List Styled) (layer : Layer) :
    Throughout Tidy (layerForest options results layer) := by
  apply tidy_nest
  intro block hblock
  refine merged_ne_nil ?_ hblock
  intro supply hsupply
  obtain ⟨styled, -, hsupply⟩ := List.mem_flatMap.mp hsupply
  exact declarations_ne_nil hsupply

theorem mem_readAll_nest {blocks : List Block} {path : List Text} {block : Block}
    (hread : (path, block) ∈ readAll [] (nest blocks)) : path = block.atRules ∧ block ∈ blocks := by
  rw [readAll_nest] at hread
  obtain ⟨other, hother, hsame⟩ := List.mem_map.mp hread
  obtain ⟨rfl, rfl⟩ := Prod.mk.inj hsame
  exact ⟨rfl, hother⟩

theorem arranged_layerForest (options : Options) (results : List Styled) (layer : Layer) :
    Arranged ((inLayer options results layer).flatMap supplies)
      (layerForest options results layer) where
  places := by
    rw [layerForest, readAll_nest, ← keys_merge, List.map_map]
    rfl
  headers hread := (mem_readAll_nest hread).1
  properties hread := by
    rw [declarations_merge (mem_readAll_nest hread).2, Table.keys_ofEntries]
  values hread property := by
    rw [declarations_merge (mem_readAll_nest hread).2, Table.get?_ofEntries]
  parted siblings hlevel := (tidy_layerForest options results layer siblings hlevel).parted

theorem supplies_ne_nil {styled : Styled} (hstyled : styled.isEmpty = false) :
    supplies styled ≠ [] := by
  intro hnone
  simp only [supplies, List.map_eq_nil_iff, List.filter_eq_nil_iff, List.mem_cons,
    decide_eq_true_eq, not_not] at hnone
  have hdeclarations : styled.declarations = [] := hnone _ (.inl rfl)
  have hnested : styled.nested.all (·.2 == []) = true := by
    rw [List.all_eq_true]
    intro piece hpiece
    exact beq_iff_eq.mpr (hnone piece (.inr hpiece))
  rw [Styled.isEmpty, hdeclarations, hnested] at hstyled
  exact absurd hstyled (by decide)

theorem mem_inLayer {options : Options} {results : List Styled} {layer : Layer}
    {styled : Styled} :
    styled ∈ inLayer options results layer ↔
      styled ∈ results ∧ styled.isEmpty = false ∧ styled.layer = layer := by
  have hmem : styled ∈ inLayer options results layer ↔
      styled ∈ results.filter fun styled => !styled.isEmpty && styled.layer == layer := by
    have hordered := ordered_inLayer options results layer
    unfold Ordered at hordered
    split at hordered
    · exact hordered.mem_iff
    · rw [hordered]
  rw [hmem, List.mem_filter, Bool.and_eq_true, Bool.not_eq_true', beq_iff_eq]

theorem layerForest_ne_nil {options : Options} {results : List Styled} {layer : Layer}
    (hresults : inLayer options results layer ≠ []) : layerForest options results layer ≠ [] := by
  intro hnone
  have hplaces := (arranged_layerForest options results layer).places
  rw [hnone] at hplaces
  obtain ⟨styled, hstyled⟩ := List.exists_mem_of_ne_nil _ hresults
  obtain ⟨supply, hsupply⟩ :=
    List.exists_mem_of_ne_nil _ (supplies_ne_nil (mem_inLayer.mp hstyled).2.1)
  have hkey : supply.key ∈ (((inLayer options results layer).flatMap supplies).map
      Supply.key).eraseDups := by
    rw [List.mem_eraseDups]
    exact List.mem_map_of_mem (List.mem_flatMap.mpr ⟨styled, hstyled, hsupply⟩)
  rw [← hplaces] at hkey
  exact absurd hkey List.not_mem_nil

/-- The headers that stand around a whole layer. -/
def layerHeaders (options : Options) (layer : Layer) : List Text :=
  if options.useLayers then ["@layer " ++ layer.name] else []

theorem readAll_layerSection (options : Options) (results : List Styled) (layer : Layer) :
    readAll [] (layerSection options results layer) =
      (readAll [] (layerForest options results layer)).map
        (Prod.map (layerHeaders options layer ++ ·) id) := by
  rw [← readAll_behind, List.append_nil]
  simp only [layerSection, layerHeaders]
  cases options.useLayers with
  | false => rfl
  | true =>
    by_cases hresults : inLayer options results layer = []
    · simp [hresults, layerForest, merge, nest, readAll]
    · simp [hresults, readAll, Node.read]

theorem filled_layerSection (options : Options) (results : List Styled) (layer : Layer) :
    Throughout (∀ node ∈ ·, node.Filled) (layerSection options results layer) := by
  have hforest : Throughout (∀ node ∈ ·, node.Filled) (layerForest options results layer) := by
    intro siblings hlevel
    exact (tidy_layerForest options results layer siblings hlevel).filled
  simp only [layerSection]
  split
  · rename_i hlayer
    rw [Bool.and_eq_true, decide_eq_true_eq] at hlayer
    refine throughout_iff.mpr ⟨?_, ?_⟩
    · intro node hnode
      obtain rfl := List.mem_singleton.mp hnode
      exact layerForest_ne_nil hlayer.2
    · intro header children hwrapper
      obtain ⟨rfl, rfl⟩ := Node.wrapper.inj (List.mem_singleton.mp hwrapper)
      exact hforest
  · exact hforest

theorem Throughout.append {P : Node → Prop} {forest more : List Node}
    (hforest : Throughout (∀ node ∈ ·, P node) forest)
    (hmore : Throughout (∀ node ∈ ·, P node) more) :
    Throughout (∀ node ∈ ·, P node) (forest ++ more) := by
  obtain ⟨hforestTop, hforestBelow⟩ := throughout_iff.mp hforest
  obtain ⟨hmoreTop, hmoreBelow⟩ := throughout_iff.mp hmore
  refine throughout_iff.mpr ⟨?_, ?_⟩
  · intro node hnode
    rcases List.mem_append.mp hnode with hnode | hnode
    · exact hforestTop node hnode
    · exact hmoreTop node hnode
  · intro header children hwrapper
    rcases List.mem_append.mp hwrapper with hwrapper | hwrapper
    · exact hforestBelow header children hwrapper
    · exact hmoreBelow header children hwrapper

/-- The layers come one after the other. The forest of each arranges what its results
supply, nothing in it is empty, and wrappers that could be one are one. -/
theorem build_structure (options : Options) (results : List Styled) :
    (∀ layer, ∃ ordered, Ordered options results layer ordered ∧
        Arranged (ordered.flatMap supplies) (layerForest options results layer)) ∧
      readAll [] (build options results) =
        [Layer.base, Layer.components, Layer.utilities].flatMap (fun layer =>
          (readAll [] (layerForest options results layer)).map
            (Prod.map (layerHeaders options layer ++ ·) id)) ∧
      Throughout (∀ node ∈ ·, node.Filled) (build options results) := by
  have hbuild : build options results = layerSection options results .base ++
      (layerSection options results .components ++ layerSection options results .utilities) := by
    simp [build, Layer.all]
  refine ⟨?_, ?_, ?_⟩
  · intro layer
    exact ⟨_, ordered_inLayer options results layer, arranged_layerForest options results layer⟩
  · rw [hbuild, readAll_append, readAll_append]
    simp only [readAll_layerSection, List.flatMap_cons, List.flatMap_nil, List.append_nil]
  · rw [hbuild]
    have hfilled := filled_layerSection options results
    exact (hfilled .base).append ((hfilled .components).append (hfilled .utilities))

end Stylesheet

end UtilityCss
