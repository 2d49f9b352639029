import UtilityCss.Proofs.StylesheetStructure

/-!
# The order of blocks

Whether the block of one result stands before the block of another is decided by their
layers, and within one layer by which of the two places is supplied first. A result that
repeats an earlier one adds to the block of that one, so it does not move to the end.
-/

namespace UtilityCss

section Order

variable {α β ι : Type}

/-- An item of one kind stands before an item of another. -/
def Precedes (items : List α) (early late : α → Prop) : Prop :=
  ∃ a b, [a, b].Sublist items ∧ early a ∧ late b

variable {early late : α → Prop}

theorem Precedes.exists_early {items : List α} (hitems : Precedes items early late) :
    ∃ a ∈ items, early a := by
  obtain ⟨a, b, hsublist, ha, -⟩ := hitems
  exact ⟨a, hsublist.subset (by simp), ha⟩

theorem Precedes.exists_late {items : List α} (hitems : Precedes items early late) :
    ∃ b ∈ items, late b := by
  obtain ⟨a, b, hsublist, -, hb⟩ := hitems
  exact ⟨b, hsublist.subset (by simp), hb⟩

theorem precedes_congr {items : List α} {first second : α → Prop}
    (hearly : ∀ a ∈ items, (early a ↔ first a)) (hlate : ∀ b ∈ items, (late b ↔ second b)) :
    Precedes items early late ↔ Precedes items first second := by
  refine exists_congr fun a => exists_congr fun b => and_congr_right fun hsublist => ?_
  exact and_congr (hearly a (hsublist.subset (by simp))) (hlate b (hsublist.subset (by simp)))

/-- In two lists one behind the other, both items stand in one of them or each in its own. -/
theorem precedes_append (items more : List α) :
    Precedes (items ++ more) early late ↔ Precedes items early late ∨
      ((∃ a ∈ items, early a) ∧ ∃ b ∈ more, late b) ∨ Precedes more early late := by
  constructor
  · rintro ⟨a, b, hsublist, ha, hb⟩
    obtain ⟨front, back, hsplit, hfront, hback⟩ := List.sublist_append_iff.mp hsublist
    rcases front with _ | ⟨first, _ | ⟨second, rest⟩⟩
    · exact .inr (.inr ⟨a, b, by simpa [hsplit] using hback, ha, hb⟩)
    · obtain ⟨rfl, rfl⟩ : a = first ∧ [b] = back := by simpa using hsplit
      exact .inr (.inl ⟨⟨a, by simpa using hfront, ha⟩, b, by simpa using hback, hb⟩)
    · obtain ⟨rfl, rfl, rfl, -⟩ : a = first ∧ b = second ∧ rest = [] ∧ back = [] := by
        simpa using hsplit
      exact .inl ⟨a, b, hfront, ha, hb⟩
  · rintro (⟨a, b, hsublist, ha, hb⟩ | ⟨⟨a, hmem, ha⟩, b, hmore, hb⟩ | ⟨a, b, hsublist, ha, hb⟩)
    · exact ⟨a, b, hsublist.trans (List.sublist_append_left _ _), ha, hb⟩
    · refine ⟨a, b, ?_, ha, hb⟩
      exact (List.singleton_sublist.mpr hmem).append (List.singleton_sublist.mpr hmore)
    · exact ⟨a, b, hsublist.trans (List.sublist_append_right _ _), ha, hb⟩

theorem precedes_map {f : α → β} {items : List α} {early late : β → Prop} :
    Precedes (items.map f) early late ↔ Precedes items (early ∘ f) (late ∘ f) := by
  constructor
  · rintro ⟨x, y, hsublist, hx, hy⟩
    obtain ⟨chosen, hchosen, hmap⟩ := List.sublist_map_iff.mp hsublist
    obtain ⟨a, b, rfl, rfl, rfl⟩ : ∃ a b, chosen = [a, b] ∧ x = f a ∧ y = f b := by
      rcases chosen with _ | ⟨a, _ | ⟨b, _ | ⟨c, rest⟩⟩⟩ <;> simp at hmap ⊢
      exact hmap
    exact ⟨a, b, hchosen, hx, hy⟩
  · rintro ⟨a, b, hsublist, ha, hb⟩
    exact ⟨f a, f b, hsublist.map f, ha, hb⟩

theorem not_precedes_singleton (item : α) : ¬ Precedes [item] early late := by
  rintro ⟨a, b, hsublist, -⟩
  exact absurd hsublist.length_le (by simp)

/-- What follows a list changes nothing in front of an item of the list. -/
theorem idxOf_lt_idxOf_append [BEq α] [LawfulBEq α] {items : List α} {x y : α} (hy : y ∈ items)
    (more : List α) :
    (items ++ more).idxOf x < (items ++ more).idxOf y ↔ items.idxOf x < items.idxOf y := by
  rw [List.idxOf_append_of_mem hy]
  by_cases hx : x ∈ items
  · rw [List.idxOf_append_of_mem hx]
  · rw [List.idxOf_append_of_notMem hx, List.idxOf_eq_length hx]
    have hlength := List.idxOf_lt_length_of_mem hy
    omega

/-- Without repetitions, items stand in the order of their first places. -/
theorem precedes_eraseDups [BEq α] [LawfulBEq α] {items : List α} {x y : α} (hy : y ∈ items) :
    Precedes items.eraseDups (· = x) (· = y) ↔ items.idxOf x < items.idxOf y := by
  induction items using List.reverseRecOn with
  | nil => cases hy
  | append_singleton items item ih =>
    rw [eraseDups_concat]
    by_cases hitem : item ∈ items
    · have hearlier : y ∈ items := by
        rcases List.mem_append.mp hy with hmem | hmem
        · exact hmem
        · rwa [List.mem_singleton.mp hmem]
      rw [if_pos hitem, ih hearlier, idxOf_lt_idxOf_append hearlier]
    · rw [if_neg hitem, precedes_append, or_iff_left (not_precedes_singleton item)]
      by_cases hlast : y = item
      · -- The item is new, so it stands behind exactly those that were there before.
        subst hlast
        have hfirst : ¬ Precedes items.eraseDups (· = x) (· = y) := by
          intro hprecedes
          obtain ⟨b, hb, rfl⟩ := hprecedes.exists_late
          exact hitem (List.mem_eraseDups.mp hb)
        rw [or_iff_right hfirst, List.idxOf_append_of_notMem hitem, List.idxOf_cons_self]
        by_cases hx : x ∈ items
        · have hlength := List.idxOf_lt_length_of_mem hx
          rw [List.idxOf_append_of_mem hx]
          simp [hx, hlength]
        · rw [List.idxOf_append_of_notMem hx]
          simp [hx]
      · have hearlier : y ∈ items := by simpa [hlast] using hy
        have hsecond : ¬ ∃ b ∈ [item], b = y := by
          rintro ⟨b, hb, rfl⟩
          exact hlast (List.mem_singleton.mp hb)
        rw [or_iff_left (fun hboth => hsecond hboth.2), ih hearlier,
          idxOf_lt_idxOf_append hearlier]

/-- If each kind has its items in one part only, the order of the parts decides, and within
one part the order there. -/
theorem precedes_flatMap [DecidableEq ι] {parts : List ι} {f : ι → List α} {i j : ι}
    (hparts : parts.Nodup) (hi : i ∈ parts) (hj : j ∈ parts)
    (hearly : ∀ k, ∀ a ∈ f k, early a → k = i) (hlate : ∀ k, ∀ b ∈ f k, late b → k = j)
    (hfirst : ∃ a ∈ f i, early a) (hsecond : ∃ b ∈ f j, late b) :
    Precedes (parts.flatMap f) early late ↔
      parts.idxOf i < parts.idxOf j ∨ i = j ∧ Precedes (f i) early late := by
  induction parts with
  | nil => cases hi
  | cons k rest ih =>
    rw [List.nodup_cons] at hparts
    rw [List.flatMap_cons, precedes_append]
    -- A kind whose part is the first one has no items in the others.
    have hgone {kind : α → Prop} (hkind : ∀ m, ∀ a ∈ f m, kind a → m = k) :
        ¬ ∃ a ∈ rest.flatMap f, kind a := by
      rintro ⟨a, ha, hkinda⟩
      obtain ⟨m, hm, ham⟩ := List.mem_flatMap.mp ha
      exact hparts.1 (hkind m a ham hkinda ▸ hm)
    by_cases hki : k = i
    · subst hki
      have hthird : ¬ Precedes (rest.flatMap f) early late := (hgone hearly ·.exists_early)
      rw [List.idxOf_cons_self, or_iff_left hthird]
      by_cases hkj : k = j
      · subst hkj
        have hsecond := hgone hlate
        rw [or_iff_left (hsecond ·.2), List.idxOf_cons_self]
        simp
      · have hrest : j ∈ rest := (List.mem_cons.mp hj).resolve_left (Ne.symm hkj)
        obtain ⟨b, hb, hlateb⟩ := hsecond
        rw [List.idxOf_cons_ne _ hkj]
        refine iff_of_true (.inr ⟨hfirst, b, ?_, hlateb⟩) (.inl (Nat.succ_pos _))
        exact List.mem_flatMap.mpr ⟨j, hrest, hb⟩
    · have hnone : ¬ ∃ a ∈ f k, early a := fun ⟨a, ha, hearlya⟩ => hki (hearly k a ha hearlya)
      have hrest : i ∈ rest := (List.mem_cons.mp hi).resolve_left (Ne.symm hki)
      rw [or_iff_right (hnone ·.exists_early), or_iff_right (hnone ·.1), List.idxOf_cons_ne _ hki]
      by_cases hkj : k = j
      · subst hkj
        have hthird : ¬ Precedes (rest.flatMap f) early late := (hgone hlate ·.exists_late)
        rw [List.idxOf_cons_self]
        simp [hthird, Ne.symm hki]
      · have hlater : j ∈ rest := (List.mem_cons.mp hj).resolve_left (Ne.symm hkj)
        rw [List.idxOf_cons_ne _ hkj, ih hparts.2 hrest hlater, Nat.succ_lt_succ_iff]

end Order

/-- Where the declarations of a result go: its at-rules and its selector. -/
def Styled.place (styled : Styled) : List Text × Text := (styled.atRules, styled.selector)

namespace Stylesheet

/-- The blocks of a stylesheet from first to last. -/
def blocks (options : Options) (results : List Styled) : List Block :=
  (readAll [] (build options results)).map (·.2)

/-- The block has taken in the declarations of a result. -/
def Block.IsOf (block : Block) (styled : Styled) : Prop :=
  block.key = styled.place ∧ styled.token.raw ∈ block.sources

/-- What the results of one layer supply, in output order. -/
def layerSupplies (options : Options) (results : List Styled) (layer : Layer) : List Supply :=
  (inLayer options results layer).flatMap supplies

theorem blocks_eq (options : Options) (results : List Styled) :
    blocks options results =
      Layer.all.flatMap fun layer => merge (layerSupplies options results layer) := by
  have hlayer (layer : Layer) : (readAll [] (layerSection options results layer)).map (·.2) =
      merge (layerSupplies options results layer) := by
    rw [readAll_layerSection, layerForest, readAll_nest, List.map_map, List.map_map]
    exact List.map_id' _
  simp only [blocks, build, Layer.all, List.flatMap_cons, List.flatMap_nil, List.append_nil,
    readAll_append, List.map_append, hlayer]

/-- The sources of a block are the class names that supply its place, in order of first supply. -/
theorem sources_merge {supplies : List Supply} {block : Block} (hblock : block ∈ merge supplies) :
    block.sources = ((supplies.filter (·.key = block.key)).map Supply.raw).eraseDups := by
  induction supplies using List.reverseRecOn generalizing block with
  | nil => exact absurd hblock List.not_mem_nil
  | append_singleton supplies supply ih =>
    have hkeys := keys_merge supplies
    have hnodup : ((merge supplies).map Block.key).Nodup := hkeys ▸ nodup_eraseDups _
    have hadded {old : Block} (hold : old.key = supply.key)
        (hsources : old.sources = ((supplies.filter (·.key = old.key)).map Supply.raw).eraseDups) :
        (supply.addTo old).sources =
          (((supplies ++ [supply]).filter (·.key = old.key)).map Supply.raw).eraseDups := by
      have hlast : [supply].filter (·.key = old.key) = [supply] := by simp [hold]
      rw [List.filter_append, hlast, List.map_append, List.map_singleton, eraseDups_concat]
      have hknown : supply.raw ∈ (supplies.filter (·.key = old.key)).map Supply.raw ↔
          old.sources.contains supply.raw := by
        rw [hsources, List.contains_iff_mem, List.mem_eraseDups]
      simp only [hknown, ← hsources]
      rfl
    rw [merge_concat] at hblock
    rcases mem_insert hnodup hblock with ⟨hmem, hne⟩ | ⟨old, hold, rfl, hmem | ⟨⟨-, hempty⟩, hnew⟩⟩
    · have hlast : [supply].filter (·.key = block.key) = [] := by simp [Ne.symm hne]
      rw [ih hmem, List.filter_append, hlast, List.append_nil]
    · exact hadded hold (ih hmem)
    · apply hadded hold
      have hnone : supplies.filter (·.key = old.key) = [] := by
        rw [List.filter_eq_nil_iff]
        intro other hother hkey
        rw [hkeys, List.mem_eraseDups, ← hold, ← of_decide_eq_true hkey] at hnew
        exact hnew (List.mem_map_of_mem hother)
      rw [hempty, hnone]
      rfl

theorem mem_sources_merge {supplies : List Supply} {block : Block} (hblock : block ∈ merge supplies)
    {raw : Text} :
    raw ∈ block.sources ↔ ∃ supply ∈ supplies, supply.key = block.key ∧ supply.raw = raw := by
  rw [sources_merge hblock, List.mem_eraseDups]
  simp [and_assoc]

section Results

variable {options : Options} {results : List Styled}

/-- The supply of a result for its own selector. -/
theorem exists_supply {styled : Styled} (hstyled : styled ∈ results)
    (hfull : styled.declarations ≠ []) :
    ∃ supply ∈ layerSupplies options results styled.layer,
      supply.key = styled.place ∧ supply.raw = styled.token.raw := by
  refine ⟨⟨styled.atRules, styled.selector, styled.declarations, styled.token.raw⟩, ?_, rfl, rfl⟩
  have hlayer : styled ∈ inLayer options results styled.layer := by
    rw [mem_inLayer]
    refine ⟨hstyled, ?_, rfl⟩
    simp [Styled.isEmpty, hfull]
  apply List.mem_flatMap.mpr
  refine ⟨styled, hlayer, List.mem_map.mpr ⟨(styled.selector, styled.declarations), ?_, rfl⟩⟩
  simp [hfull]

theorem isOf_iff_key {styled : Styled} (hstyled : styled ∈ results)
    (hfull : styled.declarations ≠ []) {block : Block}
    (hblock : block ∈ merge (layerSupplies options results styled.layer)) :
    block.IsOf styled ↔ block.key = styled.place := by
  refine ⟨And.left, fun hkey => ⟨hkey, ?_⟩⟩
  obtain ⟨supply, hsupply, hplace, hraw⟩ := exists_supply hstyled hfull
  exact (mem_sources_merge hblock).mpr ⟨supply, hsupply, hplace.trans hkey.symm, hraw⟩

/-- If class names determine results, a result has its block in its own layer only. -/
theorem layer_of_isOf
    (huniform : ∀ a ∈ results, ∀ b ∈ results, a.token.raw = b.token.raw → a = b)
    {styled : Styled} (hstyled : styled ∈ results) {layer : Layer} {block : Block}
    (hblock : block ∈ merge (layerSupplies options results layer)) (hof : block.IsOf styled) :
    layer = styled.layer := by
  obtain ⟨supply, hsupply, -, hraw⟩ := (mem_sources_merge hblock).mp hof.2
  obtain ⟨other, hother, hpiece⟩ := List.mem_flatMap.mp hsupply
  obtain ⟨hmem, -, hlayer⟩ := mem_inLayer.mp hother
  have hsource : supply.raw = other.token.raw := by
    obtain ⟨piece, -, rfl⟩ := List.mem_map.mp hpiece
    rfl
  rw [← hlayer, huniform other hmem styled hstyled (hsource.symm.trans hraw)]

/-- The place where a result comes in among those that its layer supplies. -/
def firstSupply (options : Options) (results : List Styled) (styled : Styled) : Nat :=
  ((layerSupplies options results styled.layer).map Supply.key).idxOf styled.place

theorem exists_block {styled : Styled} (hstyled : styled ∈ results)
    (hfull : styled.declarations ≠ []) :
    ∃ block ∈ merge (layerSupplies options results styled.layer), block.IsOf styled := by
  obtain ⟨supply, hsupply, hplace, -⟩ := @exists_supply options results styled hstyled hfull
  have hkey : styled.place ∈
      (merge (layerSupplies options results styled.layer)).map Block.key := by
    rw [keys_merge, List.mem_eraseDups, ← hplace]
    exact List.mem_map_of_mem hsupply
  obtain ⟨block, hblock, hsame⟩ := List.mem_map.mp hkey
  exact ⟨block, hblock, (isOf_iff_key hstyled hfull hblock).mpr hsame⟩

/-- The block of one result stands before that of another if its layer comes first, or if the
layer is the same and its place is the first to be supplied. -/
theorem precedes_blocks
    (huniform : ∀ a ∈ results, ∀ b ∈ results, a.token.raw = b.token.raw → a = b)
    {early late : Styled} (hearly : early ∈ results) (hlate : late ∈ results)
    (hfirst : early.declarations ≠ []) (hsecond : late.declarations ≠ []) :
    Precedes (blocks options results) (·.IsOf early) (·.IsOf late) ↔
      Layer.all.idxOf early.layer < Layer.all.idxOf late.layer ∨
        early.layer = late.layer ∧
          firstSupply options results early < firstSupply options results late := by
  have hall (layer : Layer) : layer ∈ Layer.all := by cases layer <;> decide
  rw [blocks_eq, precedes_flatMap (by decide) (hall early.layer) (hall late.layer)
    (fun _ _ hblock hof => layer_of_isOf huniform hearly hblock hof)
    (fun _ _ hblock hof => layer_of_isOf huniform hlate hblock hof)
    (exists_block hearly hfirst) (exists_block hlate hsecond)]
  refine or_congr_right (and_congr_right fun hlayer => ?_)
  obtain ⟨supply, hsupply, hplace, -⟩ := @exists_supply options results late hlate hsecond
  have hkey : late.place ∈ (layerSupplies options results late.layer).map Supply.key :=
    hplace ▸ List.mem_map_of_mem hsupply
  rw [firstSupply, firstSupply, hlayer, ← precedes_eraseDups hkey, ← keys_merge, precedes_map]
  apply precedes_congr
  · intro block hblock
    rw [← hlayer] at hblock
    exact isOf_iff_key hearly hfirst hblock
  · intro block hblock
    exact isOf_iff_key hlate hsecond hblock

theorem precedes_of_layer
    (huniform : ∀ a ∈ results, ∀ b ∈ results, a.token.raw = b.token.raw → a = b)
    {early late : Styled} (hearly : early ∈ results) (hlate : late ∈ results)
    (hfirst : early.declarations ≠ []) (hsecond : late.declarations ≠ [])
    (hlayers : Layer.all.idxOf early.layer < Layer.all.idxOf late.layer) :
    Precedes (blocks options results) (·.IsOf early) (·.IsOf late) ∧
      ¬ Precedes (blocks options results) (·.IsOf late) (·.IsOf early) := by
  rw [precedes_blocks huniform hearly hlate hfirst hsecond,
    precedes_blocks huniform hlate hearly hsecond hfirst]
  refine ⟨.inl hlayers, ?_⟩
  rintro (hlayer | ⟨hsame, -⟩)
  · omega
  · rw [hsame] at hlayers
    exact Nat.lt_irrefl _ hlayers

end Results

end Stylesheet

end UtilityCss
