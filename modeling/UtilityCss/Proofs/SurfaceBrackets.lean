import UtilityCss.Proofs.BracketKinds
import UtilityCss.Proofs.BracketRules
import UtilityCss.Proofs.Contributions
import UtilityCss.Proofs.EngineFaults

/-!
# Colours and measures behind one lead

Behind the leads of text, borders and rings, a key in brackets can be a colour, or it can be a font
size or a width. The rules of colours pass over all keys but colours, the rules of the other
plug-ins over all but sizes and widths, and no key is both. So the place of the plug-in of colours
among the others makes no difference to such a body, whatever the theme is and whatever plug-ins
are installed before and behind.
-/

namespace UtilityCss

/-- With a key in brackets, the computation does not depend on the theme. -/
def Compute.Unthemed (compute : Compute) : Prop :=
  ∀ found theme key, found.named "value" = .ok (some key) → Payload.isBracketed key = true →
    compute found theme = compute found []

/-- What the rule computes for a key in brackets does not depend on the theme. -/
def Rule.Unthemed (rule : Rule) : Prop :=
  ∀ compute, rule.body = .computed compute → compute.Unthemed

namespace Catalog

/-- The leads that colours share with font sizes and widths. -/
def surfaceLeads : List Text := ["text-", "border-", "ring-"]

/-! ## Computations without the theme -/

theorem unthemed_color : color.Unthemed := by
  intro found theme key hkey hbracket
  rw [color, color, Match.text_of_named hkey, ok_bind, ok_bind,
    Theme.color?_of_isBracketed hbracket theme]

theorem unthemed_nestedColor (template property : Text) :
    (nestedColor template property).Unthemed := by
  intro found theme key hkey hbracket
  rw [nestedColor, nestedColor, Match.text_of_named hkey, ok_bind, ok_bind,
    Theme.color?_of_isBracketed hbracket theme]

theorem unthemed_fontSize : fontSize.Unthemed := by
  intro found theme key hkey hbracket
  rw [fontSize, fontSize, Match.text_of_named hkey, ok_bind, ok_bind, if_pos hbracket,
    if_pos hbracket]

theorem unthemed_font : font.Unthemed := by
  intro found theme key hkey hbracket
  rw [font, font, Match.text_of_named hkey, ok_bind, ok_bind, if_pos hbracket, if_pos hbracket]

theorem unthemed_plain (properties : List Text) (scale : Text) :
    (fromEntry properties fun key theme => theme.plain? scale key).Unthemed := by
  intro found theme key hkey hbracket
  simp only [fromEntry, fromValue, Match.text_of_named hkey, ok_bind, Theme.plain?,
    if_pos hbracket]

theorem scaled?_of_isBracketed {key : Text} (hkey : Payload.isBracketed key = true) (theme : Theme)
    (scale : Text) : scaled? theme scale (some key) = scaled? [] scale (some key) := by
  rw [scaled?, scaled?, if_pos hkey, if_pos hkey, Theme.length?_of_isBracketed hkey]

theorem unthemed_scaledSides (scale group : Text) (properties : Table Text (List Text)) :
    (scaledSides scale group properties).Unthemed := by
  intro found theme key hkey hbracket
  rw [scaledSides, scaledSides, hkey, ok_bind, ok_bind, scaled?_of_isBracketed hbracket]

theorem unthemed_divideWidth : divideWidth.Unthemed := by
  intro found theme key hkey hbracket
  rw [divideWidth, divideWidth, hkey, ok_bind, ok_bind, scaled?_of_isBracketed hbracket]

theorem unthemed_ring : ring.Unthemed := by
  intro found theme key hkey hbracket
  rw [ring, ring, hkey, ok_bind, ok_bind, ringWidth?, ringWidth?, if_pos hbracket, if_pos hbracket,
    Theme.length?_of_isBracketed hbracket]

theorem unthemed_of_body {rule : Rule} {compute : Compute} (hbody : rule.body = .computed compute)
    (hcompute : compute.Unthemed) : rule.Unthemed := by
  intro other hother
  rw [hbody] at hother
  cases hother
  exact hcompute

theorem unthemed_colors : ∀ rule ∈ colors.rules.filter Rule.isComputed, rule.Unthemed := by
  rw [colors, rules_rulesPlugin]
  refine List.forall_mem_cons.mpr ⟨unthemed_of_body rfl unthemed_color, ?_⟩
  refine List.forall_mem_cons.mpr ⟨unthemed_of_body rfl (unthemed_nestedColor _ _), ?_⟩
  exact List.forall_mem_singleton.mpr (unthemed_of_body rfl (unthemed_nestedColor _ _))

theorem unthemed_typography : ∀ rule ∈ typography.rules.filter Rule.isComputed, rule.Unthemed := by
  rw [typography, rules_rulesPlugin]
  refine List.forall_mem_cons.mpr ⟨unthemed_of_body rfl unthemed_fontSize, ?_⟩
  refine List.forall_mem_cons.mpr ⟨unthemed_of_body rfl unthemed_font, ?_⟩
  refine List.forall_mem_cons.mpr ⟨unthemed_of_body rfl (unthemed_plain _ _), ?_⟩
  exact List.forall_mem_singleton.mpr (unthemed_of_body rfl (unthemed_plain _ _))

theorem unthemed_borders : ∀ rule ∈ borders.rules.filter Rule.isComputed, rule.Unthemed := by
  rw [borders, rules_rulesPlugin]
  refine List.forall_mem_cons.mpr ⟨unthemed_of_body rfl (unthemed_scaledSides _ _ _), ?_⟩
  refine List.forall_mem_cons.mpr ⟨unthemed_of_body rfl (unthemed_scaledSides _ _ _), ?_⟩
  refine List.forall_mem_cons.mpr ⟨unthemed_of_body rfl unthemed_divideWidth, ?_⟩
  exact List.forall_mem_singleton.mpr (unthemed_of_body rfl unthemed_ring)

end Catalog

/-! ## Rules that pass -/

namespace BracketNeed

open Catalog

variable {rule : Rule} {lead key : Text}

/-- A lead without brackets in front of a bracket is no longer than what stands there. -/
theorem prefix_of_append_eq {other rest behind : Text} (hother : '[' ∉ other)
    (hsame : other ++ rest = lead ++ '[' :: behind) : other <+: lead := by
  have hlead : lead <+: lead ++ '[' :: behind := List.prefix_append _ _
  have hboth : other <+: lead ++ '[' :: behind := ⟨rest, hsame⟩
  rcases List.prefix_or_prefix_of_prefix hboth hlead with hshort | ⟨tail, rfl⟩
  · exact hshort
  · rw [List.append_assoc, List.append_cancel_left_eq] at hsame
    cases tail with
    | nil => exact ⟨[], by simp⟩
    | cons c tail =>
        obtain rfl := (List.cons.inj hsame).1
        exact absurd (by simp) hother

/-- No lead has a bracket, and none is a part of the lead but the lead itself. -/
def keepsTo (leads : List Text) (lead : Text) : Bool :=
  leads.all fun other => !other.contains '[' && (other == lead || !other.isPrefixOf lead)

theorem eq_of_keepsTo {leads : List Text} (hkeeps : keepsTo leads lead = true) {other rest : Text}
    (hother : other ∈ leads) (hkey : Payload.isBracketed key = true)
    (hsame : lead ++ key = other ++ rest) : other = lead ∧ rest = key := by
  have hkept := List.all_eq_true.mp hkeeps other hother
  simp only [Bool.and_eq_true, Bool.or_eq_true, Bool.not_eq_true', beq_iff_eq,
    List.contains_eq_mem, decide_eq_false_iff_not] at hkept
  obtain ⟨inner, rfl⟩ := Payload.eq_of_isBracketed hkey
  have hshort := List.isPrefixOf_iff_prefix.mpr (prefix_of_append_eq hkept.1 hsame.symm)
  rcases hkept.2 with rfl | hlonger
  · exact ⟨rfl, (List.append_cancel_left hsame).symm⟩
  · rw [hshort] at hlonger
    cases hlonger

/-- A rule passes over what it does not take behind a lead. -/
theorem answer_of_refused {texts names leads : List Text} {use : BracketUse}
    (hserves : (BracketNeed.value texts names use leads).Serves rule)
    (hmet : (BracketNeed.value texts names use leads).isMetBy rule = true)
    (hkeeps : keepsTo leads lead = true) (hkey : Payload.isBracketed key = true)
    (hrefused : lead ∈ leads → use.accepts key = false ∧ rule.Unthemed) (theme : Theme) :
    rule.answer theme (lead ++ key) = .ok none := by
  obtain ⟨compute, hbody, hcompute⟩ := hserves
  obtain ⟨pattern, hpattern, hsplits⟩ := exists_pattern_of_isMetBy hmet
  cases hmatch : pattern.matchWhole (lead ++ key) with
  | none => exact Rule.answer_of_no_match hpattern hmatch
  | some found =>
      have hbracket := List.mem_append_right lead (Payload.bracket_mem_of_isBracketed hkey)
      obtain ⟨other, hother, rest, hsame, hrest, hnamed⟩ := hsplits.parts hmatch hbracket
      obtain ⟨rfl, rfl⟩ := eq_of_keepsTo hkeeps hother hkey hsame
      obtain ⟨haccepts, hfree⟩ := hrefused hother
      -- Without a theme the computation is known, and it is the same with one.
      have hempty : Theme.lacksBrackets [] = true := rfl
      obtain ⟨properties, hproperties, htaken⟩ :=
        hcompute (hsplits.provides hmatch) hnamed hempty hrest
      rw [Rule.answer_of_computed hpattern hbody hmatch,
        hfree compute hbody found theme _ hnamed hkey, hproperties]
      rw [haccepts, Option.isSome_eq_false_iff, Option.isNone_iff_eq_none] at htaken
      rw [htaken]

/-- The need has a value behind one of the shared leads. -/
def takesSurface : BracketNeed → Bool
  | .value _ _ _ leads => surfaceLeads.any leads.contains
  | _ => false

/-- Behind the shared leads, only these uses are made of brackets. -/
def keepsSurface (uses : List BracketUse) : BracketNeed → Bool
  | .value _ _ use leads => surfaceLeads.all fun lead =>
      keepsTo leads lead && (!leads.contains lead || uses.contains use)
  | _ => true

theorem answer_of_declaration (hserves : BracketNeed.declaration.Serves rule)
    (hlead : lead ∈ surfaceLeads) (theme : Theme) : rule.answer theme (lead ++ key) = .ok none := by
  cases hmatch : declarationPattern.matchWhole (lead ++ key) with
  | none => exact Rule.answer_of_no_match hserves.1 hmatch
  | some found =>
      obtain ⟨property, value, hdeclaration, -⟩ := declaration?_of_match hmatch
      have hbracket := congrArg List.head? (Payload.declaration?_eq_some.mp hdeclaration).1
      have hfirst : surfaceLeads.all (·.head?.any (· ≠ '[')) = true := by decide
      obtain ⟨c, hc, hother⟩ := (Option.any_eq_true _ _).mp (List.all_eq_true.mp hfirst lead hlead)
      rw [List.head?_append, hc, Option.some_or] at hbracket
      obtain rfl : c = '[' := Option.some.inj hbracket
      cases hother

end BracketNeed

namespace Catalog

open BracketNeed

/-- Behind the shared leads, the rules pass over keys in brackets that have none of these uses. -/
def Passes (uses : List BracketUse) (rules : List Rule) : Prop :=
  ∀ rule ∈ rules, ∀ lead ∈ surfaceLeads, ∀ theme key, Payload.isBracketed key = true →
    (∀ use ∈ uses, use.accepts key = false) → rule.answer theme (lead ++ key) = .ok none

theorem passes_of_needs {plugin : Plugin} {needs : List BracketNeed} {uses : List BracketUse}
    (hneeds : ∀ rule ∈ plugin.rules.filter Rule.isComputed,
      ∃ need ∈ needs, need.Serves rule ∧ need.isMetBy rule = true)
    (hplugin : plugin ∈ utilityPlugins) (hkeeps : needs.all (keepsSurface uses) = true)
    (hfree : needs.any takesSurface = true →
      ∀ rule ∈ plugin.rules.filter Rule.isComputed, rule.Unthemed) :
    Passes uses plugin.rules := by
  intro rule hrule lead hlead theme key hkey hrefused
  have hbracket := List.mem_append_right lead (Payload.bracket_mem_of_isBracketed hkey)
  cases hcomputed : rule.isComputed with
  | false =>
      exact answer_of_fixed (List.mem_flatMap.mpr ⟨plugin, hplugin, hrule⟩) hcomputed hbracket theme
  | true =>
      have hrule := List.mem_filter.mpr ⟨hrule, hcomputed⟩
      obtain ⟨need, hneed, hserves, hmet⟩ := hneeds rule hrule
      have hkept := List.all_eq_true.mp hkeeps need hneed
      cases need with
      | apart => exact answer_of_apart hmet hbracket
      | declaration => exact answer_of_declaration hserves hlead theme
      | value texts names use leads =>
          have hkept := List.all_eq_true.mp hkept lead hlead
          simp only [Bool.and_eq_true, Bool.or_eq_true, Bool.not_eq_true', ← Bool.not_eq_true,
            List.contains_iff_mem] at hkept
          apply answer_of_refused hserves hmet hkept.1 hkey
          intro htaken
          have huse := hkept.2.resolve_left fun hnone => hnone htaken
          refine ⟨hrefused use huse, hfree ?_ rule hrule⟩
          refine List.any_eq_true.mpr ⟨_, hneed, List.any_eq_true.mpr ⟨lead, hlead, ?_⟩⟩
          rwa [List.contains_iff_mem]

/-! ## The catalogue -/

/-- The plug-ins of utilities with what becomes of brackets in their rules. -/
def bracketTable : List (List BracketNeed × Plugin) :=
  [(layoutBrackets, layout), (spacingBrackets, spacing), (sizingBrackets, sizing),
    (colorBrackets, colors), (typographyBrackets, typography), (borderBrackets, borders),
    (effectBrackets, effects), (transformBrackets, transforms), ([.declaration], arbitrary)]

theorem serve_table : ∀ entry ∈ bracketTable, Serve entry.1 entry.2 := by
  simp only [bracketTable, List.forall_mem_cons]
  exact ⟨serve_layout, serve_spacing, serve_sizing, serve_colors, serve_typography, serve_borders,
    serve_effects, serve_transforms, serve_arbitrary, by simp⟩

/-- What was decided on all patterns holds of those of each plug-in. -/
theorem met_of_table {table : List (List BracketNeed × Plugin)}
    (hserve : ∀ entry ∈ table, Serve entry.1 entry.2)
    (hmet : ((table.flatMap (·.1)).zip ((table.flatMap (·.2.rules)).filter Rule.isComputed)).all
      (fun (need, rule) => need.isMetBy rule) = true) :
    ∀ entry ∈ table, (entry.1.zip (entry.2.rules.filter Rule.isComputed)).all
      (fun (need, rule) => need.isMetBy rule) = true := by
  induction table with
  | nil => exact List.forall_mem_nil _
  | cons entry rest ih =>
      rw [List.forall_mem_cons] at hserve ⊢
      have hlength := List.Forall₂.length_eq hserve.1
      rw [List.flatMap_cons, List.flatMap_cons, List.filter_append, List.zip_append hlength,
        List.all_append, Bool.and_eq_true] at hmet
      exact ⟨hmet.1, ih hserve.2 hmet.2⟩

theorem exists_need {needs : List BracketNeed} {rules : List Rule}
    (hserves : List.Forall₂ Serves needs rules)
    (hmet : (needs.zip rules).all (fun (need, rule) => need.isMetBy rule) = true) :
    ∀ rule ∈ rules, ∃ need ∈ needs, need.Serves rule ∧ need.isMetBy rule = true := by
  induction hserves with
  | nil => exact List.forall_mem_nil _
  | @cons need rule needs rules hserves _ ih =>
      rw [List.zip_cons_cons, List.all_cons, Bool.and_eq_true] at hmet
      refine List.forall_mem_cons.mpr ⟨⟨need, List.mem_cons_self, hserves, hmet.1⟩, ?_⟩
      intro other hother
      obtain ⟨found, hfound, hneed⟩ := ih hmet.2 other hother
      exact ⟨found, List.mem_cons_of_mem _ hfound, hneed⟩

/-- Only three plug-ins have rules behind the shared leads. -/
theorem unthemed_table : ∀ entry ∈ bracketTable, entry.1.any takesSurface = true →
    ∀ rule ∈ entry.2.rules.filter Rule.isComputed, rule.Unthemed := by
  have hnone {needs : List BracketNeed} (hneeds : needs.any takesSurface = false) {goal : Prop} :
      needs.any takesSurface = true → goal := by
    simp [hneeds]
  simp only [bracketTable, List.forall_mem_cons]
  exact ⟨hnone rfl, hnone rfl, hnone rfl, fun _ => unthemed_colors, fun _ => unthemed_typography,
    fun _ => unthemed_borders, hnone rfl, hnone rfl, hnone rfl, by simp⟩

theorem passes_of_table {entry : List BracketNeed × Plugin} (hentry : entry ∈ bracketTable)
    {uses : List BracketUse} (hkeeps : entry.1.all (keepsSurface uses) = true) :
    Passes uses entry.2.rules := by
  have hmet := met_of_table serve_table brackets_decided.1 entry hentry
  have hplugin : entry.2 ∈ utilityPlugins := by
    change entry.2 ∈ bracketTable.map Prod.snd
    exact List.mem_map_of_mem hentry
  exact passes_of_needs (exists_need (serve_table entry hentry) hmet) hplugin hkeeps
    (unthemed_table entry hentry)

/-- The rules of colours pass over keys that are no colours. -/
theorem passes_colors : Passes [.color] colors.rules := by
  apply @passes_of_table (colorBrackets, colors)
  · simp [bracketTable]
  · decide

/-- Other rules pass over keys that are neither lengths nor font sizes. -/
theorem passes_others {plugin : Plugin} (hplugin : plugin ∈ utilityPlugins)
    (hother : plugin.name ≠ "colors") : Passes [.length, .fontSize] plugin.rules := by
  obtain ⟨entry, hentry, rfl⟩ : ∃ entry ∈ bracketTable, entry.2 = plugin := List.mem_map.mp hplugin
  have hall : bracketTable.all (fun entry => entry.2.name == ("colors" : Text) ||
      entry.1.all (keepsSurface [.length, .fontSize])) = true := by decide +kernel
  have hkeeps := List.all_eq_true.mp hall entry hentry
  rw [beq_false_of_ne hother, Bool.false_or] at hkeeps
  exact passes_of_table hentry hkeeps

/-- A key in brackets is passed over by the rules of colours or by all others. -/
theorem passes_or_passes {key : Text} (hkey : Payload.isBracketed key = true) {lead : Text}
    (hlead : lead ∈ surfaceLeads) (theme : Theme) :
    (∀ rule ∈ colors.rules, rule.answer theme (lead ++ key) = .ok none) ∨
      ∀ plugin ∈ utilityPlugins, plugin.name ≠ "colors" → ∀ rule ∈ plugin.rules,
        rule.answer theme (lead ++ key) = .ok none := by
  cases hcolor : BracketUse.color.accepts key with
  | false =>
      left
      intro rule hrule
      apply passes_colors rule hrule lead hlead theme key hkey
      simpa using hcolor
  | true =>
      right
      intro plugin hplugin hother rule hrule
      apply passes_others hplugin hother rule hrule lead hlead theme key hkey
      simpa using BracketUse.accepts_of_color hcolor

end Catalog

/-! ## Engines -/

/-- The rule that resolves a body and what it declares, without the place of the rule. -/
def Resolution.outcome (found : Resolution) : Rule × Declarations × Table Text Declarations :=
  (found.entry.rule, found.declarations, found.nested)

/-- What a rule makes of a body. -/
def Rule.outcome (theme : Theme) (body : Text) (rule : Rule) :
    Except Error (Option (Rule × Declarations × Table Text Declarations)) :=
  (rule.answer theme body).map
    (Option.map fun properties => (rule, properties.declarations, properties.nested))

namespace Catalog

open Registry

theorem isFlat_core {overrides : Theme} {dark : Variant} {plugin : Plugin}
    (hplugin : plugin ∈ corePlugins overrides dark) : plugin.steps.all Step.isFlat = true := by
  rw [corePlugins, List.mem_cons, List.mem_cons] at hplugin
  rcases hplugin with rfl | rfl | hutility
  · rfl
  · rfl
  · obtain ⟨name, rules, rfl⟩ := utilityPlugins_eq plugin hutility
    rfl

theorem isHashFree_core {overrides : Theme} {dark : Variant} {plugin : Plugin}
    (hplugin : plugin ∈ corePlugins overrides dark) :
    ∀ rule ∈ plugin.rules, rule.isHashFree = true := by
  rw [corePlugins, List.mem_cons, List.mem_cons] at hplugin
  rcases hplugin with rfl | rfl | hutility
  · exact List.forall_mem_nil _
  · exact List.forall_mem_nil _
  · intro rule hrule
    exact isHashFree_utilities rule (List.mem_flatMap.mpr ⟨plugin, hutility, hrule⟩)

/-- Plug-ins of the catalogue, in any order and with any overrides. -/
def FromCore (plugins : List Plugin) : Prop :=
  ∀ plugin ∈ plugins, ∃ overrides dark, plugin ∈ corePlugins overrides dark

theorem contributes_core {plugins : List Plugin} (hplugins : FromCore plugins) :
    Contributes (runSteps (plugins.map .install)) (plugins.flatMap Plugin.rules)
      (plugins.flatMap Plugin.values) := by
  apply contributes_map
  intro plugin hplugin
  obtain ⟨overrides, dark, hcore⟩ := hplugins plugin hplugin
  exact contributes_flatPlugin (isFlat_core hcore)

/-- The rules of the catalogue have distinct names, in whatever order it is installed. -/
theorem nodup_names_core {config : Config} {plugins : List Plugin} {engine : Engine}
    (hplugins : FromCore plugins) (hengine : Engine.ofPlugins config plugins = .ok engine) :
    (engine.registry.rules.map (·.name)).Nodup := by
  apply nodup_names_of_unindexed (Engine.additions_of_ofPlugins hengine)
  intro entry hentry
  apply RegisteredRule.unindexed_of_isHashFree
  have hmem : entry.rule ∈ plugins.flatMap Plugin.rules := by
    rw [← (Engine.contents_of_ofPlugins (contributes_core hplugins) hengine).1]
    exact List.mem_map_of_mem hentry
  obtain ⟨plugin, hplugin, hrule⟩ := List.mem_flatMap.mp hmem
  obtain ⟨overrides, dark, hcore⟩ := hplugins plugin hplugin
  exact isHashFree_core hcore entry.rule hrule

end Catalog

namespace Engine

open Registry Catalog

/-- With distinct names, the first rule that answers a body decides, after every history. -/
theorem outcome_eq_firstAnswer {engine : Engine}
    (hnames : (engine.registry.rules.map (·.name)).Nodup) {body : Text} (hbody : body ≠ [])
    (history : List Call) :
    (engine.registry.resolve body (engine.after history)).1.map (Option.map Resolution.outcome) =
      firstAnswer (Rule.outcome engine.registry.theme body)
        (engine.registry.rules.map (·.rule)) := by
  rw [(engine.settles_resolve body _ (engine.faithful_after history)).1,
    resolution_eq_firstAnswer hnames hbody, map_firstAnswer, firstAnswer_map]
  congr 1
  funext entry
  rw [Rule.outcome]
  cases entry.rule.answer engine.registry.theme body with
  | error error => rfl
  | ok found => cases found <;> rfl

/-- Two engines hold the same, but for two lists of rules that have changed places. -/
theorem exists_contents_of_swapped {config : Config} {early middle late : List Plugin}
    {first second : Engine} (hmiddle : FromCore middle)
    (hfirst : ofPlugins config (early ++ colors :: (middle ++ late)) = .ok first)
    (hsecond : ofPlugins config (early ++ (middle ++ colors :: late)) = .ok second) :
    ∃ before behind,
      first.registry.rules.map (·.rule) =
        before ++ (colors.rules ++ (middle.flatMap Plugin.rules ++ behind)) ∧
      second.registry.rules.map (·.rule) =
        before ++ (middle.flatMap Plugin.rules ++ (colors.rules ++ behind)) ∧
      first.registry.theme = second.registry.theme := by
  obtain ⟨before, values, hearly⟩ := exists_contributes_steps (inherited_contributes.plugins early)
  obtain ⟨behind, others, hlate⟩ := exists_contributes_steps (inherited_contributes.plugins late)
  have hcolors : Contributes (runStep (.install colors)) colors.rules [] :=
    contributes_flatPlugin rfl
  have hbetween := contributes_core hmiddle
  have hone := contributes_append hearly <|
    contributes_cons hcolors (contributes_append hbetween hlate)
  have htwo := contributes_append hearly <|
    contributes_append hbetween (contributes_cons hcolors hlate)
  rw [← List.map_append, ← List.map_cons, ← List.map_append] at hone
  rw [← List.map_cons, ← List.map_append, ← List.map_append] at htwo
  obtain ⟨hrules, htheme⟩ := contents_of_ofPlugins hone hfirst
  obtain ⟨hswapped, hsame⟩ := contents_of_ofPlugins htwo hsecond
  refine ⟨before, behind, hrules, hswapped, ?_⟩
  rw [htheme, hsame, List.nil_append, List.nil_append]

theorem outcome_of_swapped {config : Config} {early middle late : List Plugin}
    {first second : Engine}
    (hmiddle : ∀ plugin ∈ middle, plugin ∈ utilityPlugins ∧ plugin.name ≠ "colors")
    (hfirst : ofPlugins config (early ++ colors :: (middle ++ late)) = .ok first)
    (hsecond : ofPlugins config (early ++ (middle ++ colors :: late)) = .ok second)
    (hnames : (first.registry.rules.map (·.name)).Nodup)
    (hothers : (second.registry.rules.map (·.name)).Nodup) {key : Text}
    (hkey : Payload.isBracketed key = true) {lead : Text} (hlead : lead ∈ surfaceLeads)
    (history other : List Call) :
    (first.registry.resolve (lead ++ key) (first.after history)).1.map
        (Option.map Resolution.outcome) =
      (second.registry.resolve (lead ++ key) (second.after other)).1.map
        (Option.map Resolution.outcome) := by
  have hcore : FromCore middle := fun plugin hplugin =>
    ⟨[], ⟨"dark", .parent, ".dark"⟩, by simp [corePlugins, (hmiddle plugin hplugin).1]⟩
  have hbody : lead ++ key ≠ [] :=
    List.append_ne_nil_of_right_ne_nil lead
      (List.ne_nil_of_mem (Payload.bracket_mem_of_isBracketed hkey))
  obtain ⟨before, behind, hrules, hswapped, htheme⟩ :=
    exists_contents_of_swapped hcore hfirst hsecond
  rw [outcome_eq_firstAnswer hnames hbody, outcome_eq_firstAnswer hothers hbody, hrules, hswapped,
    htheme]
  apply firstAnswer_append_congr
  apply firstAnswer_swap
  -- Rules that pass have no outcome either.
  have hpass {rule : Rule}
      (hrule : rule.answer second.registry.theme (lead ++ key) = .ok none) :
      rule.outcome second.registry.theme (lead ++ key) = .ok none := by
    rw [Rule.outcome, hrule]
    rfl
  rcases passes_or_passes hkey hlead second.registry.theme with hcolors | hall
  · exact .inl fun rule hrule => hpass (hcolors rule hrule)
  · right
    intro rule hrule
    obtain ⟨plugin, hplugin, hrule⟩ := List.mem_flatMap.mp hrule
    obtain ⟨hutility, hother⟩ := hmiddle plugin hplugin
    exact hpass (hall plugin hutility hother rule hrule)

/-- A key in brackets is not both a colour and a length, in any theme. Behind the leads of text,
borders and rings, the rules of colours all pass over it, or those of all other plug-ins of
utilities do; font sizes and widths are among these. So the rule that resolves such a body, and what
it declares, is the same if the plug-in of colours is installed before other plug-ins of utilities
or behind them, after every history of calls and with any other plug-ins around them, as long as
names are distinct. The names of the catalogue are, in every order in which it can be installed. -/
theorem brackets_unambiguous {key : Text} (hkey : Payload.isBracketed key = true) :
    (∀ (theme : Theme) (scale : Text), theme.color? key = none ∨ theme.length? key scale = none) ∧
    (∀ theme, ∀ lead ∈ surfaceLeads,
      (∀ rule ∈ colors.rules, rule.answer theme (lead ++ key) = .ok none) ∨
        ∀ plugin ∈ utilityPlugins, plugin.name ≠ "colors" → ∀ rule ∈ plugin.rules,
          rule.answer theme (lead ++ key) = .ok none) ∧
    (∀ config early middle late first second,
      (∀ plugin ∈ middle, plugin ∈ utilityPlugins ∧ plugin.name ≠ "colors") →
      ofPlugins config (early ++ colors :: (middle ++ late)) = .ok first →
      ofPlugins config (early ++ (middle ++ colors :: late)) = .ok second →
      (first.registry.rules.map (·.name)).Nodup → (second.registry.rules.map (·.name)).Nodup →
      ∀ lead ∈ surfaceLeads, ∀ history other,
        (first.registry.resolve (lead ++ key) (first.after history)).1.map
            (Option.map Resolution.outcome) =
          (second.registry.resolve (lead ++ key) (second.after other)).1.map
            (Option.map Resolution.outcome)) ∧
    (∀ config plugins engine, FromCore plugins → ofPlugins config plugins = .ok engine →
      (engine.registry.rules.map (·.name)).Nodup) := by
  refine ⟨?_, ?_, ?_, ?_⟩
  · exact Theme.color?_or_length? hkey
  · intro theme lead hlead
    exact passes_or_passes hkey hlead theme
  · intro config early middle late first second hmiddle hfirst hsecond hnames hothers lead hlead
      history other
    exact outcome_of_swapped hmiddle hfirst hsecond hnames hothers hkey hlead history other
  · intro config plugins engine hplugins hengine
    exact nodup_names_core hplugins hengine

/-- The catalogue can be installed with its utilities in any order. -/
theorem exists_ofPlugins_of_perm (dark : Variant) {plugins : List Plugin}
    (hplugins : plugins.Perm utilityPlugins) :
    ∃ engine, ofPlugins {} (themePlugin :: variantsPlugin dark :: plugins) = .ok engine := by
  obtain ⟨hscreens, hcontainers, -, -⟩ := standardTheme_sections
  obtain ⟨screens, hscreens⟩ := exists_table hscreens
  obtain ⟨entries, hcontainers⟩ := exists_table hcontainers
  have hturns := turns_arranged dark hscreens hcontainers hplugins
  have hfree : ∀ rule ∈ plugins.flatMap Plugin.rules, rule.isHashFree = true := by
    intro rule hrule
    exact isHashFree_utilities rule ((hplugins.flatMap_right _).subset hrule)
  obtain ⟨registry, hfill, -⟩ := fill_of_turns hturns hfree
  have hcheck : Config.check {} = .ok () := rfl
  refine ⟨{ registry }, ?_⟩
  rw [ofPlugins, hcheck, ok_bind, hfill]
  rfl

/-- What comes before the utilities that change places. -/
def leading : List Plugin :=
  [themePlugin, variantsPlugin ⟨"dark", .parent, ".dark"⟩, layout, spacing, sizing]

/-- What comes behind them. -/
def trailing : List Plugin := [effects, transforms, arbitrary]

/-- A colour behind the lead of font sizes, with the plug-in of colours before and behind those of
typography and borders. -/
theorem brackets_unambiguous_hex : ∃ first second,
    ofPlugins {} (leading ++ colors :: ([typography, borders] ++ trailing)) = .ok first ∧
    ofPlugins {} (leading ++ ([typography, borders] ++ colors :: trailing)) = .ok second ∧
    (colors.rules.map fun rule =>
        (rule.answer [] "text-[#FfF]").toOption.map (Option.map Properties.declarations)) =
      [some (some [("color".toList, "#FfF".toList)]), some none, some none] ∧
    (Theme.color? [] "[#FfF]" = some "#FfF".toList ∧ Theme.length? [] "[#FfF]" = none) ∧
    (first.registry.resolve ("text-".toList ++ "[#FfF]".toList)
        (first.after [.resolve "text-[1px]"])).1.map (Option.map Resolution.outcome) =
      (second.registry.resolve ("text-".toList ++ "[#FfF]".toList) (second.after [])).1.map
        (Option.map Resolution.outcome) := by
  have hkey : Payload.isBracketed "[#FfF]" = true := by decide
  have hcore : FromCore (leading ++ colors :: ([typography, borders] ++ trailing)) :=
    fun plugin hplugin => ⟨[], ⟨"dark", .parent, ".dark"⟩, hplugin⟩
  have hperm : (leading ++ ([typography, borders] ++ colors :: trailing)).Perm
      (leading ++ colors :: ([typography, borders] ++ trailing)) :=
    List.perm_middle.append_left leading
  have hswapped : FromCore (leading ++ ([typography, borders] ++ colors :: trailing)) :=
    fun plugin hplugin => hcore plugin (hperm.subset hplugin)
  obtain ⟨first, hfirst⟩ := exists_ofPlugins_of_perm ⟨"dark", .parent, ".dark"⟩
    (.refl utilityPlugins)
  obtain ⟨second, hsecond⟩ := exists_ofPlugins_of_perm ⟨"dark", .parent, ".dark"⟩
    ((@List.perm_middle _ colors [typography, borders] trailing).append_left
      [layout, spacing, sizing])
  obtain ⟨hreadings, -, houtcome, hnames⟩ := brackets_unambiguous hkey
  have hmiddle : ∀ plugin ∈ [typography, borders],
      plugin ∈ utilityPlugins ∧ plugin.name ≠ "colors" := by
    simp only [List.forall_mem_cons]
    exact ⟨⟨by simp [utilityPlugins], by decide⟩, ⟨by simp [utilityPlugins], by decide⟩, by simp⟩
  have hcolor : Theme.color? [] "[#FfF]" = some "#FfF".toList := by decide +kernel
  refine ⟨first, second, hfirst, hsecond, by decide +kernel, ⟨hcolor, ?_⟩, ?_⟩
  · apply (hreadings [] "spacing").resolve_left
    rw [hcolor]
    exact Option.some_ne_none _
  · exact houtcome {} leading [typography, borders] trailing first second hmiddle hfirst hsecond
      (hnames {} _ first hcore hfirst) (hnames {} _ second hswapped hsecond) "text-".toList
      (by simp [surfaceLeads]) _ _

end Engine

end UtilityCss
