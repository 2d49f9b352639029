import UtilityCss.Proofs.CatalogFaults

/-!
# The rules of the catalogue

Each plug-in of utilities adds a list of rules. Listed here is what their computed rules need
of their patterns, and seven of them share out the leads of numbers. That the patterns give
what is needed is checked on their trees, once for the catalogue.
-/

namespace UtilityCss

/-- What a computed rule needs of its pattern: groups that take part, groups that exist, and
the leads of its numbers. -/
structure RuleNeed where
  texts : List Text := []
  names : List Text := []
  numbers : Option (NumberUse × List Text) := none

namespace RuleNeed

def own (need : RuleNeed) : List (NumberUse × Text) :=
  need.numbers.elim [] fun (use, leads) => Catalog.behind use leads

/-- The need is all that a computation relies on. -/
def Serves (need : RuleNeed) (compute : Compute) : Prop :=
  match need.numbers with
  | none => compute.Succeeds need.texts need.names
  | some (use, _) => compute.TakesNumber need.texts need.names use

/-- The pattern of a rule gives what is needed. -/
def isMetBy (need : RuleNeed) (rule : Rule) : Bool :=
  rule.suits need.texts need.names need.own &&
    need.numbers.all fun (_, leads) => rule.hasFront leads

/-- The computed rules, in order, give what is needed, and the others are for texts apart from
the leads of numbers. -/
def allMet : List Rule → List RuleNeed → Bool
  | [], needs => needs.isEmpty
  | rule :: rules, needs =>
      if rule.isComputed then
        match needs with
        | [] => false
        | need :: needs => need.isMetBy rule && allMet rules needs
      else rule.isFixedApart && allMet rules needs

/-- The needs are those of the computed rules, in order. -/
inductive Describe : List RuleNeed → List Rule → Prop
  | nothing : Describe [] []
  | fixed {rules more : List Rule} {needs : List RuleNeed} :
      rules.all (!Rule.isComputed ·) = true → Describe needs more → Describe needs (rules ++ more)
  | computed {rule : Rule} {compute : Compute} {need : RuleNeed} {rules : List Rule}
      {needs : List RuleNeed} : rule.body = .computed compute → need.Serves compute →
      Describe needs rules → Describe (need :: needs) (rule :: rules)

theorem Describe.append {first second : List Rule} {early late : List RuleNeed}
    (hfirst : Describe early first) (hsecond : Describe late second) :
    Describe (early ++ late) (first ++ second) := by
  induction hfirst with
  | nothing => exact hsecond
  | fixed hrules _ ih =>
      rw [List.append_assoc]
      exact .fixed hrules ih
  | computed hbody hserves _ ih => exact .computed hbody hserves ih

theorem allMet_append {rules : List Rule} (hrules : rules.all (!Rule.isComputed ·) = true)
    (more : List Rule) (needs : List RuleNeed) :
    allMet (rules ++ more) needs = (rules.all Rule.isFixedApart && allMet more needs) := by
  induction rules with
  | nil => rfl
  | cons rule rest ih =>
      rw [List.all_cons, Bool.and_eq_true, Bool.not_eq_true'] at hrules
      rw [List.cons_append, allMet.eq_def]
      dsimp only
      rw [hrules.1, if_neg Bool.false_ne_true, ih hrules.2, List.all_cons, Bool.and_assoc]

variable {theme : Theme} (hspacing : theme.lacksSlashes "spacing" = true)
  (hwidth : theme.lacksSlashes "maxWidth" = true)

include hspacing hwidth

theorem takes_own {need : RuleNeed} {rule : Rule} {compute : Compute}
    (hbody : rule.body = .computed compute) (hserves : need.Serves compute)
    (hmet : need.isMetBy rule = true) : rule.Takes theme need.own := by
  obtain ⟨texts, names, numbers⟩ := need
  rw [isMetBy, Bool.and_eq_true] at hmet
  cases numbers with
  | none => exact Rule.takes_of_succeeds hbody hserves hmet.1
  | some numbers => exact Rule.takes_of_takesNumber hbody hserves hmet.1 hmet.2 hspacing hwidth

theorem fits_of_describe {needs : List RuleNeed} {rules : List Rule}
    (hdescribe : Describe needs rules) (hmet : allMet rules needs = true) :
    Fits theme rules (needs.flatMap own) := by
  induction hdescribe with
  | nothing => exact .fixed rfl
  | @fixed rules more needs hrules _ ih =>
      rw [allMet_append hrules, Bool.and_eq_true] at hmet
      exact Fits.append (.fixed hmet.1) (ih hmet.2)
  | @computed rule compute need rules needs hbody hserves _ ih =>
      have hcomputed : rule.isComputed = true := by rw [Rule.isComputed, hbody]
      rw [allMet, if_pos hcomputed, Bool.and_eq_true] at hmet
      rw [List.flatMap_cons]
      exact Fits.append (.single (takes_own hspacing hwidth hbody hserves hmet.1)) (ih hmet.2)

end RuleNeed

/-! ## The plug-ins of utilities -/

/-- The rules that a step adds by itself. -/
def Step.rules : Step → List Rule
  | .addRules offers => offers.filterMap fun
      | .proper rule => some rule
      | .foreign _ => none
  | _ => []

def Plugin.rules (plugin : Plugin) : List Rule := plugin.steps.flatMap Step.rules

namespace Catalog

theorem rules_rulesPlugin (name : Text) (rules : List Rule) :
    Plugin.rules (rulesPlugin name rules) = rules := by
  simp [Plugin.rules, rulesPlugin, Step.rules, List.filterMap_map]

open RuleNeed

/-- Rules that need a value only. -/
def valueNeed : RuleNeed := { texts := ["value"] }

def placementNeeds : List RuleNeed :=
  [{ texts := ["value"], names := ["axis"] },
    { texts := ["side"], numbers := some (.fraction, insetLeads) }, valueNeed, valueNeed]

def flexNeeds : List RuleNeed :=
  [valueNeed, valueNeed, valueNeed, valueNeed, { texts := ["value"], names := ["axis"] },
    { names := ["kind"], numbers := some (.count, ["grid-cols-", "grid-rows-"]) },
    { names := ["kind"], numbers := some (.count, ["col-span-", "row-span-"]) }]

def spacingNeeds : List RuleNeed :=
  [{ texts := ["value", "side"] }, { texts := ["value", "side"] },
    { texts := ["value"], names := ["axis"] }]

def sizingNeeds : List RuleNeed :=
  [{ texts := ["kind"], numbers := some (.fraction, sizeLeads) }]

def colorNeeds : List RuleNeed := [{ texts := ["value", "kind"] }, valueNeed, valueNeed]

def typographyNeeds : List RuleNeed := [valueNeed, valueNeed, valueNeed, valueNeed]

def borderNeeds : List RuleNeed :=
  [{ names := ["value", "side"] }, { names := ["value", "corner"] },
    { names := ["value", "axis"] }, { names := ["value"] }]

def effectNeeds : List RuleNeed :=
  [{ numbers := some (.count, ["opacity-"]) }, { names := ["value"] }, valueNeed, valueNeed,
    valueNeed]

def transformNeeds : List RuleNeed :=
  [{ names := ["axis"], numbers := some (.fraction, ["translate-", "translate-x-", "translate-y-"]) },
    valueNeed, { texts := ["value", "axis"] },
    { names := ["axis"], numbers := some (.percentage, ["scale-", "scale-x-", "scale-y-"]) }]

def arbitraryNeeds : List RuleNeed := [{ texts := ["value", "prop"] }]

theorem describe_placement : Describe placementNeeds placementRules := by
  refine .computed rfl succeeds_overflow ?_
  refine .computed rfl takesNumber_inset ?_
  refine .computed rfl (succeeds_fromEntry _ _) ?_
  exact .computed rfl (succeeds_fromEntry _ _) .nothing

theorem describe_flex : Describe flexNeeds flexRules := by
  refine .fixed rfl ?_
  refine .computed rfl (succeeds_fromEntry _ _) ?_
  refine .computed rfl (succeeds_fromEntry _ _) ?_
  refine .computed rfl (succeeds_fromEntry _ _) ?_
  refine .computed rfl (succeeds_fromEntry _ _) ?_
  refine .computed rfl succeeds_gap ?_
  refine .computed rfl takesNumber_gridTemplate ?_
  exact .computed rfl takesNumber_gridSpan .nothing

theorem describe_layout : Describe (placementNeeds ++ flexNeeds) (Plugin.rules layout) := by
  rw [layout, rules_rulesPlugin, List.append_assoc]
  exact .fixed rfl (describe_placement.append describe_flex)

theorem describe_spacing : Describe spacingNeeds (Plugin.rules spacing) := by
  rw [spacing, rules_rulesPlugin]
  refine .computed rfl (succeeds_boxProperty _ _) ?_
  refine .computed rfl (succeeds_boxProperty _ _) ?_
  exact .computed rfl succeeds_spaceBetween .nothing

theorem describe_sizing : Describe sizingNeeds (Plugin.rules sizing) := by
  rw [sizing, rules_rulesPlugin]
  exact .computed rfl takesNumber_size .nothing

theorem describe_colors : Describe colorNeeds (Plugin.rules colors) := by
  rw [colors, rules_rulesPlugin]
  refine .computed rfl succeeds_color ?_
  refine .computed rfl (succeeds_nestedColor _ _) ?_
  exact .computed rfl (succeeds_nestedColor _ _) .nothing

theorem describe_typography : Describe typographyNeeds (Plugin.rules typography) := by
  rw [typography, rules_rulesPlugin]
  refine .fixed rfl ?_
  refine .computed rfl succeeds_fontSize ?_
  refine .computed rfl succeeds_font ?_
  refine .computed rfl (succeeds_fromEntry _ _) ?_
  exact .computed rfl (succeeds_fromEntry _ _) .nothing

/-- Fixed rules behind others. -/
theorem describe_fixed {rules : List Rule} (hrules : rules.all (!Rule.isComputed ·) = true) :
    Describe [] rules := by
  rw [← List.append_nil rules]
  exact .fixed hrules .nothing

theorem describe_borders : Describe borderNeeds (Plugin.rules borders) := by
  rw [borders, rules_rulesPlugin]
  refine .computed rfl (succeeds_scaledSides _ _ _) ?_
  refine .computed rfl (succeeds_scaledSides _ _ _) ?_
  refine .fixed rfl ?_
  refine @Describe.fixed [_, _] _ _ rfl ?_
  refine .computed rfl succeeds_divideWidth ?_
  refine .computed rfl succeeds_ring ?_
  exact describe_fixed rfl

theorem describe_effects : Describe effectNeeds (Plugin.rules effects) := by
  rw [effects, rules_rulesPlugin]
  refine .fixed rfl ?_
  refine @Describe.fixed [_, _, _, _, _, _] _ _ rfl ?_
  refine .computed rfl (takesNumber_fromValue _ finds_opacityValue) ?_
  refine .computed rfl succeeds_shadow ?_
  refine .computed rfl (succeeds_fromEntry _ _) ?_
  refine .computed rfl (succeeds_fromEntry _ _) ?_
  exact .computed rfl (succeeds_fromEntry _ _) .nothing

theorem describe_transforms : Describe transformNeeds (Plugin.rules transforms) := by
  rw [transforms, rules_rulesPlugin]
  refine .computed rfl takesNumber_translate ?_
  refine .computed rfl succeeds_rotate ?_
  refine .computed rfl succeeds_skew ?_
  refine .computed rfl takesNumber_resize ?_
  exact describe_fixed rfl

theorem describe_arbitrary : Describe arbitraryNeeds (Plugin.rules arbitrary) := by
  rw [arbitrary, rules_rulesPlugin]
  exact .computed rfl succeeds_verbatim .nothing

/-- All rules of utilities, in order. -/
def utilityRules : List Rule := utilityPlugins.flatMap Plugin.rules

def utilityNeeds : List RuleNeed :=
  placementNeeds ++ flexNeeds ++ spacingNeeds ++ sizingNeeds ++ colorNeeds ++ typographyNeeds ++
    borderNeeds ++ effectNeeds ++ transformNeeds ++ arbitraryNeeds

theorem describe_utilities : Describe utilityNeeds utilityRules := by
  have hall := describe_layout.append <| describe_spacing.append <| describe_sizing.append <|
    describe_colors.append <| describe_typography.append <| describe_borders.append <|
    describe_effects.append <| describe_transforms.append describe_arbitrary
  simpa [utilityNeeds, utilityRules, utilityPlugins] using hall

theorem allMet_utilities : allMet utilityRules utilityNeeds = true := by decide +kernel

/-- The leads of numbers are all taken. -/
theorem own_utilities : utilityNeeds.flatMap own = numberLeads := by
  simp [utilityNeeds, placementNeeds, flexNeeds, spacingNeeds, sizingNeeds, colorNeeds,
    typographyNeeds, borderNeeds, effectNeeds, transformNeeds, arbitraryNeeds, valueNeed, own,
    numberLeads]

theorem fits_utilities {theme : Theme} (hspacing : theme.lacksSlashes "spacing" = true)
    (hwidth : theme.lacksSlashes "maxWidth" = true) : Fits theme utilityRules numberLeads := by
  rw [← own_utilities]
  exact fits_of_describe hspacing hwidth describe_utilities allMet_utilities

end Catalog

end UtilityCss
