import UtilityCss.Proofs.HistoryIndependence
import UtilityCss.Proofs.StandardStyling

/-!
# Which declarations a styled token keeps

A rule gives declarations and blocks under templates. Changing their values keeps all properties,
but a block is dropped if another one takes its place: a block for the selector itself takes the
place of the declarations, and of the templates that come to one selector the last one stands.
So a declaration is kept exactly if the block that stands has its property too.
-/

namespace UtilityCss

namespace Registry

/-- A rule that resolves a body gives properties to it, and the resolution has them all. -/
theorem exists_properties_of_scan {theme : Theme} {body : Text} {rules : List RegisteredRule}
    {cache : PatternCache} {won : Resolution}
    (hrun : (scan theme body rules cache).1 = .ok (some won)) :
    won.entry ∈ rules ∧ ∃ (pattern : Pattern) (found : Match) (properties : Properties),
      pattern.matchWhole body = some found ∧
      won.entry.rule.body.properties found theme = .ok (some properties) ∧
      won.declarations = properties.declarations ∧ won.nested = properties.nested := by
  induction rules generalizing cache with
  | nil => cases hrun
  | cons entry rest ih =>
      have hlater {cache : PatternCache}
          (hrest : (scan theme body rest cache).1 = .ok (some won)) :=
        (ih hrest).imp_left (List.mem_cons_of_mem entry)
      obtain ⟨pattern, after, -, hmatched⟩ := run_bind_eq_ok hrun
      cases hmatch : pattern.matchWhole body with
      | none =>
          simp only [hmatch] at hmatched
          exact hlater hmatched
      | some found =>
          simp only [hmatch] at hmatched
          obtain ⟨answer, last, hanswer, hrest⟩ := run_bind_eq_ok hmatched
          cases answer with
          | none => exact hlater hrest
          | some properties =>
              cases hrest
              refine ⟨List.mem_cons_self, pattern, found, properties, hmatch, ?_, rfl, rfl⟩
              exact congrArg Prod.fst hanswer

/-- A rule gives properties to a body: the body resolves to the rule, which has worked them out
from a match. -/
structure Gives (registry : Registry) (body : Text) (entry : RegisteredRule)
    (properties : Properties) : Prop where
  registered : entry ∈ registry.rules
  computed : ∃ (pattern : Pattern) (found : Match), pattern.matchWhole body = some found ∧
    entry.rule.body.properties found registry.theme = .ok (some properties)
  resolved : (registry.resolution body {}).1 =
    .ok (some ⟨entry, properties.declarations, properties.nested⟩)

theorem exists_gives_of_resolution {registry : Registry} {body : Text} {won : Resolution}
    (hwon : (registry.resolution body {}).1 = .ok (some won)) :
    ∃ entry properties, won = ⟨entry, properties.declarations, properties.nested⟩ ∧
      registry.Gives body entry properties := by
  have hscan := hwon
  rw [resolution] at hscan
  split at hscan
  · cases hscan
  · obtain ⟨hentry, pattern, found, properties, hmatch, hproperties, hdeclarations, hnested⟩ :=
      exists_properties_of_scan hscan
    obtain ⟨entry, declarations, nested⟩ := won
    obtain rfl : declarations = properties.declarations := hdeclarations
    obtain rfl : nested = properties.nested := hnested
    exact ⟨entry, properties, rfl, ⟨hentry, ⟨pattern, found, hmatch, hproperties⟩, hwon⟩⟩

end Registry

/-! ## Blocks and their places -/

/-- The block of a styled token for a template. -/
def Styled.blockOf (styled : Styled) (template : Text) : Declarations :=
  if template = Engine.selfTemplate then styled.declarations
  else (styled.nested.get? (Selector.fill template styled.selector)).getD []

namespace Properties

/-- The nested blocks by the selectors that their templates come to. Several may come to one. -/
def placed (properties : Properties) (selector : Text) : List (Text × Declarations) :=
  (properties.nested.filter (·.1 ≠ Engine.selfTemplate)).map fun block =>
    (Selector.fill block.1 selector, block.2)

/-- All properties that are declared are found where they belong: those of the declarations under
the selector itself, and those of a nested block under the selector of its template. -/
structure KeptBy (properties : Properties) (styled : Styled) : Prop where
  declarations : properties.declarations.keys ⊆ styled.declarations.keys
  nested : ∀ template block, properties.nested.get? template = some block →
    block.keys ⊆ (styled.blockOf template).keys

/-- No property is dropped where a block takes the place of another: a block for the selector
itself has those of the declarations, and the last block of a selector has those of the others. -/
structure Covered (properties : Properties) (selector : Text) : Prop where
  declarations : ∀ block, properties.nested.get? Engine.selfTemplate = some block →
    properties.declarations.keys ⊆ block.keys
  nested : ∀ template block, template ≠ Engine.selfTemplate →
    properties.nested.get? template = some block →
    ∀ last, Table.get? (properties.placed selector).reverse (Selector.fill template selector) =
      some last → block.keys ⊆ last.keys

variable {properties : Properties} {styled : Styled}

/-- Where a nested block comes to, some block stands. -/
theorem exists_get?_placed {template : Text} (htemplate : template ≠ Engine.selfTemplate)
    {block : Declarations} (hblock : properties.nested.get? template = some block)
    (selector : Text) :
    ∃ last, Table.get? (properties.placed selector).reverse (Selector.fill template selector) =
      some last := by
  have hplaced : (Selector.fill template selector, block) ∈
      (properties.placed selector).reverse := by
    rw [List.mem_reverse]
    apply List.mem_map.mpr
    refine ⟨(template, block), List.mem_filter.mpr ⟨Table.mem_of_get? hblock, ?_⟩, rfl⟩
    exact decide_eq_true htemplate
  exact Table.exists_get?_of_mem (List.mem_map_of_mem hplaced)

/-- If the blocks of a styled token have the properties of those that stand, nothing is lost
exactly if what is dropped is covered. -/
theorem keptBy_iff_covered
    (hself : styled.declarations.keys =
      ((properties.nested.get? Engine.selfTemplate).getD properties.declarations).keys)
    (hplaces : ∀ place, (styled.nested.get? place).map Table.keys =
      (Table.get? (properties.placed styled.selector).reverse place).map Table.keys) :
    properties.KeptBy styled ↔ properties.Covered styled.selector := by
  have hstands {template : Text} (htemplate : template ≠ Engine.selfTemplate) {last : Declarations}
      (hlast : Table.get? (properties.placed styled.selector).reverse
        (Selector.fill template styled.selector) = some last) :
      (styled.blockOf template).keys = last.keys := by
    have hplace := hplaces (Selector.fill template styled.selector)
    rw [hlast] at hplace
    obtain ⟨kept, hkept, hkeys⟩ := Option.map_eq_some_iff.mp hplace
    rw [Styled.blockOf, if_neg htemplate, hkept]
    exact hkeys
  constructor
  · intro hkept
    constructor
    · intro block hblock
      have hkeys := hkept.declarations
      rwa [hself, hblock] at hkeys
    · intro template block htemplate hblock last hlast
      have hkeys := hkept.nested template block hblock
      rwa [hstands htemplate hlast] at hkeys
  · intro hcovered
    constructor
    · rw [hself]
      cases hblock : properties.nested.get? Engine.selfTemplate with
      | none => exact List.Subset.refl _
      | some block => exact hcovered.declarations block hblock
    · intro template block hblock
      by_cases htemplate : template = Engine.selfTemplate
      · rw [htemplate] at hblock
        rw [Styled.blockOf, if_pos htemplate, hself, hblock]
        exact List.Subset.refl _
      · obtain ⟨last, hlast⟩ := exists_get?_placed htemplate hblock styled.selector
        rw [hstands htemplate hlast]
        exact hcovered.nested template block htemplate hblock last hlast

end Properties

namespace Engine

variable (engine : Engine) (token : Token) (opacity : Option Opacity) (selector : Text)
  (atRules : List Text)

/-- A block for the selector itself stands in the place of the declarations. -/
theorem keys_declarations_assemble (won : Resolution) :
    (engine.assemble token won opacity selector atRules).declarations.keys =
      ((won.nested.get? selfTemplate).getD won.declarations).keys :=
  keys_adjust _ _ _ _

/-- Of the blocks that come to one selector the last one stands. -/
theorem keys_nested_assemble (entry : RegisteredRule) (properties : Properties) (place : Text) :
    let styled := engine.assemble token ⟨entry, properties.declarations, properties.nested⟩ opacity
      selector atRules
    (styled.nested.get? place).map Table.keys =
      (Table.get? (properties.placed styled.selector).reverse place).map Table.keys := by
  intro styled
  have hentries : styled.nested = Table.ofEntries ((properties.placed styled.selector).map
      fun block => (block.1, engine.adjust token entry.rule.negative opacity block.2)) := by
    rw [Properties.placed, List.map_map]
    rfl
  rw [hentries, Table.get?_ofEntries, ← List.map_reverse, Table.get?_map, Option.map_map]
  congr 1
  funext block
  exact keys_adjust _ _ _ _

/-- Styling a token changes values and drops blocks, and nothing else. The rule that resolves it
gives properties; those under the selector itself are the properties of a nested block for it, or
else of the declarations, and those under another selector are the properties of the last nested
block that comes to it. So nothing is lost exactly if each block that is dropped is covered by the
one that stands. -/
theorem keptBy_style_iff (engine : Engine) (history : List Call) (token : Token) (styled : Styled)
    (hstyle : (engine.style token (engine.after history)).1 = .ok (some styled)) :
    ∃ (body : Text) (entry : RegisteredRule) (properties : Properties),
      engine.Tries token body ∧ engine.registry.Gives body entry properties ∧
      styled.ruleName = entry.name ∧
      styled.declarations.keys =
        ((properties.nested.get? selfTemplate).getD properties.declarations).keys ∧
      (∀ place, (styled.nested.get? place).map Table.keys =
        (Table.get? (properties.placed styled.selector).reverse place).map Table.keys) ∧
      (properties.KeptBy styled ↔ properties.Covered styled.selector) := by
  obtain ⟨body, won, opacity, selector, atRules, hbody, hwon, rfl⟩ :=
    exists_assemble_of_style (engine.faithful_after history) hstyle
  obtain ⟨entry, properties, rfl, hgives⟩ := Registry.exists_gives_of_resolution hwon
  have hself := engine.keys_declarations_assemble token opacity selector atRules
    ⟨entry, properties.declarations, properties.nested⟩
  have hplaces := engine.keys_nested_assemble token opacity selector atRules entry properties
  exact ⟨body, entry, properties, hbody, hgives, rfl, hself, hplaces,
    Properties.keptBy_iff_covered hself hplaces⟩

/-- Declarations, and a nested block for the selector itself. -/
def doubled : Properties := [("padding", .text "1px"), ("&", .table [("margin", .text "2px")])]

/-- Two templates that come to one selector for one class name. -/
def crossed : Properties :=
  [("&.c", .table [("color", .text "red")]), (".c&", .table [("width", .text "0")])]

/-- An engine with rules that drop blocks. -/
def overlapping : Engine where
  registry := {
    rules := [
      ⟨{ pattern := .literal "card", body := .nested doubled }, "p:card", 0, "p"⟩,
      ⟨{ pattern := .literal "c", body := .nested crossed }, "p:c", 1, "p"⟩] }

/-- A token that is only a body. -/
def plainToken (body : Text) : Token where
  raw := body
  utility := body
  body := body

theorem keptBy_style_iff_overlapping :
    ∃ styled, (overlapping.style (plainToken "card") (overlapping.after [.styleText "c"])).1 =
        .ok (some styled) ∧
      styled.declarations.keys = [("margin" : Text)] ∧
      (doubled.KeptBy styled ↔ doubled.Covered styled.selector) := by
  obtain ⟨styled, hstyle, hrule, hkeys⟩ : ∃ styled,
      (overlapping.style (plainToken "card") (overlapping.after [.styleText "c"])).1 =
        .ok (some styled) ∧
      styled.ruleName = "p:card" ∧ styled.declarations.keys = [("margin" : Text)] :=
    ⟨_, rfl, rfl, rfl⟩
  obtain ⟨body, entry, properties, -, hgives, hname, -, -, hkept⟩ :=
    keptBy_style_iff overlapping [.styleText "c"] (plainToken "card") styled hstyle
  obtain ⟨-, found, -, hproperties⟩ := hgives.computed
  have hentry := hgives.registered
  simp only [overlapping, List.mem_cons, List.not_mem_nil, or_false] at hentry
  rcases hentry with rfl | rfl
  · cases hproperties
    exact ⟨styled, hstyle, hkeys, hkept⟩
  · exact absurd (hrule.symm.trans hname) (by decide)

theorem not_keptBy_overlapping :
    (∃ entry styled,
      (overlapping.registry.resolution "card" {}).1 =
        .ok (some ⟨entry, doubled.declarations, doubled.nested⟩) ∧
      (overlapping.styleText "card" {}).1 = .ok (some styled) ∧ ¬ doubled.KeptBy styled) ∧
    ∃ entry styled,
      (overlapping.registry.resolution "c" {}).1 =
        .ok (some ⟨entry, crossed.declarations, crossed.nested⟩) ∧
      (overlapping.styleText "c" {}).1 = .ok (some styled) ∧ ¬ crossed.KeptBy styled := by
  refine ⟨⟨_, _, rfl, rfl, ?_⟩, _, _, rfl, rfl, ?_⟩
  · intro hkept
    have hpadding := hkept.declarations (show ("padding" : Text) ∈ _ by decide)
    revert hpadding
    decide
  · intro hkept
    have hcolor := hkept.nested "&.c" _ rfl (show ("color" : Text) ∈ _ by decide)
    revert hcolor
    decide

end Engine

end UtilityCss
