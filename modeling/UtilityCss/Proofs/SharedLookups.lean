import UtilityCss.Engine.Basic
import UtilityCss.Migration.Category
import UtilityCss.Migration.Defaults
import UtilityCss.Proofs.TokenReading

/-!
# The lookups that share the cache of an engine

The reader, the computed variants, the rules and the mapping of foreign names all look
patterns up in one cache. Their keys begin with a letter each of their own, so a key
belongs to one of these parts, and within a part to the first lookup that has it: all
parts but the reader are sweeps. Variants, bodies and foreign names therefore settle.
-/

namespace UtilityCss

/-- The lookup for the pattern of a rule or a computed variant. -/
def RulePattern.lookup (key : Text) : RulePattern → Lookup
  | .literal text => ⟨key, .text (Pattern.escape text), 0⟩
  | .written source flags => ⟨key, .text source, flags⟩
  | .ready pattern flags => ⟨key, .ready pattern, flags⟩

theorem RulePattern.fetch_eq (key : Text) (pattern : RulePattern) :
    pattern.fetch key = (pattern.lookup key).fetch := by
  cases pattern <;> rfl

@[simp] theorem RulePattern.lookup_name (key : Text) (pattern : RulePattern) :
    (pattern.lookup key).name = key := by
  cases pattern <;> rfl

def ComputedVariant.lookup (variant : ComputedVariant) : Lookup :=
  variant.pattern.lookup ("variant:" ++ variant.name)

def RegisteredRule.lookup (entry : RegisteredRule) : Lookup :=
  entry.rule.pattern.lookup ("rule:" ++ entry.name)

/-- What a computed variant makes of a name, given its pattern. -/
def ComputedVariant.verdict (name : Text) (variant : ComputedVariant) (pattern : Pattern) :
    Except Error (Option Variant) :=
  match pattern.matchWhole name with
  | none => .ok none
  | some found => variant.resolve found

/-- What a rule makes of a body, given its pattern. -/
def RegisteredRule.verdict (theme : Theme) (body : Text) (entry : RegisteredRule)
    (pattern : Pattern) : Except Error (Option Resolution) :=
  match pattern.matchWhole body with
  | none => .ok none
  | some found => do
      match ← entry.rule.body.properties found theme with
      | some properties => .ok (some ⟨entry, properties.declarations, properties.nested⟩)
      | none => .ok none

theorem Registry.resolveComputed_eq_sweep (name : Text) (variants : List ComputedVariant) :
    Registry.resolveComputed name variants =
      sweep ComputedVariant.lookup (ComputedVariant.verdict name) variants := by
  induction variants with
  | nil => rfl
  | cons variant rest ih =>
      rw [Registry.resolveComputed, sweep, RulePattern.fetch_eq, ih]
      congr 1
      funext pattern
      cases hmatch : pattern.matchWhole name with
      | none => simp only [ComputedVariant.verdict, hmatch]; rfl
      | some found =>
          simp only [ComputedVariant.verdict, hmatch]
          congr 1
          funext resolved
          cases resolved <;> rfl

theorem Registry.scan_eq_sweep (theme : Theme) (body : Text) (rules : List RegisteredRule) :
    Registry.scan theme body rules =
      sweep RegisteredRule.lookup (RegisteredRule.verdict theme body) rules := by
  induction rules with
  | nil => rfl
  | cons entry rest ih =>
      rw [Registry.scan, sweep, RulePattern.fetch_eq, ih]
      congr 1
      funext pattern
      cases hmatch : pattern.matchWhole body with
      | none => simp only [RegisteredRule.verdict, hmatch]; rfl
      | some found =>
          simp only [RegisteredRule.verdict, hmatch]
          cases entry.rule.body.properties found theme with
          | error error => rfl
          | ok properties => cases properties <;> rfl

namespace Migration

/-- The lookup for a mapping rule at its place. -/
def ruleLookup (item : MappingRule × Nat) : Lookup :=
  ⟨item.1.key item.2, .text item.1.pattern, 0⟩

def shapeLookup : Lookup := ⟨shapeKey, .text shapeSource, 0⟩

def categoryLookup (item : Text × Text) : Lookup :=
  ⟨"migration:category:" ++ item.1, .text item.2, 0⟩

/-- What a mapping rule makes of a name, given its pattern. -/
def ruleVerdict (given : Text) (item : MappingRule × Nat) (pattern : Pattern) :
    Except Error (Option Verdict) :=
  .ok ((pattern.search given).map (item.1.verdict given))

/-- What a category makes of a name, given its pattern. -/
def categoryVerdict (name : Text) (item : Text × Text) (pattern : Pattern) :
    Except Error (Option Text) :=
  .ok (if (pattern.search name).isSome then some item.1 else none)

theorem firstVerdict_eq_sweep (given : Text) (index : Nat) (rules : List MappingRule) :
    firstVerdict given index rules = (do
      match ← sweep ruleLookup (ruleVerdict given) (rules.zipIdx index) with
      | some verdict => return verdict
      | none => unknownVerdict given) := by
  induction rules generalizing index with
  | nil => rfl
  | cons rule rest ih =>
      rw [firstVerdict, List.zipIdx_cons, sweep, ih, bind_assoc]
      congr 1
      funext pattern
      cases hsearch : pattern.search given with
      | none => simp only [ruleVerdict, hsearch]; rfl
      | some found => simp only [ruleVerdict, hsearch]; rfl

theorem firstCategory_eq_sweep (name : Text) (items : List (Text × Text)) :
    firstCategory name items = (do
      let found ← sweep categoryLookup (categoryVerdict name) items
      return found.getD otherCategory) := by
  induction items with
  | nil => rfl
  | cons item rest ih =>
      rw [firstCategory, sweep, ih, PatternCache.test, bind_assoc, bind_assoc]
      congr 1
      funext pattern
      cases hsearch : (pattern.search name).isSome with
      | false => simp only [categoryVerdict, hsearch]; rfl
      | true => simp only [categoryVerdict, hsearch]; rfl

/-- The lookups of the mapping of foreign names. -/
def lookups : List Lookup :=
  defaultRules.zipIdx.map ruleLookup ++ shapeLookup :: categories.map categoryLookup

end Migration

/-- All lookups that an engine makes, in the order in which they take their keys. -/
def Engine.lookups (engine : Engine) : List Lookup :=
  Token.lookups ++ (engine.registry.computedVariants.map ComputedVariant.lookup ++
    (engine.registry.rules.map RegisteredRule.lookup ++ Migration.lookups))

/-- The lookups that styling makes. -/
def Engine.stylingLookups (engine : Engine) : List Lookup :=
  Token.lookups ++ (engine.registry.computedVariants.map ComputedVariant.lookup ++
    engine.registry.rules.map RegisteredRule.lookup)

theorem Engine.lookups_eq (engine : Engine) :
    engine.lookups = engine.stylingLookups ++ Migration.lookups := by
  simp [Engine.lookups, Engine.stylingLookups]

/-! ## Keys of different parts -/

/-- Names that begin with different letters are different keys. -/
theorem Lookup.key_ne_of_head {first second : Lookup} {c d : Char}
    (hfirst : first.name.head? = some c) (hsecond : second.name.head? = some d) (hne : c ≠ d) :
    first.key ≠ second.key := by
  intro hkey
  have hname : first.name = second.name := congrArg Prod.fst hkey
  rw [hname, hsecond] at hfirst
  exact hne (Option.some.inj hfirst).symm

theorem Token.head_of_mem_lookups {lookup : Lookup} (hmem : lookup ∈ Token.lookups) :
    lookup.name.head? = some 'p' := by
  revert lookup
  decide

theorem ComputedVariant.head_lookup (variant : ComputedVariant) :
    variant.lookup.name.head? = some 'v' := by
  rw [ComputedVariant.lookup, RulePattern.lookup_name]
  rfl

theorem RegisteredRule.head_lookup (entry : RegisteredRule) :
    entry.lookup.name.head? = some 'r' := by
  rw [RegisteredRule.lookup, RulePattern.lookup_name]
  rfl

theorem Migration.shape_apart {lookup : Lookup}
    (hmem : lookup ∈ defaultRules.zipIdx.map ruleLookup) : lookup.key ≠ shapeLookup.key := by
  revert lookup
  decide

theorem Migration.category_apart {lookup : Lookup}
    (hmem : lookup ∈ defaultRules.zipIdx.map ruleLookup ++ [shapeLookup]) {item : Text × Text}
    (hitem : item ∈ categories) : lookup.key ≠ (categoryLookup item).key := by
  revert lookup item
  decide

theorem Migration.head_of_mem_lookups {lookup : Lookup} (hmem : lookup ∈ Migration.lookups) :
    lookup.name.head? = some 'm' := by
  revert lookup
  decide

namespace Engine

variable (engine : Engine)

/-- Computed variants are tried with the patterns that their keys belong to. -/
theorem settles_resolveComputed (name : Text) :
    Settles (PatternCache.Faithful engine.lookups)
      (Registry.resolveComputed name engine.registry.computedVariants)
      (sweepOwned engine.lookups ComputedVariant.lookup (ComputedVariant.verdict name)
        engine.registry.computedVariants) := by
  rw [Registry.resolveComputed_eq_sweep]
  refine settles_sweep _ (List.append_assoc _ _ _).symm ?_
  intro lookup hlookup variant _
  exact Lookup.key_ne_of_head (Token.head_of_mem_lookups hlookup) variant.head_lookup (by decide)

/-- Rules are tried with the patterns that their keys belong to. -/
theorem settles_scan (body : Text) :
    Settles (PatternCache.Faithful engine.lookups)
      (Registry.scan engine.registry.theme body engine.registry.rules)
      (sweepOwned engine.lookups RegisteredRule.lookup
        (RegisteredRule.verdict engine.registry.theme body) engine.registry.rules) := by
  rw [Registry.scan_eq_sweep]
  have hlookups : engine.lookups =
      (Token.lookups ++ engine.registry.computedVariants.map ComputedVariant.lookup) ++
        engine.registry.rules.map RegisteredRule.lookup ++ Migration.lookups := by
    simp [Engine.lookups]
  refine settles_sweep _ hlookups ?_
  intro lookup hlookup entry _
  rcases List.mem_append.mp hlookup with hreader | hvariant
  · exact Lookup.key_ne_of_head (Token.head_of_mem_lookups hreader) entry.head_lookup (by decide)
  · obtain ⟨variant, _, rfl⟩ := List.mem_map.mp hvariant
    exact Lookup.key_ne_of_head variant.head_lookup entry.head_lookup (by decide)

/-- No lookup of another part has a key of the mapping. -/
theorem key_ne_of_mem_migration {earlier lookup : Lookup}
    (hearlier : earlier ∈ engine.stylingLookups) (hlookup : lookup ∈ Migration.lookups) :
    earlier.key ≠ lookup.key := by
  have hhead := Migration.head_of_mem_lookups hlookup
  rcases List.mem_append.mp hearlier with hreader | hothers
  · exact Lookup.key_ne_of_head (Token.head_of_mem_lookups hreader) hhead (by decide)
  · rcases List.mem_append.mp hothers with hvariant | hrule
    · obtain ⟨variant, _, rfl⟩ := List.mem_map.mp hvariant
      exact Lookup.key_ne_of_head variant.head_lookup hhead (by decide)
    · obtain ⟨entry, _, rfl⟩ := List.mem_map.mp hrule
      exact Lookup.key_ne_of_head entry.head_lookup hhead (by decide)

theorem steady_resolveVariant (name : Text) :
    Steady (PatternCache.Faithful engine.lookups) (engine.registry.resolveVariant name) := by
  unfold Registry.resolveVariant
  split
  · exact Steady.pure _
  · split
    · exact Steady.pure _
    · exact (engine.settles_resolveComputed name).steady

theorem steady_isVariant (name : Text) :
    Steady (PatternCache.Faithful engine.lookups) (engine.registry.isVariant name) :=
  (engine.steady_resolveVariant name).bind fun _ => Steady.pure _

theorem steady_resolution (body : Text) :
    Steady (PatternCache.Faithful engine.lookups) (engine.registry.resolution body) := by
  unfold Registry.resolution
  split
  · exact Steady.pure none
  · exact (engine.settles_scan body).steady

theorem steady_applyVariants (names : List Text) (selector : Text) (atRules : List Text) :
    Steady (PatternCache.Faithful engine.lookups)
      (engine.registry.applyVariants names selector atRules) := by
  induction names generalizing selector atRules with
  | nil => exact Steady.pure _
  | cons name rest ih =>
      unfold Registry.applyVariants
      refine (engine.steady_resolveVariant name).bind fun found => ?_
      cases found with
      | none => exact Steady.pure none
      | some variant => exact ih _ _

/-- What the engine's test answers about a segment when nothing has been looked up. -/
def accepts (name : Text) : Except Error Bool := (engine.registry.isVariant name {}).1

theorem settles_isVariant (name : Text) :
    Settles (PatternCache.Faithful engine.lookups) (engine.registry.isVariant name)
      (engine.accepts name) :=
  (engine.steady_isVariant name).settles (PatternCache.faithful_empty _)

theorem settles_read (raw : Text) :
    Settles (PatternCache.Faithful engine.lookups) (engine.read raw)
      (Token.readAnswer engine.accepts raw) :=
  Token.settles_read engine.settles_isVariant raw

/-! ## The mapping of foreign names -/

theorem settles_ruleSweep (given : Text) :
    Settles (PatternCache.Faithful engine.lookups)
      (sweep Migration.ruleLookup (Migration.ruleVerdict given) Migration.defaultRules.zipIdx)
      (sweepOwned engine.lookups Migration.ruleLookup (Migration.ruleVerdict given)
        Migration.defaultRules.zipIdx) := by
  have hlookups : engine.lookups = engine.stylingLookups ++
      Migration.defaultRules.zipIdx.map Migration.ruleLookup ++
      (Migration.shapeLookup :: Migration.categories.map Migration.categoryLookup) := by
    simp [engine.lookups_eq, Migration.lookups]
  refine settles_sweep _ hlookups ?_
  intro lookup hlookup item hitem
  refine engine.key_ne_of_mem_migration hlookup ?_
  exact List.mem_append_left _ (List.mem_map_of_mem hitem)

theorem settles_shape :
    Settles (PatternCache.Faithful engine.lookups) Migration.shapeLookup.fetch
      (owned engine.lookups Migration.shapeLookup.key) := by
  have hlookups : engine.lookups =
      (engine.stylingLookups ++ Migration.defaultRules.zipIdx.map Migration.ruleLookup) ++
      Migration.shapeLookup :: Migration.categories.map Migration.categoryLookup := by
    simp [engine.lookups_eq, Migration.lookups]
  rw [hlookups]
  refine PatternCache.settles_fetch ?_
  intro earlier hearlier
  rcases List.mem_append.mp hearlier with hother | hrule
  · exact engine.key_ne_of_mem_migration hother (List.mem_append_right _ List.mem_cons_self)
  · exact Migration.shape_apart hrule

theorem steady_category (name : Text) :
    Steady (PatternCache.Faithful engine.lookups) (Migration.category name) := by
  rw [Migration.category, Migration.firstCategory_eq_sweep]
  refine Steady.bind ?_ fun _ => Steady.pure _
  have hlookups : engine.lookups = (engine.stylingLookups ++
      (Migration.defaultRules.zipIdx.map Migration.ruleLookup ++ [Migration.shapeLookup])) ++
      Migration.categories.map Migration.categoryLookup ++ [] := by
    simp [engine.lookups_eq, Migration.lookups]
  refine (settles_sweep _ hlookups ?_).steady
  intro lookup hlookup item hitem
  rcases List.mem_append.mp hlookup with hother | hmapping
  · refine engine.key_ne_of_mem_migration hother ?_
    exact List.mem_append_right _ (List.mem_cons_of_mem _ (List.mem_map_of_mem hitem))
  · exact Migration.category_apart hmapping hitem

theorem steady_mapClass (given : Text) (custom : Table Text Text) :
    Steady (PatternCache.Faithful engine.lookups)
      (Migration.mapClass Migration.defaultRules given custom) := by
  unfold Migration.mapClass
  split
  · exact Steady.pure _
  · rw [Migration.firstVerdict_eq_sweep]
    refine (engine.settles_ruleSweep given).steady.bind fun found => ?_
    cases found with
    | some verdict => exact Steady.pure verdict
    | none =>
        refine engine.settles_shape.steady.bind fun pattern => ?_
        split
        · exact Steady.pure _
        · exact Steady.pure _

theorem steady_mapClasses (custom : Table Text Text) (names : List Text) :
    Steady (PatternCache.Faithful engine.lookups)
      (Migration.mapClasses Migration.defaultRules custom names) := by
  induction names with
  | nil => exact Steady.pure []
  | cons given rest ih =>
      exact (engine.steady_mapClass given custom).bind fun _ => ih.bind fun _ => Steady.pure _

theorem steady_groupInto (groups : Table Text (List Text)) (names : List Text) :
    Steady (PatternCache.Faithful engine.lookups) (Migration.groupInto groups names) := by
  induction names generalizing groups with
  | nil => exact Steady.pure groups
  | cons name rest ih => exact (engine.steady_category name).bind fun _ => ih _

end Engine

end UtilityCss
