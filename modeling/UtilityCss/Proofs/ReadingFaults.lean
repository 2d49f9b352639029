import UtilityCss.Proofs.CatalogInstallation
import UtilityCss.Proofs.GroupMeaning
import UtilityCss.Proofs.HistoryIndependence

/-!
# Faults of reading

The computed variants of the catalogue have patterns that can be read, and find in every
match the groups that they ask for. So the test for variants always has an answer, variants
can always be applied, and a class name is refused for one reason only: it is a variant group
where none is expected.
-/

namespace UtilityCss

namespace ComputedVariant

/-- Nothing goes wrong when the variant is tried with its own pattern. -/
def IsTotal (variant : ComputedVariant) : Prop :=
  ∀ name, ∃ found, (variant.lookup.own >>= variant.verdict name) = .ok found

/-- The variant succeeds on matches that provide some groups. -/
def Resolves (variant : ComputedVariant) (texts names : List Text) : Prop :=
  ∀ found : Match, found.Provides texts names → ∃ resolved, variant.resolve found = .ok resolved

/-- The pattern can be read and provides some groups. -/
def provides (pattern : RulePattern) (texts names : List Text) : Bool :=
  (pattern.lookup []).pattern?.any fun pattern =>
    texts.all pattern.offers && names.all pattern.knows

theorem isTotal_of_resolves {variant : ComputedVariant} {texts names : List Text}
    (hresolves : variant.Resolves texts names)
    (hpattern : provides variant.pattern texts names = true) : variant.IsTotal := by
  obtain ⟨pattern, hread, hgroups⟩ := (Option.any_eq_true _ _).mp hpattern
  rw [Bool.and_eq_true, List.all_eq_true, List.all_eq_true] at hgroups
  have hown : variant.lookup.own = .ok pattern := by
    rw [Lookup.own, lookup, RulePattern.pattern?_lookup, hread]
  intro name
  rw [hown, ok_bind, verdict]
  cases hmatch : pattern.matchWhole name with
  | none => exact ⟨none, rfl⟩
  | some found =>
      exact hresolves found (Pattern.provides_of_matchWhole hmatch hgroups.1 hgroups.2)

end ComputedVariant

/-! ## The variants of the catalogue -/

namespace Catalog

open ComputedVariant

theorem resolves_screenVariant (screens : List (Text × Text)) :
    (screenVariant screens).Resolves ["screen"] ["max", "only"] := by
  intro found hfound
  obtain ⟨name, hname⟩ := hfound.text "screen" (by simp)
  obtain ⟨below, hbelow⟩ := hfound.named "max" (by simp)
  obtain ⟨only, honly⟩ := hfound.named "only" (by simp)
  dsimp only [screenVariant]
  rw [hname, ok_bind]
  split
  · exact ⟨none, rfl⟩
  · rw [hbelow, ok_bind]
    split
    · rw [honly]
      exact ⟨_, rfl⟩
    · rw [honly, ok_bind]
      split <;> exact ⟨_, rfl⟩

theorem resolves_groupVariant : groupVariant.Resolves ["kind"] ["state", "arbitrary"] := by
  intro found hfound
  obtain ⟨kind, hkind⟩ := hfound.text "kind" (by simp)
  obtain ⟨state, hstate⟩ := hfound.named "state" (by simp)
  obtain ⟨arbitrary, harbitrary⟩ := hfound.named "arbitrary" (by simp)
  dsimp only [groupVariant]
  rw [hkind, ok_bind, hstate, ok_bind, harbitrary]
  exact ⟨_, rfl⟩

theorem resolves_dataVariant : dataVariant.Resolves ["value"] [] := by
  intro found hfound
  obtain ⟨inner, hinner⟩ := hfound.text "value" (by simp)
  dsimp only [dataVariant]
  rw [hinner]
  exact ⟨_, rfl⟩

theorem resolves_ariaVariant : ariaVariant.Resolves [] ["state", "arbitrary"] := by
  intro found hfound
  obtain ⟨state, hstate⟩ := hfound.named "state" (by simp)
  obtain ⟨arbitrary, harbitrary⟩ := hfound.named "arbitrary" (by simp)
  dsimp only [ariaVariant]
  rw [hstate, ok_bind, harbitrary]
  exact ⟨_, rfl⟩

theorem resolves_supportsVariant : supportsVariant.Resolves ["value"] [] := by
  intro found hfound
  obtain ⟨inner, hinner⟩ := hfound.text "value" (by simp)
  dsimp only [supportsVariant]
  rw [hinner]
  exact ⟨_, rfl⟩

theorem resolves_widthVariant : widthVariant.Resolves ["value", "kind"] [] := by
  intro found hfound
  obtain ⟨inner, hinner⟩ := hfound.text "value" (by simp)
  obtain ⟨kind, hkind⟩ := hfound.text "kind" (by simp)
  dsimp only [widthVariant]
  rw [hinner, ok_bind]
  split
  · exact ⟨none, rfl⟩
  · rw [hkind]
    exact ⟨_, rfl⟩

theorem resolves_containerVariant (entries : List (Text × Value)) :
    (containerVariant (.table entries)).Resolves ["size"] [] := by
  intro found hfound
  obtain ⟨size, hsize⟩ := hfound.text "size" (by simp)
  dsimp only [containerVariant]
  rw [hsize, ok_bind, containerWidth]
  split <;> exact ⟨_, rfl⟩

theorem provides_variantPatterns :
    provides (screenVariant []).pattern ["screen"] ["max", "only"] = true ∧
      provides groupVariant.pattern ["kind"] ["state", "arbitrary"] = true ∧
      provides dataVariant.pattern ["value"] [] = true ∧
      provides ariaVariant.pattern [] ["state", "arbitrary"] = true ∧
      provides supportsVariant.pattern ["value"] [] = true ∧
      provides widthVariant.pattern ["value", "kind"] [] = true ∧
      provides (containerVariant (.table [])).pattern ["size"] [] = true := by
  decide +kernel

theorem isTotal_computedVariants (screens : Theme) (entries : List (Text × Value)) :
    ∀ variant ∈ computedVariants screens (.table entries), variant.IsTotal := by
  obtain ⟨hscreen, hgroup, hdata, haria, hsupports, hwidth, hcontainer⟩ := provides_variantPatterns
  simp only [computedVariants, List.forall_mem_cons]
  exact ⟨isTotal_of_resolves (resolves_screenVariant _) hscreen,
    isTotal_of_resolves resolves_groupVariant hgroup,
    isTotal_of_resolves resolves_dataVariant hdata,
    isTotal_of_resolves resolves_ariaVariant haria,
    isTotal_of_resolves resolves_supportsVariant hsupports,
    isTotal_of_resolves resolves_widthVariant hwidth,
    isTotal_of_resolves (resolves_containerVariant entries) hcontainer, by simp⟩

end Catalog

namespace Engine

variable {engine : Engine}

/-- Computed variants with distinct names own their keys. -/
theorem owned_variant (hnames : (engine.registry.computedVariants.map (·.name)).Nodup)
    {variant : ComputedVariant} (hmem : variant ∈ engine.registry.computedVariants) :
    owned engine.lookups variant.lookup.key = variant.lookup.own := by
  obtain ⟨before, after, hvariants⟩ := List.append_of_mem hmem
  have hlookups : engine.lookups = (Token.lookups ++ before.map ComputedVariant.lookup) ++
      variant.lookup :: (after.map ComputedVariant.lookup ++
        (engine.registry.rules.map RegisteredRule.lookup ++ Migration.lookups)) := by
    simp [Engine.lookups, hvariants]
  rw [hlookups]
  apply owned_of_first
  intro earlier hearlier
  rcases List.mem_append.mp hearlier with hreader | hvariant
  · exact Lookup.key_ne_of_head (Token.head_of_mem_lookups hreader) variant.head_lookup (by decide)
  · obtain ⟨other, hother, rfl⟩ := List.mem_map.mp hvariant
    intro hkey
    have hname : other.lookup.name = variant.lookup.name := congrArg Prod.fst hkey
    simp only [ComputedVariant.lookup, RulePattern.lookup_name] at hname
    rw [hvariants] at hnames
    exact ne_of_nodup_map hnames other hother (List.append_cancel_left hname)

/-- A name is accepted if it is found to be a variant. -/
theorem accepts_of_resolveVariant {name : Text} {found : Option Variant}
    (hfound : Settles (PatternCache.Faithful engine.lookups) (engine.registry.resolveVariant name)
      (.ok found)) : engine.accepts name = .ok found.isSome := by
  have hone : Settles (PatternCache.Faithful engine.lookups) (engine.registry.isVariant name)
      (.ok found.isSome) := hfound.bind_ok (Settles.pure _)
  exact (hone {} (PatternCache.faithful_empty _)).1

namespace IsStandard

/-- Every name either is a variant or is none. -/
theorem exists_resolveVariant (hengine : engine.IsStandard) (name : Text) :
    ∃ found, Settles (PatternCache.Faithful engine.lookups)
      (engine.registry.resolveVariant name) (.ok found) := by
  unfold Registry.resolveVariant
  split
  · exact ⟨_, Settles.pure _⟩
  · split
    · exact ⟨_, Settles.pure _⟩
    · obtain ⟨screens, entries, hcomputed⟩ := hengine.computed
      have hnames : (engine.registry.computedVariants.map (·.name)).Nodup := by
        rw [hcomputed]
        exact Catalog.nodup_computedVariants screens _
      have hsettles := engine.settles_resolveComputed name
      rw [sweepOwned_eq_firstAnswer _ fun variant hmem => owned_variant hnames hmem] at hsettles
      cases hanswer : firstAnswer (fun variant : ComputedVariant =>
          variant.lookup.own >>= variant.verdict name) engine.registry.computedVariants with
      | ok found =>
          rw [hanswer] at hsettles
          exact ⟨found, hsettles⟩
      | error error =>
          -- One of the variants would have failed.
          obtain ⟨variant, hmem, hfails⟩ := exists_error_of_firstAnswer hanswer
          rw [hcomputed] at hmem
          obtain ⟨found, hfound⟩ :=
            Catalog.isTotal_computedVariants screens entries variant hmem name
          rw [hfound] at hfails
          cases hfails

theorem exists_accepts (hengine : engine.IsStandard) :
    ∃ known : Text → Bool, engine.accepts = fun name => .ok (known name) := by
  have htotal (name : Text) : ∃ isOne, engine.accepts name = .ok isOne := by
    obtain ⟨found, hfound⟩ := hengine.exists_resolveVariant name
    exact ⟨_, accepts_of_resolveVariant hfound⟩
  exact ⟨fun name => (htotal name).choose, funext fun name => (htotal name).choose_spec⟩

/-- Variants can be applied if all are known. -/
theorem exists_applyVariants (hengine : engine.IsStandard) (names : List Text) (selector : Text)
    (atRules : List Text) :
    ∃ place, Settles (PatternCache.Faithful engine.lookups)
        (engine.registry.applyVariants names selector atRules) (.ok place) ∧
      (place.isSome = true ↔ ∀ name ∈ names, engine.accepts name = .ok true) := by
  induction names generalizing selector atRules with
  | nil => exact ⟨_, Settles.pure _, by simp⟩
  | cons name rest ih =>
      obtain ⟨found, hfound⟩ := hengine.exists_resolveVariant name
      have hname := accepts_of_resolveVariant hfound
      unfold Registry.applyVariants
      cases found with
      | none => exact ⟨none, hfound.bind_ok (Settles.pure none), by simp [hname]⟩
      | some variant =>
          obtain ⟨place, hplace, hknown⟩ := ih (variant.apply selector atRules).1
            (variant.apply selector atRules).2
          exact ⟨place, hfound.bind_ok hplace, by simp [hknown, hname]⟩

end IsStandard

end Engine

/-! ## Names that cannot be read -/

namespace Token

/-- The only error is that of a variant group. -/
theorem eq_variantGroup_of_readAnswer {known : Text → Bool} {raw : Text} {error : Error}
    (herror : readAnswer (fun name => .ok (known name)) raw = .error error) :
    ∃ position, error = .variantGroup raw position := by
  obtain ⟨found, hsplit⟩ := exists_splitVariants known
    (ClassName.segments (splitImportant (Text.trim raw)).2)
  rw [readAnswer, hsplit, ok_bind] at herror
  cases hgroup : isGroup (splitImportant (Text.join ":" found.2)).2 with
  | true =>
      rw [bodyAnswer, readBody, hgroup] at herror
      exact ⟨_, (Except.error.inj herror).symm⟩
  | false =>
      obtain ⟨token, htoken⟩ := exists_bodyAnswer raw found.1
        ((splitImportant (Text.trim raw)).1 || (splitImportant (Text.join ":" found.2)).1) hgroup
      rw [htoken] at herror
      cases herror

/-- Names that cannot be read are left out, if all they are is variant groups. -/
theorem settles_readEach_filterMap {more : List Lookup} {known : Text → Cached Bool}
    {accepts : Text → Except Error Bool}
    (hknown : ∀ name, Settles (PatternCache.Faithful (lookups ++ more)) (known name)
      (accepts name)) {raws : List Text}
    (herrors : ∀ raw ∈ raws, ∀ error, readAnswer accepts raw = .error error →
      ∃ group position, error = .variantGroup group position) :
    Settles (PatternCache.Faithful (lookups ++ more)) (readEach known raws)
      (.ok (raws.filterMap fun raw => (readAnswer accepts raw).toOption)) := by
  induction raws with
  | nil => exact Settles.pure []
  | cons raw rest ih =>
      have hfirst := settles_read hknown raw
      have hrest := ih fun other hother => herrors other (List.mem_cons_of_mem _ hother)
      rw [readEach_cons, List.filterMap_cons]
      cases hanswer : readAnswer accepts raw with
      | ok token =>
          rw [hanswer] at hfirst
          exact hfirst.attempt (hrest.bind_ok (Settles.pure _))
      | error error =>
          obtain ⟨group, position, rfl⟩ := herrors raw List.mem_cons_self error hanswer
          rw [hanswer] at hfirst
          exact hfirst.attempt hrest

end Token

end UtilityCss
