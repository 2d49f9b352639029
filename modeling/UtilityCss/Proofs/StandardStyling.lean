import UtilityCss.Proofs.EngineFaults

/-!
# Class names in the standard engine

A class name without variants is read without looking any up. In the standard engine its body
is resolved by the first rule of the catalogue that answers it, and its selector is that of the
class name.
-/

namespace UtilityCss

/-- A name of one segment is read alike whatever the variants are. -/
theorem Token.readAnswer_of_segments {raw segment : Text}
    (hsegments : ClassName.segments (splitImportant (Text.trim raw)).2 = [segment])
    (accepts : Text → Except Error Bool) :
    readAnswer accepts raw = readAnswer (fun _ => .ok false) raw := by
  rw [readAnswer, readAnswer, hsegments]
  rfl

theorem Declarations.keys_mapValues (change : Text → Text) (declarations : Declarations) :
    (declarations.mapValues change).keys = declarations.keys := by
  simp [mapValues, Table.keys]

theorem Declarations.keys_markImportant (declarations : Declarations) :
    declarations.markImportant.keys = declarations.keys := by
  simp [markImportant, Table.keys]

theorem Properties.declarations_ofDeclarations (declarations : Declarations) :
    (ofDeclarations declarations).declarations = declarations := by
  induction declarations with
  | nil => rfl
  | cons entry rest ih => exact congrArg (entry :: ·) ih

theorem Properties.nested_ofDeclarations (declarations : Declarations) :
    (ofDeclarations declarations).nested = [] := by
  simp [nested, ofDeclarations, List.filterMap_map]

namespace Engine

variable {engine : Engine}

theorem read_of_segments (engine : Engine) (raw : Text) (token : Token)
    (hsegments : ClassName.segments (Token.splitImportant (Text.trim raw)).2 = [raw])
    (hread : (Token.readAnswer (fun _ => .ok false) raw).toOption = some token) :
    (engine.read raw {}).1 = .ok token := by
  rw [(engine.settles_read raw {} (PatternCache.faithful_empty _)).1,
    Token.readAnswer_of_segments hsegments, eq_ok_of_toOption hread]

/-- Changing values leaves the properties in place. -/
theorem keys_adjust (token : Token) (negatable : Bool) (opacity : Option Opacity)
    (declarations : Declarations) :
    (engine.adjust token negatable opacity declarations).keys = declarations.keys := by
  unfold adjust Declarations.negate Declarations.withAlpha
  split <;> split <;> split <;>
    simp [Declarations.keys_mapValues, Declarations.keys_markImportant]

namespace IsStandard

/-- The first rule of the catalogue that answers a body resolves it. -/
theorem exists_resolution (hengine : engine.IsStandard) {body : Text} (hbody : body ≠ [])
    {before after : List Rule} {rule : Rule} (hrules : Catalog.utilityRules = before ++ rule :: after)
    (hbefore : ∀ other ∈ before, other.answer Catalog.standardTheme body = .ok none)
    {properties : Properties}
    (hanswer : rule.answer Catalog.standardTheme body = .ok (some properties)) :
    ∃ entry : RegisteredRule, entry.rule = rule ∧ (engine.registry.resolution body {}).1 =
      .ok (some ⟨entry, properties.declarations, properties.nested⟩) := by
  rw [← hengine.rules] at hrules
  obtain ⟨first, rest, hsplit, rfl, hrest⟩ := List.map_eq_append_iff.mp hrules
  obtain ⟨entry, later, rfl, rfl, -⟩ := List.map_eq_cons_iff.mp hrest
  refine ⟨entry, rfl, ?_⟩
  rw [hengine.resolution_eq hbody, hsplit, firstAnswer_append, firstAnswer, hanswer]
  · rfl
  · intro other hother
    rw [hbefore other.rule (List.mem_map_of_mem hother)]
    rfl

/-- A token without variants and modifier is styled under the selector of its class name. -/
theorem styleAnswer_plain (hengine : engine.IsStandard) {token : Token} {found : Resolution}
    (hvariants : token.variants = []) (hmodifier : token.modifier = none)
    (hfound : (engine.registry.resolution token.body {}).1 = .ok (some found)) :
    engine.styleAnswer token =
      .ok (some (engine.assemble token found token.opacity (Selector.ofClass token.raw) [])) := by
  have hplace : Settles (PatternCache.Faithful engine.lookups)
      (engine.registry.applyVariants token.variants (Selector.ofClass token.raw) [])
      (.ok (some (Selector.ofClass token.raw, []))) := by
    rw [hvariants]
    exact Settles.pure _
  have hresolve := engine.settles_resolve token.body
  rw [hfound] at hresolve
  have hresolved : Settles engine.Faithful (engine.resolveToken token token.body)
      (.ok (some (found, token.opacity))) := by
    unfold resolveToken
    rw [hmodifier]
    exact hresolve.bind_ok (Settles.pure _)
  have hstyle := hengine.settles_style_of_resolveToken token hplace hresolved
  exact hstyle.eq_of_run engine.faithful_new rfl |>.symm

/-- A class name that is the text of a rule with fixed declarations, after rules for other
texts only, is read and styled by that rule. -/
theorem exists_styled_of_fixed (hengine : engine.IsStandard) (token : Token)
    (hsegments : ClassName.segments (Token.splitImportant (Text.trim token.raw)).2 = [token.raw])
    (hread : (Token.readAnswer (fun _ => .ok false) token.raw).toOption = some token)
    {before after : List Rule} {rule : Rule} {declarations : Declarations}
    (hrules : Catalog.utilityRules = before ++ rule :: after)
    (hbefore : before.all (·.literal?.any (token.body != ·)) = true)
    (htext : rule.literal? = some token.body) (hfixed : rule.body = .fixed declarations)
    (hbody : token.body ≠ []) (hvariants : token.variants = []) (hmodifier : token.modifier = none) :
    ∃ styled, styled.token = token ∧ Token.readAnswer engine.accepts token.raw = .ok token ∧
      engine.styleAnswer token = .ok (some styled) ∧ styled.layer = rule.layer ∧
      styled.declarations.keys = declarations.keys := by
  have hothers : ∀ other ∈ before,
      other.answer Catalog.standardTheme token.body = .ok none := by
    intro other hother
    obtain ⟨name, hname, hne⟩ := (Option.any_eq_true _ _).mp (List.all_eq_true.mp hbefore _ hother)
    exact Rule.answer_of_other_text hname (by simpa using hne)
  obtain ⟨entry, rfl, hfound⟩ := hengine.exists_resolution hbody hrules hothers
    (Rule.answer_of_own_text htext hfixed)
  rw [Token.readAnswer_of_segments hsegments]
  refine ⟨_, rfl, eq_ok_of_toOption hread,
    hengine.styleAnswer_plain hvariants hmodifier hfound, rfl, ?_⟩
  rw [Properties.declarations_ofDeclarations, Properties.nested_ofDeclarations]
  exact keys_adjust _ _ _ _

end IsStandard

end Engine

end UtilityCss
