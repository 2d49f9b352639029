import UtilityCss.Proofs.BracketRules
import UtilityCss.Proofs.PayloadExtraction
import UtilityCss.Proofs.StandardStyling

/-!
# Malformed brackets

Reading a class name finds the bracket that closes a payload by counting; a rule takes the first
bracket with the last. So a class name whose brackets are no payload can still be styled: it is,
exactly if its body is the lead of a utility and a text that is enclosed in brackets and that the
utility takes. The bracket that closes the first one is then not the last character, so that
brackets which are blank or which are followed by something else are styled only together with
later ones. Brackets in a modifier alone have no part in this.
-/

namespace UtilityCss

/-! ## Where the first bracket closes -/

namespace Token

theorem mem_of_payloadStart? {body : Text} {start : Nat}
    (hstart : payloadStart? body = some start) : '[' ∈ body := by
  obtain ⟨front, rest, rfl, -⟩ := payloadStart?_eq_some_iff.mp hstart
  simp

/-- The brackets of a payload begin behind a lead. -/
theorem payloadStart?_of_lead {lead : Text} (hlead : '[' ∉ lead)
    (hdash : lead = [] ∨ lead.getLast? = some '-') (rest : Text) :
    payloadStart? (lead ++ '[' :: rest) = some lead.length := by
  refine payloadStart?_eq_some_iff.mpr ⟨lead, rest, rfl, ?_, rfl⟩
  rcases hdash with rfl | hdash
  · exact .inl rfl
  · obtain ⟨front, rfl⟩ := List.getLast?_eq_some_iff.mp hdash
    refine .inr ⟨?_, front, rfl, ?_⟩
    · cases front with
      | nil => simp
      | cons c front => simpa using (List.ne_of_not_mem_cons hlead).symm
    · intro other others hbody
      by_contra hearlier
      rw [Nat.not_le] at hearlier
      -- The bracket behind an earlier dash would be a part of the lead.
      have hplace := congrArg (·[other.length + 1]?) hbody
      have hinside : other.length + 1 < (front ++ ['-']).length := by simpa using hearlier
      simp only [List.getElem?_append_left hinside] at hplace
      rw [List.getElem?_append_right (Nat.le_add_right _ 1), Nat.add_sub_cancel_left] at hplace
      exact hlead (List.mem_of_getElem? hplace)

end Token

namespace Catalog

theorem shape_of_bracketLeads {use : BracketUse} {lead : Text}
    (hlead : (use, lead) ∈ bracketLeads) :
    '[' ∉ lead ∧ '/' ∉ lead ∧ (lead = [] ∨ lead.getLast? = some '-') := by
  have hshape := List.all_eq_true.mp brackets_decided.2.2 _ hlead
  simpa [and_assoc] using hshape

/-- What is taken is a lead and a key that is enclosed in brackets. -/
theorem exists_enclosed_of_takesBrackets {t : Text} (ht : takesBrackets t = true) :
    ∃ lead inner, t = lead ++ '[' :: (inner ++ [']']) ∧ '[' ∉ lead ∧ '/' ∉ lead ∧
      (lead = [] ∨ lead.getLast? = some '-') ∧ ∃ c ∈ inner, Text.isBlank c = false := by
  obtain ⟨use, lead, key, hmem, rfl, haccepts⟩ := exists_lead_of_takesBehind ht
  obtain ⟨inner, rfl, -, hfilled⟩ := BracketUse.isEnclosed haccepts
  obtain ⟨hbracket, hslash, hdash⟩ := shape_of_bracketLeads hmem
  exact ⟨lead, inner, rfl, hbracket, hslash, hdash, hfilled⟩

/-- Brackets behind a slash only are not taken. -/
theorem takesBrackets_of_modifier {body : Text} (hbody : '[' ∉ body) (modifier : Text) :
    takesBrackets (body ++ '/' :: modifier) = false := by
  rw [Bool.eq_false_iff]
  intro htaken
  obtain ⟨lead, inner, hsplit, -, hslash, -⟩ := exists_enclosed_of_takesBrackets htaken
  -- Either the lead reaches to the slash and beyond, or the bracket is in the body.
  rcases List.append_eq_append_iff.mp hsplit with ⟨more, rfl, hmore⟩ | ⟨more, rfl, hmore⟩
  · cases more with
    | nil => simp at hmore
    | cons c more => simp_all
  · cases more with
    | nil => simp at hmore
    | cons c more => simp_all

end Catalog

/-- A body of a token is all of its text, or what stands before a slash. -/
theorem Token.exists_fullBody {token : Token} {t : Text} (ht : t ∈ token.bodies) :
    ∃ behind, token.fullBody = t ++ behind ∧ (behind = [] ∨ behind.head? = some '/') := by
  rw [bodies] at ht
  rw [fullBody]
  cases hmodifier : token.modifier with
  | none =>
      rw [hmodifier] at ht
      obtain rfl : t = token.body := by simpa using ht
      exact ⟨[], by simp, .inl rfl⟩
  | some modifier =>
      rw [hmodifier] at ht
      obtain rfl | rfl : t = token.body ++ '/' :: modifier ∨ t = token.body := by simpa using ht
      · exact ⟨[], by simp, .inl rfl⟩
      · exact ⟨'/' :: modifier, rfl, .inr rfl⟩

/-- Where there is no payload, the first bracket of a text that is taken does not close at the
end of that text. -/
theorem Token.closingBracket?_of_takesBrackets {token : Token} {start : Nat}
    (hspan : payloadSpan? token.fullBody = none)
    (hstart : payloadStart? token.fullBody = some start) {t : Text} (ht : t ∈ token.bodies)
    (htaken : Catalog.takesBrackets t = true) :
    Brackets.closingBracket? token.fullBody start ≠ some (t.length - 1) := by
  obtain ⟨lead, inner, rfl, hbracket, -, hdash, hfilled⟩ :=
    Catalog.exists_enclosed_of_takesBrackets htaken
  obtain ⟨behind, hfull, hbehind⟩ := exists_fullBody ht
  have hsplit : lead ++ '[' :: (inner ++ [']']) ++ behind =
      lead ++ '[' :: (inner ++ ']' :: behind) := by simp
  rw [hfull, hsplit] at hspan hstart ⊢
  rw [payloadStart?_of_lead hbracket hdash] at hstart
  obtain rfl := Option.some.inj hstart
  intro hclose
  have hplace : (lead ++ '[' :: (inner ++ [']'])).length - 1 = lead.length + 1 + inner.length := by
    simp
    omega
  rw [hplace] at hclose
  have hfound := (payloadSpan?_of_closing (payloadStart?_of_lead hbracket hdash _) hclose
    _).mpr ⟨hbehind, hfilled, rfl⟩
  rw [hspan] at hfound
  cases hfound

/-! ## Styling -/

theorem Catalog.standardTheme_lacksBrackets : standardTheme.lacksBrackets = true := by rfl

namespace Engine

variable {engine : Engine}

namespace IsStandard

/-- A text with a bracket is resolved exactly if it is taken. -/
theorem exists_resolve_of_bracket (hengine : engine.IsStandard) {t : Text} (ht : '[' ∈ t) :
    ∃ found, Settles engine.Faithful (engine.registry.resolve t) (.ok found) ∧
      found.isSome = Catalog.takesBrackets t := by
  have hsettles := engine.settles_resolve t
  have hsome := hengine.resolution_isSome (List.ne_nil_of_mem ht)
  obtain ⟨properties, hproperties, htaken⟩ :=
    Catalog.exists_firstAnswer_utilities Catalog.standardTheme_lacksBrackets ht
  rw [hproperties] at hsome
  cases hfound : (engine.registry.resolution t {}).1 with
  | error error =>
      rw [hfound] at hsome
      cases hsome
  | ok found =>
      rw [hfound] at hsome hsettles
      exact ⟨found, hsettles, (Except.ok.inj hsome).trans htaken⟩

/-- A token with a bracket in its body is resolved exactly if one of its bodies is taken. -/
theorem exists_resolveToken_of_bracket (hengine : engine.IsStandard) {token : Token}
    (hbracket : '[' ∈ token.body) :
    ∃ resolved, Settles engine.Faithful (engine.resolveToken token token.body) (.ok resolved) ∧
      (resolved.isSome = true ↔ ∃ t ∈ token.bodies, Catalog.takesBrackets t = true) := by
  obtain ⟨found, hfound, htaken⟩ := hengine.exists_resolve_of_bracket hbracket
  have hbody : Settles engine.Faithful
      (do return (← engine.registry.resolve token.body).map (·, token.opacity) : Resolving _)
      (.ok (found.map (·, token.opacity))) := hfound.bind_ok (Settles.pure _)
  unfold resolveToken
  rw [Token.bodies]
  cases token.modifier with
  | none => exact ⟨_, hbody, by simp [← htaken]⟩
  | some modifier =>
      obtain ⟨early, hearly, hfull⟩ := hengine.exists_resolve_of_bracket
        (List.mem_append_left ('/' :: modifier) hbracket)
      cases early with
      | some early => exact ⟨_, hearly.bind_ok (Settles.pure _), by simp [← hfull]⟩
      | none => exact ⟨_, hearly.bind_ok hbody, by simp [← hfull, ← htaken]⟩

/-- A token with a bracket in its body is styled exactly if its variants are known and one of its
bodies is taken. -/
theorem exists_style_of_bracket (hengine : engine.IsStandard) {token : Token}
    (hbracket : '[' ∈ token.body) :
    ∃ styled, Settles engine.Faithful (engine.style token) (.ok styled) ∧
      (styled.isSome = true ↔ (∀ name ∈ token.variants, engine.accepts name = .ok true) ∧
        ∃ t ∈ token.bodies, Catalog.takesBrackets t = true) := by
  obtain ⟨place, hplace, hknown⟩ := hengine.exists_applyVariants token.variants
    (Selector.ofClass token.raw) []
  obtain ⟨resolved, hresolved, htaken⟩ := hengine.exists_resolveToken_of_bracket hbracket
  refine ⟨_, hengine.settles_style_of_resolveToken token hplace hresolved, ?_⟩
  rw [← hknown, ← htaken]
  cases resolved <;> cases place <;> simp

/-- Brackets in the modifier alone are not resolved, and the body is. -/
theorem settles_resolveToken_of_modifier (hengine : engine.IsStandard) {token : Token}
    (hbody : '[' ∉ token.body) (hfull : '[' ∈ token.fullBody) :
    ∃ answer, Settles engine.Faithful (engine.resolveToken token token.body) answer ∧
      Settles engine.Faithful
        (engine.resolveToken { token with modifier := none } token.body) answer := by
  have hresolve := (engine.settles_resolve token.body).bind
    fun found _ => Settles.pure (found.map (·, token.opacity))
  refine ⟨_, ?_, hresolve⟩
  rw [Token.fullBody] at hfull
  unfold resolveToken
  cases hmodifier : token.modifier with
  | none =>
      rw [hmodifier] at hfull
      exact absurd hfull hbody
  | some modifier =>
      rw [hmodifier] at hfull
      obtain ⟨found, hfound, htaken⟩ := hengine.exists_resolve_of_bracket hfull
      rw [Catalog.takesBrackets_of_modifier hbody, Option.isSome_eq_false_iff,
        Option.isNone_iff_eq_none] at htaken
      rw [htaken] at hfound
      exact hfound.bind_ok hresolve

end IsStandard

theorem isStandard_of_build (hbuild : build {} = .ok engine) : engine.IsStandard := by
  obtain ⟨other, hother, hengine⟩ := exists_build
  rw [hbuild] at hother
  rw [Except.ok.inj hother]
  exact hengine

/-- A class name with brackets that are no payload, in the standard engine and after every
history. With a bracket in its body it is styled exactly if its variants are known and its body,
with the modifier or without it, is the lead of a utility and a key that the utility takes in
brackets. With brackets in its modifier alone it is styled as without the modifier, whose opacity
it keeps. And the first bracket of a text that is taken does not close at the end of that text. -/
theorem malformed_brackets (hbuild : build {} = .ok engine) {raw : Text} {token : Token}
    (hread : (engine.read raw {}).1 = .ok token) (hpayload : token.payload = none) {start : Nat}
    (hstart : Token.payloadStart? token.fullBody = some start) (history : List Call) :
    ('[' ∈ token.body → ∃ styled, (engine.style token (engine.after history)).1 = .ok styled ∧
      (styled.isSome = true ↔ (∀ name ∈ token.variants, engine.accepts name = .ok true) ∧
        ∃ t ∈ token.bodies, Catalog.takesBrackets t = true)) ∧
    ('[' ∉ token.body → (engine.style token (engine.after history)).1 =
      (engine.style { token with modifier := none } (engine.after history)).1.map
        (Option.map fun styled => { styled with token })) ∧
    ∀ t ∈ token.bodies, Catalog.takesBrackets t = true →
      Brackets.closingBracket? token.fullBody start ≠ some (t.length - 1) := by
  have hengine := isStandard_of_build hbuild
  have hsession := engine.faithful_after history
  refine ⟨?_, ?_, ?_⟩
  · intro hbracket
    obtain ⟨styled, hstyled, htaken⟩ := hengine.exists_style_of_bracket hbracket
    exact ⟨styled, (hstyled _ hsession).1, htaken⟩
  · intro hbody
    obtain ⟨place, hplace, -⟩ := hengine.exists_applyVariants token.variants
      (Selector.ofClass token.raw) []
    obtain ⟨answer, hanswer, hbare⟩ := hengine.settles_resolveToken_of_modifier hbody
      (Token.mem_of_payloadStart? hstart)
    have hstyle := hengine.settles_style_of_resolveToken token hplace hanswer
    have hbareStyle := hengine.settles_style_of_resolveToken { token with modifier := none } hplace
      hbare
    rw [(hstyle _ hsession).1, (hbareStyle _ hsession).1]
    rcases answer with error | resolved
    · rfl
    · cases resolved <;> cases place <;> rfl
  · intro t ht htaken
    rw [(engine.settles_read raw {} (PatternCache.faithful_empty _)).1] at hread
    exact Token.closingBracket?_of_takesBrackets
      (Token.payloadSpan?_of_readAnswer hread hpayload) hstart ht htaken

/-- Empty brackets are styled together with those of the modifier. -/
theorem malformed_brackets_joined : ∃ engine token styled, build {} = .ok engine ∧
    (engine.read "p-[]/[x]" {}).1 = .ok token ∧ token.payload = none ∧
    token.modifier = some "[x]" ∧
    (engine.style token (engine.after [.clear])).1 = .ok (some styled) ∧
    Brackets.closingBracket? token.fullBody 2 ≠ some (token.fullBody.length - 1) := by
  obtain ⟨engine, hbuild, -⟩ := exists_build
  have hread := engine.read_of_segments "p-[]/[x]"
    { raw := "p-[]/[x]", utility := "p", value := some "[]", body := "p-[]",
      modifier := some "[x]", opacity := some (.verbatim "x") }
    rfl rfl
  obtain ⟨hstyle, -, hclose⟩ :=
    @malformed_brackets engine hbuild _ _ hread rfl 2 rfl [.clear]
  obtain ⟨styled, hstyled, htaken⟩ := hstyle (by simp)
  have htakes : Catalog.takesBrackets "p-[]/[x]" = true := by
    set_option maxRecDepth 4000 in rfl
  have hsome : styled.isSome = true := htaken.mpr ⟨by simp, "p-[]/[x]", by simp [Token.bodies], htakes⟩
  obtain ⟨styled, rfl⟩ := Option.isSome_iff_exists.mp hsome
  exact ⟨engine, _, styled, hbuild, hread, rfl, rfl, hstyled,
    hclose "p-[]/[x]" (by simp [Token.bodies]) htakes⟩

/-- Something follows the brackets, and is styled with them up to the last one. -/
theorem malformed_brackets_styled : ∃ engine token styled, build {} = .ok engine ∧
    (engine.read "p-[a]b]" {}).1 = .ok token ∧ token.payload = none ∧
    Token.payloadStart? token.fullBody = some 2 ∧
    (engine.style token {}).1 = .ok (some styled) := by
  obtain ⟨engine, hbuild, hengine⟩ := exists_build
  have hread := engine.read_of_segments "p-[a]b]"
    { raw := "p-[a]b]", utility := "p", value := some "[a]b]", body := "p-[a]b]" }
    rfl rfl
  obtain ⟨styled, hstyled, htaken⟩ := @IsStandard.exists_style_of_bracket engine hengine
    { raw := "p-[a]b]", utility := "p", value := some "[a]b]", body := "p-[a]b]" }
    (by simp)
  have htakes : Catalog.takesBrackets "p-[a]b]" = true := by
    set_option maxRecDepth 4000 in rfl
  have hsome : styled.isSome = true := htaken.mpr ⟨by simp, "p-[a]b]", by simp [Token.bodies], htakes⟩
  obtain ⟨styled, rfl⟩ := Option.isSome_iff_exists.mp hsome
  exact ⟨engine, _, styled, hbuild, hread, rfl, rfl,
    (hstyled _ engine.faithful_new).1⟩

end Engine

end UtilityCss
