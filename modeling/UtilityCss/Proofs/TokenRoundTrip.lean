import UtilityCss.Proofs.AssembledNames
import UtilityCss.Proofs.HistoryIndependence

/-!
# Tokens are read back from their texts

A token can be written as a class name in which the mark of importance stands behind the
variants, wherever it was read. If no variant begins with an exclamation mark or a blank,
reading that name gives the token again. On an engine both names are therefore styled
alike, though their selectors differ.
-/

namespace UtilityCss

namespace Token

/-- A test for variants turns down every name that begins with an exclamation mark or a
blank. -/
def PlainStart (accepts : Text → Except Error Bool) : Prop :=
  ∀ (c : Char) (rest : Text), c = '!' ∨ Text.isBlank c = true → accepts (c :: rest) = .ok false

theorem toText_eq (token : Token) : token.toText = ClassName.withVariants
    (marked token.important (signed token.negative token.fullBody)) token.variants := rfl

/-- Only brackets are variants without being asked about. -/
theorem segmentAnswer_cons (accepts : Text → Except Error Bool) {c : Char} (hc : c ≠ '[')
    (rest : Text) : segmentAnswer accepts (c :: rest) = accepts (c :: rest) := by
  have hbracket : Payload.isBracketed (c :: rest) = false := by
    simp [Payload.isBracketed, Text.startsWith, hc.symm]
  rw [segmentAnswer, if_neg (List.cons_ne_nil c rest), if_neg (by simp [hbracket])]

/-- No variant is found behind a character that no variant begins with. -/
theorem stops_segments_cons {accepts : Text → Except Error Bool} {c : Char} (hcolon : c ≠ ':')
    (hbracket : Brackets.isBracket c = false) (hc : ∀ rest, accepts (c :: rest) = .ok false)
    (t : Text) : Stops accepts (ClassName.segments (c :: t)) := by
  have hopen : c ≠ '[' := by
    rintro rfl
    cases hbracket
  obtain ⟨first, others, hsegments⟩ := List.exists_cons_of_ne_nil (ClassName.segments_ne_nil t)
  rw [ClassName.segments_cons hcolon hbracket, hsegments]
  cases others with
  | nil => trivial
  | cons next others => exact (segmentAnswer_cons accepts hopen first).trans (hc first)

section Segments

variable {accepts : Text → Except Error Bool} (hplain : PlainStart accepts)

include hplain

/-- A segment that begins with an exclamation mark or a blank is no variant. -/
theorem segmentAnswer_of_plainStart {c : Char} (hc : c = '!' ∨ Text.isBlank c = true)
    (rest : Text) : segmentAnswer accepts (c :: rest) = .ok false := by
  have hopen : c ≠ '[' := by
    rintro rfl
    revert hc
    decide
  rw [segmentAnswer_cons accepts hopen]
  exact hplain c rest hc

/-- A variant begins with a character that is neither. -/
theorem exists_cons_of_segmentAnswer {name : Text} (hname : segmentAnswer accepts name = .ok true) :
    ∃ c rest, name = c :: rest ∧ c ≠ '!' ∧ Text.isBlank c = false := by
  cases name with
  | nil => simp [segmentAnswer] at hname
  | cons c rest =>
      by_cases hc : c = '!' ∨ Text.isBlank c = true
      · rw [segmentAnswer_of_plainStart hplain hc] at hname
        cases hname
      · simp only [not_or, Bool.not_eq_true] at hc
        exact ⟨c, rest, rfl, hc⟩

/-- A mark of importance before what the variants leave does not move their end. -/
theorem stops_segments_marked {t : Text} (hstops : Stops accepts (ClassName.segments t))
    (important : Bool) : Stops accepts (ClassName.segments (marked important t)) := by
  cases important with
  | false => exact hstops
  | true =>
      apply stops_segments_cons (by decide) (by decide)
      exact fun rest => hplain '!' rest (.inl rfl)

end Segments

/-- Whether a mark stands before a body or not, a name behind variants ends without a blank. -/
theorem last_withVariants_marked {variants : List Text} (hvariants : variants ≠ [])
    {inner : Bool} {body : Text}
    (hlast : ∀ c, (ClassName.withVariants (marked inner body) variants).getLast? = some c →
      Text.isBlank c = false) (important : Bool) :
    ∀ c, (ClassName.withVariants (marked important body) variants).getLast? = some c →
      Text.isBlank c = false := by
  rw [getLast?_withVariants _ hvariants] at hlast ⊢
  cases body with
  | nil => cases important <;> simp [marked] <;> decide
  | cons first rest =>
      -- A body that is not empty ends the name, with or without a mark before it.
      have hend (mark : Bool) : (':' :: marked mark (first :: rest)).getLast? =
          (first :: rest).getLast? := by
        rw [List.getLast?_cons, getLast?_marked mark List.getLast?_cons, List.getLast?_cons]
        rfl
      rwa [hend] at hlast ⊢

/-- Moving the mark of importance behind the variants keeps the parts, unless the name begins
with two marks. -/
theorem Assembled.mark_behind {accepts : Text → Except Error Bool} (hplain : PlainStart accepts)
    {name body : Text} {outer inner : Bool} {variants : List Text}
    (hparts : Assembled accepts name outer inner variants body)
    (hmarks : Text.startsWith name "!!" = false) :
    ∃ first second, (first || second) = (outer || inner) ∧
      Assembled accepts (ClassName.withVariants (marked (outer || inner) body) variants) first
        second variants body := by
  cases variants with
  | nil =>
      -- Without variants there is one place for the mark, and the name is kept.
      have heq := hparts.eq
      have hunmarked := hparts.unmarked
      rw [ClassName.withVariants_nil] at heq hunmarked
      have hinner : inner = false := by
        cases inner with
        | false => rfl
        | true =>
            cases outer with
            | false => exact absurd rfl (hunmarked rfl)
            | true => simp [heq, marked, Text.startsWith] at hmarks
      subst hinner
      refine ⟨outer, false, rfl, ?_⟩
      rw [ClassName.withVariants_nil, Bool.or_false]
      exact heq ▸ hparts
  | cons variant others =>
      obtain ⟨c, start, rfl, hmark, hblank⟩ :=
        exists_cons_of_segmentAnswer hplain (hparts.accepted variant List.mem_cons_self)
      have hlast : ∀ d, (ClassName.withVariants (marked inner body)
          ((c :: start) :: others)).getLast? = some d → Text.isBlank d = false := by
        intro d hd
        refine hparts.trimmed.last d ?_
        rw [hparts.eq]
        exact getLast?_marked outer hd
      refine ⟨false, outer || inner, Bool.false_or _, ?_⟩
      exact {
        eq := rfl
        trimmed := by
          refine ⟨?_, last_withVariants_marked (List.cons_ne_nil _ _) hlast (outer || inner)⟩
          intro d hd
          rw [ClassName.withVariants_cons] at hd
          cases hd
          exact hblank
        segments := hparts.segments
        accepted := hparts.accepted
        stops := by
          cases inner with
          | true => simpa using hparts.stops
          | false => exact stops_segments_marked hplain hparts.stops _
        unmarked := by
          rw [ClassName.withVariants_cons]
          simpa using hmark
        unmarkedBody := fun hnone => hparts.unmarkedBody (Bool.or_eq_false_iff.mp hnone).2 }

/-- A token that was read from a class name is read again from its text. -/
theorem readAnswer_toText {accepts : Text → Except Error Bool} (hplain : PlainStart accepts)
    {raw : Text} (hmarks : Text.startsWith (Text.trim raw) "!!" = false) {token : Token}
    (hread : readAnswer accepts raw = .ok token) :
    readAnswer accepts token.toText = .ok { token with raw := token.toText } := by
  obtain ⟨outer, inner, body, hparts, himportant, hbody⟩ := exists_assembled_of_readAnswer hread
  obtain ⟨-, -, -, hsigned⟩ := parts_of_bodyAnswer hbody
  obtain ⟨first, second, hmark, hmoved⟩ := hparts.mark_behind hplain hmarks
  rw [← himportant, ← hsigned, ← toText_eq] at hmoved
  rw [← Text.trim_of_trimmed hmoved.trimmed] at hmoved
  rw [hmoved.readAnswer_eq, hmark, ← himportant, hsigned]
  exact bodyAnswer_rename hbody token.toText

end Token

/-! ## Styling under another name -/

/-- What a styled token comes to, apart from selectors. -/
structure Styled.Effect where
  declarations : Declarations
  ruleName : Text
  layer : Layer
  sortKey : Int
  atRules : List Text
  deriving DecidableEq

/-- The effect of a styled token. -/
def Styled.effect (styled : Styled) : Styled.Effect :=
  ⟨styled.declarations, styled.ruleName, styled.layer, styled.sortKey, styled.atRules⟩

/-- A variant adds the same at-rules to every selector. -/
theorem Variant.apply_atRules (variant : Variant) (first second : Text) (atRules : List Text) :
    (variant.apply first atRules).2 = (variant.apply second atRules).2 := by
  unfold Variant.apply
  cases variant.kind <;> rfl

/-- Variants apply to one selector as to another: with the same lookups, and with the same
at-rules if they are all known. -/
theorem Registry.applyVariants_atRules (registry : Registry) (names : List Text)
    (first second : Text) (atRules : List Text) (cache : PatternCache) :
    (registry.applyVariants names first atRules cache).2 =
        (registry.applyVariants names second atRules cache).2 ∧
      (registry.applyVariants names first atRules cache).1.map (·.map Prod.snd) =
        (registry.applyVariants names second atRules cache).1.map (·.map Prod.snd) := by
  induction names generalizing first second atRules cache with
  | nil => exact ⟨rfl, rfl⟩
  | cons name rest ih =>
      unfold Registry.applyVariants
      rw [run_bind, run_bind]
      rcases registry.resolveVariant name cache with ⟨error | found, after⟩
      · exact ⟨rfl, rfl⟩
      · cases found with
        | none => exact ⟨rfl, rfl⟩
        | some variant =>
            dsimp only
            rw [variant.apply_atRules first second]
            exact ih _ _ _ after

namespace Engine

/-- A token under another name is styled to the same effect. -/
theorem effect_style_rename (engine : Engine) (token : Token) (name : Text) (session : Session) :
    (engine.style { token with raw := name } session).1.map (·.map Styled.effect) =
      (engine.style token session).1.map (·.map Styled.effect) := by
  unfold style
  dsimp only
  cases Text.afterLead? engine.classPrefix token.body with
  | none => rfl
  | some body =>
      have hresolve : engine.resolveToken { token with raw := name } body =
          engine.resolveToken token body := rfl
      simp only [hresolve]
      rw [run_bind, run_bind]
      rcases engine.resolveToken token body session with ⟨error | found, after⟩
      · rfl
      · cases found with
        | none => rfl
        | some found =>
            obtain ⟨-, hatRules⟩ := engine.registry.applyVariants_atRules token.variants
              (Selector.ofClass name) (Selector.ofClass token.raw) [] after.cache
            dsimp only
            rw [run_bind, run_bind, Session.run_lift, Session.run_lift]
            generalize engine.registry.applyVariants token.variants (Selector.ofClass name) []
              after.cache = renamed at hatRules ⊢
            generalize engine.registry.applyVariants token.variants
              (Selector.ofClass token.raw) [] after.cache = given at hatRules ⊢
            rcases renamed with ⟨_ | _ | ⟨_, _⟩, _⟩ <;> rcases given with ⟨_ | _ | ⟨_, _⟩, _⟩ <;>
              cases hatRules <;> rfl

theorem effect_styleText_toText (engine : Engine) {raw : Text} {token : Token}
    (hread : Token.readAnswer engine.accepts raw = .ok token)
    (hagain : Token.readAnswer engine.accepts token.toText =
      .ok { token with raw := token.toText }) {first second : Session}
    (hfirst : engine.Faithful first) (hsecond : engine.Faithful second) :
    (engine.styleText token.toText second).1.map (·.map Styled.effect) =
      (engine.styleText raw first).1.map (·.map Styled.effect) := by
  rw [(engine.settles_styleText token.toText second hsecond).1,
    (engine.settles_styleText raw first hfirst).1, hread, hagain, ok_bind, ok_bind]
  exact engine.effect_style_rename token token.toText {}

end Engine

/-- If no variant begins with an exclamation mark or a blank, a token that is read from a class
name without two marks in front is read again from its own text. On an engine, after any two
histories, the name and the text are styled to the same effect or both fail to be. -/
theorem read_toText :
    (∀ accepts : Text → Bool, Token.PlainStart (fun name => .ok (accepts name)) →
      ∀ (more : List Lookup) (first second : PatternCache),
      first.Faithful (Token.lookups ++ more) → second.Faithful (Token.lookups ++ more) →
      ∀ (raw : Text) (token : Token), Text.startsWith (Text.trim raw) "!!" = false →
      (Token.read (fun name => pure (accepts name)) raw first).1 = .ok token →
      (Token.read (fun name => pure (accepts name)) token.toText second).1 =
        .ok { token with raw := token.toText }) ∧
    (∀ engine : Engine, Token.PlainStart engine.accepts → ∀ (first second : List Call)
      (raw : Text) (token : Token), Text.startsWith (Text.trim raw) "!!" = false →
      (engine.read raw (engine.after first).cache).1 = .ok token →
      (engine.read token.toText (engine.after second).cache).1 =
          .ok { token with raw := token.toText } ∧
        (engine.styleText token.toText (engine.after second)).1.map (·.map Styled.effect) =
          (engine.styleText raw (engine.after first)).1.map (·.map Styled.effect)) := by
  constructor
  · intro accepts hplain more first second hfirst hsecond raw token hmarks hread
    have hknown : ∀ name, Settles (PatternCache.Faithful (Token.lookups ++ more))
        (pure (accepts name) : Cached Bool) (.ok (accepts name)) :=
      fun name => Settles.pure (accepts name)
    have hsettles := Token.settles_read hknown
    have hanswer := (hsettles raw).eq_of_run hfirst hread
    rw [(hsettles token.toText second hsecond).1]
    exact Token.readAnswer_toText hplain hmarks hanswer
  · intro engine hplain first second raw token hmarks hread
    have hfirst := engine.faithful_after first
    have hsecond := engine.faithful_after second
    have hanswer := (engine.settles_read raw).eq_of_run hfirst.cache hread
    have hagain := Token.readAnswer_toText hplain hmarks hanswer
    refine ⟨?_, engine.effect_styleText_toText hanswer hagain hfirst hsecond⟩
    rw [(engine.settles_read token.toText _ hsecond.cache).1]
    exact hagain

/-- An engine with one variant and one rule. -/
def tinted : Engine where
  registry := {
    rules := [⟨{ pattern := .literal "tint", body := .fixed [("color", "#f00")] }, "a#0", 0, "a"⟩]
    variants := [("hover", ⟨"hover", .pseudo, ":hover"⟩)] }

/-- A token with a mark in front of its variant. -/
def tintedToken : Token where
  raw := " !hover:-tint/[a]"
  utility := "tint"
  variants := ["hover"]
  opacity := some (.verbatim "a")
  important := true
  negative := true
  body := "tint"
  modifier := some "[a]"

theorem read_toText_tinted :
    Token.PlainStart tinted.accepts ∧
      (Token.read (fun name => pure (name == "hover")) tintedToken.raw {}).1 = .ok tintedToken ∧
      (Token.read (fun name => pure (name == "hover")) "hover:!-tint/[a]" {}).1 =
        .ok { tintedToken with raw := "hover:!-tint/[a]" } ∧
      (tinted.read tintedToken.raw (tinted.after []).cache).1 = .ok tintedToken ∧
      (tinted.read "hover:!-tint/[a]" (tinted.after [.styleText "hover:tint"]).cache).1 =
        .ok { tintedToken with raw := "hover:!-tint/[a]" } := by
  have hnames : ∀ (c : Char) (rest : Text), c = '!' ∨ Text.isBlank c = true →
      c :: rest ≠ "hover" := by
    rintro c rest hc ⟨⟩
    revert hc
    decide
  have hplain : Token.PlainStart fun name => .ok (name == "hover") := by
    intro c rest hc
    simpa using hnames c rest hc
  have hengine : Token.PlainStart tinted.accepts := by
    intro c rest hc
    have hother : tinted.registry.variants.get? (c :: rest) = none :=
      (Table.get?_append_single [] ("hover" : Text) (c :: rest) _).trans
        (if_neg (hnames c rest hc))
    have hopen : c ≠ '[' := by
      rintro rfl
      revert hc
      decide
    have hbracket : Payload.isBracketed (c :: rest) = false := by
      simp [Payload.isBracketed, Text.startsWith, hopen.symm]
    rw [Engine.accepts, Registry.isVariant, Registry.resolveVariant, hother]
    simp only [hbracket, Bool.false_eq_true, if_false]
    rfl
  have hfirst : (Token.read (fun name => pure (name == "hover")) tintedToken.raw {}).1 =
      .ok tintedToken := eq_ok_of_toOption (by decide +kernel)
  have hread : (tinted.read tintedToken.raw (tinted.after []).cache).1 = .ok tintedToken :=
    eq_ok_of_toOption (by decide +kernel)
  have hempty := PatternCache.faithful_empty (Token.lookups ++ [])
  have htext : tintedToken.toText = "hover:!-tint/[a]" := rfl
  rw [← htext]
  refine ⟨hengine, hfirst, ?_, hread, ?_⟩
  · exact read_toText.1 _ hplain [] {} {} hempty hempty _ _ (by decide) hfirst
  · exact (read_toText.2 tinted hengine [] [.styleText "hover:tint"] _ _ (by decide) hread).1

end UtilityCss
