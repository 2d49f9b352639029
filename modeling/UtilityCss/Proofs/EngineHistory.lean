import UtilityCss.Proofs.SharedLookups

/-!
# Engines answer without regard to their history

An engine keeps patterns and resolutions between calls. A session is faithful to an
engine if its cache is faithful to the lookups of the engine and every body it remembers
is remembered with what the body resolves to when nothing is kept. A new session is
faithful, every call keeps faithful sessions faithful, also one that ends in an error,
and a call has one answer from all of them.

Computations of rules and variants are functions, so they are the same at every call, and
a session is only changed by calls.
-/

namespace UtilityCss

theorem Session.run_lift {α : Type} (act : Cached α) (session : Session) :
    (liftM act : Resolving α) session =
      ((act session.cache).1, { session with cache := (act session.cache).2 }) := rfl

namespace Engine

/-- What a session keeps is what the engine would find again. -/
structure Faithful (engine : Engine) (session : Session) : Prop where
  cache : session.cache.Faithful engine.lookups
  memo : ∀ body found, session.memo.get? body = some found →
    (engine.registry.resolution body {}).1 = .ok found

theorem faithful_new (engine : Engine) : engine.Faithful {} where
  cache := PatternCache.faithful_empty engine.lookups
  memo := by
    intro body found hfound
    simp [Table.get?] at hfound

section Steps

variable (engine : Engine)

/-- Lookups settle within a session as they do alone. -/
theorem settles_lift {α : Type} {act : Cached α} {answer : Except Error α}
    (hact : Settles (PatternCache.Faithful engine.lookups) act answer) :
    Settles engine.Faithful (liftM act : Resolving α) answer := by
  intro session hsession
  obtain ⟨hrun, hkept⟩ := hact session.cache hsession.cache
  exact ⟨hrun, ⟨hkept, hsession.memo⟩⟩

theorem steady_lift {α : Type} {act : Cached α}
    (hact : Steady (PatternCache.Faithful engine.lookups) act) :
    Steady engine.Faithful (liftM act : Resolving α) := by
  obtain ⟨answer, hanswer⟩ := hact
  exact (engine.settles_lift hanswer).steady

/-- A body resolves as if nothing were kept, and is remembered with that resolution. -/
theorem settles_resolve (body : Text) :
    Settles engine.Faithful (engine.registry.resolve body)
      (engine.registry.resolution body {}).1 := by
  intro session hsession
  unfold Registry.resolve
  cases hmemo : session.memo.get? body with
  | some known => exact ⟨(hsession.memo body known hmemo).symm, hsession⟩
  | none =>
      have hsettled := (engine.steady_resolution body).settles
        (PatternCache.faithful_empty engine.lookups)
      obtain ⟨hanswer, hkept⟩ := hsettled session.cache hsession.cache
      rcases hrun : engine.registry.resolution body session.cache with ⟨error | found, cache⟩
      · rw [hrun] at hanswer hkept
        exact ⟨hanswer, ⟨hkept, hsession.memo⟩⟩
      · rw [hrun] at hanswer hkept
        refine ⟨hanswer, ⟨hkept, ?_⟩⟩
        intro other known hknown
        rw [Table.get?_append_single] at hknown
        cases hold : session.memo.get? other with
        | some old =>
            rw [hold, Option.some_or] at hknown
            exact hsession.memo other known (hold.trans hknown)
        | none =>
            rw [hold, Option.none_or] at hknown
            split at hknown
            next hbody =>
              rw [hbody, ← hanswer, Option.some.inj hknown]
            next => cases hknown

theorem steady_readEach (raws : List Text) :
    Steady (PatternCache.Faithful engine.lookups)
      (Token.readEach engine.registry.isVariant raws) := by
  induction raws with
  | nil => exact Steady.pure []
  | cons raw rest ih =>
      rw [Token.readEach_cons]
      refine (engine.settles_read raw).steady.attempt fun answer => ?_
      rcases answer with error | token
      · cases error with
        | variantGroup token position => exact ih
        | _ => exact Steady.throw _
      · exact ih.bind fun _ => Steady.pure _

theorem steady_readAll (t : Text) :
    Steady (PatternCache.Faithful engine.lookups) (engine.readAll t) :=
  engine.steady_readEach (Group.expand t)

theorem steady_resolveToken (token : Token) (body : Text) :
    Steady engine.Faithful (engine.resolveToken token body) := by
  have hbody : Steady engine.Faithful (do
      return (← engine.registry.resolve body).map (·, token.opacity) : Resolving _) :=
    (engine.settles_resolve body).steady.bind fun _ => Steady.pure _
  unfold resolveToken
  split
  · refine (engine.settles_resolve _).steady.bind fun found => ?_
    cases found with
    | none => exact hbody
    | some found => exact Steady.pure _
  · exact hbody

theorem steady_style (token : Token) : Steady engine.Faithful (engine.style token) := by
  unfold style
  split
  · exact Steady.pure none
  · refine (engine.steady_resolveToken token _).bind fun found => ?_
    split
    · exact Steady.pure none
    · refine (engine.steady_lift (engine.steady_applyVariants _ _ _)).bind fun place => ?_
      split
      · exact Steady.pure none
      · exact Steady.pure _

/-- What a token is styled to when nothing is kept. -/
def styleAnswer (token : Token) : Except Error (Option Styled) := (engine.style token {}).1

theorem settles_style (token : Token) :
    Settles engine.Faithful (engine.style token) (engine.styleAnswer token) :=
  (engine.steady_style token).settles engine.faithful_new

theorem settles_styleText (raw : Text) :
    Settles engine.Faithful (engine.styleText raw)
      (Token.readAnswer engine.accepts raw >>= engine.styleAnswer) :=
  (engine.settles_lift (engine.settles_read raw)).bind fun token _ => engine.settles_style token

theorem steady_styleEach (tokens : List Token) :
    Steady engine.Faithful (engine.styleEach tokens) := by
  induction tokens with
  | nil => exact Steady.pure []
  | cons token rest ih =>
      exact (engine.steady_style token).bind fun _ => ih.bind fun _ => Steady.pure _

theorem steady_styleAll (texts : List Text) :
    Steady engine.Faithful (engine.styleAll texts) := by
  induction texts with
  | nil => exact Steady.pure []
  | cons t rest ih =>
      refine (engine.steady_lift (engine.steady_readAll t)).bind fun tokens => ?_
      exact (engine.steady_styleEach tokens).bind fun _ => ih.bind fun _ => Steady.pure _

theorem steady_compile (texts : List Text) (options : Stylesheet.Options) :
    Steady engine.Faithful (engine.compile texts options) :=
  (engine.steady_styleAll texts).bind fun _ => Steady.pure _

end Steps

section Resolved

variable {engine : Engine}

/-- A text is tried for a token: its body without the class prefix, or this with the modifier. -/
def Tries (engine : Engine) (token : Token) (tried : Text) : Prop :=
  ∃ body, Text.afterLead? engine.classPrefix token.body = some body ∧
    (tried = body ∨ ∃ modifier, token.modifier = some modifier ∧ tried = body ++ '/' :: modifier)

theorem exists_resolution_of_resolveToken {token : Token} {body : Text} {session : Session}
    (hsession : engine.Faithful session) {won : Resolution} {opacity : Option Opacity}
    (hrun : (engine.resolveToken token body session).1 = .ok (some (won, opacity))) :
    ∃ tried, (tried = body ∨
        ∃ modifier, token.modifier = some modifier ∧ tried = body ++ '/' :: modifier) ∧
      (engine.registry.resolution tried {}).1 = .ok (some won) := by
  have hbody {session : Session} (hsession : engine.Faithful session)
      (hrun : ((do return (← engine.registry.resolve body).map (·, token.opacity) :
        Resolving _) session).1 = .ok (some (won, opacity))) :
      (engine.registry.resolution body {}).1 = .ok (some won) := by
    obtain ⟨found, after, hfound, hmap⟩ := run_bind_eq_ok hrun
    have hresolve := (engine.settles_resolve body).eq_of_run hsession (congrArg Prod.fst hfound)
    cases found with
    | none => cases hmap
    | some found =>
        cases hmap
        exact hresolve
  unfold resolveToken at hrun
  cases hmodifier : token.modifier with
  | none =>
      simp only [hmodifier] at hrun
      exact ⟨body, .inl rfl, hbody hsession hrun⟩
  | some modifier =>
      simp only [hmodifier] at hrun
      obtain ⟨found, after, hfound, hrest⟩ := run_bind_eq_ok hrun
      obtain ⟨hresolve, hafter⟩ := engine.settles_resolve (body ++ '/' :: modifier) session hsession
      rw [hfound] at hresolve hafter
      cases found with
      | none => exact ⟨body, .inl rfl, hbody hafter hrest⟩
      | some found =>
          cases hrest
          exact ⟨_, .inr ⟨modifier, rfl, rfl⟩, hresolve.symm⟩

/-- A styled token is put together from the resolution of a text that is tried. -/
theorem exists_assemble_of_style {token : Token} {session : Session}
    (hsession : engine.Faithful session) {styled : Styled}
    (hstyle : (engine.style token session).1 = .ok (some styled)) :
    ∃ tried won opacity selector atRules, engine.Tries token tried ∧
      (engine.registry.resolution tried {}).1 = .ok (some won) ∧
      styled = engine.assemble token won opacity selector atRules := by
  unfold style at hstyle
  cases hbody : Text.afterLead? engine.classPrefix token.body with
  | none =>
      simp only [hbody] at hstyle
      cases hstyle
  | some body =>
      simp only [hbody] at hstyle
      obtain ⟨answer, after, hanswer, hfound⟩ := run_bind_eq_ok hstyle
      cases answer with
      | none => cases hfound
      | some answer =>
          obtain ⟨tried, htried, hresolution⟩ :=
            exists_resolution_of_resolveToken hsession (congrArg Prod.fst hanswer)
          obtain ⟨place, last, -, hplace⟩ := run_bind_eq_ok hfound
          cases place with
          | none => cases hplace
          | some place =>
              cases hplace
              exact ⟨tried, answer.1, answer.2, place.1, place.2, ⟨body, hbody, htried⟩,
                hresolution, rfl⟩

end Resolved

end Engine

end UtilityCss
