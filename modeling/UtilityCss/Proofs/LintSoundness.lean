import UtilityCss.Proofs.BodyParts
import UtilityCss.Proofs.HistoryIndependence

/-!
# The checks report every token that is dropped

Each check passes over tokens that it takes another check to report. If the checks of
a class list end, each token of the list is refused, or read but not styled, or styled,
and these outcomes decide the errors: a token that is refused or not styled has at least
one, so that a list without errors is compiled without loss, and a token that is reported
as an unknown class has no other.
-/

namespace UtilityCss

namespace Lint

/-! ## Findings of checks that end -/

/-- The finding of an answer about a token, if there is one. -/
def finding? (answer : Text → Except Error (Option Diagnostic)) (raw : Text) :
    Option Diagnostic :=
  match answer raw with
  | .ok found => found
  | .error _ => none

theorem findAll_eq_ok {answer : Text → Except Error (Option Diagnostic)} {tokens : List Text}
    {found : List Diagnostic} (hfind : findAll answer tokens = .ok found) :
    found = tokens.filterMap (finding? answer) := by
  induction tokens generalizing found with
  | nil =>
      cases hfind
      rfl
  | cons raw rest ih =>
      obtain ⟨first, hraw, hfind⟩ := bind_eq_ok hfind
      obtain ⟨others, hothers, hfind⟩ := bind_eq_ok hfind
      cases hfind
      have hfirst : finding? answer raw = first := by simp [finding?, hraw]
      rw [ih hothers, List.filterMap_cons, hfirst]
      cases first <;> rfl

theorem gather_cons_eq_ok {further answer : Except Error (List Diagnostic)}
    {rest : List (Except Error (List Diagnostic))} {all : List Diagnostic}
    (hgather : gather further (answer :: rest) = .ok all) :
    ∃ found others, answer = .ok found ∧ gather further rest = .ok others ∧
      all = found ++ others := by
  obtain ⟨found, hanswer, hgather⟩ := bind_eq_ok hgather
  obtain ⟨others, hrest, hgather⟩ := bind_eq_ok hgather
  cases hgather
  exact ⟨found, others, hanswer, hrest, rfl⟩

variable (engine : Engine)

/-- The error that a check reports for a token, check by check. -/
def errorAnswers : List (Text → Except Error (Option Diagnostic)) :=
  [unreadAnswer engine, fun raw => .ok (bracketAnswer raw),
    fun raw => .ok (emptyOpacityAnswer raw), unknownVariantAnswer engine,
    unknownClassAnswer engine]

/-- If the checks end, their findings are those about each token, then the conflicts. -/
theorem findings_of_gather {tokens : List Text} {further : Except Error (List Diagnostic)}
    {all : List Diagnostic} (hgather : gather further (checkAnswers engine tokens) = .ok all) :
    ∃ conflicts others, conflictAnswers engine [] tokens = .ok conflicts ∧
      further = .ok others ∧
      all = (errorAnswers engine).flatMap (fun answer => tokens.filterMap (finding? answer)) ++
        (conflicts ++ others) := by
  obtain ⟨unread, afterUnread, hunread, hsecond, hall⟩ := gather_cons_eq_ok hgather
  obtain ⟨brackets, afterBrackets, hbrackets, hthird, rfl⟩ := gather_cons_eq_ok hsecond
  obtain ⟨opacities, afterOpacities, hopacities, hfourth, rfl⟩ := gather_cons_eq_ok hthird
  obtain ⟨variants, afterVariants, hvariants, hfifth, rfl⟩ := gather_cons_eq_ok hfourth
  obtain ⟨classes, afterClasses, hclasses, hsixth, rfl⟩ := gather_cons_eq_ok hfifth
  obtain ⟨conflicts, others, hconflicts, hfurther, rfl⟩ := gather_cons_eq_ok hsixth
  refine ⟨conflicts, others, hconflicts, hfurther, ?_⟩
  rw [hall, findAll_eq_ok hunread, findAll_eq_ok hbrackets, findAll_eq_ok hopacities,
    findAll_eq_ok hvariants, findAll_eq_ok hclasses]
  simp [errorAnswers]

/-! ## Outcomes of a token -/

/-- The token is refused as a variant group. -/
def Refused (raw : Text) : Prop :=
  ∃ token position, Token.readAnswer engine.accepts raw = .error (.variantGroup token position)

/-- The token is read, and what it is read as is styled to this, or not at all. -/
def Styles (raw : Text) (token : Token) (styled : Option Styled) : Prop :=
  Token.readAnswer engine.accepts raw = .ok token ∧ engine.styleAnswer token = .ok styled

variable {engine}

theorem readingAnswer_eq_some {raw : Text} {token : Token}
    (hread : readingAnswer engine raw = .ok (some token)) :
    Token.readAnswer engine.accepts raw = .ok token := by
  unfold readingAnswer at hread
  rcases hanswer : Token.readAnswer engine.accepts raw with error | found
  · rw [hanswer] at hread
    cases error <;> cases hread
  · rw [hanswer] at hread
    cases hread
    rfl

theorem readingAnswer_eq_none {raw : Text} (hread : readingAnswer engine raw = .ok none) :
    Refused engine raw := by
  unfold readingAnswer at hread
  rcases hanswer : Token.readAnswer engine.accepts raw with error | found
  · rw [hanswer] at hread
    cases error with
    | variantGroup token position => exact ⟨token, position, hanswer⟩
    | _ => cases hread
  · rw [hanswer] at hread
    cases hread

/-- The check for conflicts reads every token and styles all that can be read. -/
theorem outcome_of_conflictAnswers {tokens : List Text} {declared : Declared}
    {conflicts : List Diagnostic}
    (hconflicts : conflictAnswers engine declared tokens = .ok conflicts) {raw : Text}
    (hraw : raw ∈ tokens) :
    Refused engine raw ∨ ∃ token styled, Styles engine raw token styled := by
  induction tokens generalizing declared conflicts with
  | nil => cases hraw
  | cons first rest ih =>
      obtain ⟨reading, hread, hafter⟩ := bind_eq_ok hconflicts
      cases reading with
      | none =>
          rcases List.mem_cons.mp hraw with rfl | hrest
          · exact .inl (readingAnswer_eq_none hread)
          · exact ih hafter hrest
      | some token =>
          obtain ⟨styled, hstyle, hlater⟩ := bind_eq_ok hafter
          rcases List.mem_cons.mp hraw with rfl | hrest
          · exact .inr ⟨token, styled, readingAnswer_eq_some hread, hstyle⟩
          · cases styled with
            | none => exact ih hlater hrest
            | some styled =>
                obtain ⟨others, hothers, -⟩ := bind_eq_ok hlater
                exact ih hothers hrest

theorem exists_conflict_of_conflictAnswers {tokens : List Text} {declared : Declared}
    {conflicts : List Diagnostic}
    (hconflicts : conflictAnswers engine declared tokens = .ok conflicts) :
    ∀ found ∈ conflicts, ∃ property raw previous, found = conflict property raw previous := by
  induction tokens generalizing declared conflicts with
  | nil =>
      cases hconflicts
      simp
  | cons raw rest ih =>
      obtain ⟨reading, -, hafter⟩ := bind_eq_ok hconflicts
      cases reading with
      | none => exact ih hafter
      | some token =>
          obtain ⟨styled, -, hlater⟩ := bind_eq_ok hafter
          cases styled with
          | none => exact ih hlater
          | some styled =>
              obtain ⟨others, hothers, hall⟩ := bind_eq_ok hlater
              cases hall
              intro found hfound
              rcases List.mem_append.mp hfound with hhere | hothersMem
              · obtain ⟨property, -, hproperty⟩ := List.mem_filterMap.mp hhere
                obtain ⟨previous, -, rfl⟩ := Option.map_eq_some_iff.mp hproperty
                exact ⟨property, raw, previous, rfl⟩
              · exact ih hothers found hothersMem

/-! ## Errors of a token -/

theorem finding?_eq_some {answer : Text → Except Error (Option Diagnostic)} {raw : Text}
    {found : Diagnostic} : finding? answer raw = some found ↔ answer raw = .ok (some found) := by
  unfold finding?
  cases answer raw <;> simp

/-- A class is reported as unknown only if it is read, is not styled, and no other check
reports it. -/
theorem unknownClassAnswer_eq_some {raw : Text} {found : Diagnostic}
    (hanswer : unknownClassAnswer engine raw = .ok (some found)) :
    ∃ token, Styles engine raw token none ∧ reportedElsewhere raw token = false ∧
      found = unknownClassFinding raw := by
  obtain ⟨reading, hread, hafter⟩ := bind_eq_ok hanswer
  cases reading with
  | none => cases hafter
  | some token =>
      dsimp only at hafter
      split at hafter
      · cases hafter
      next helsewhere =>
        obtain ⟨styled, hstyle, hfinding⟩ := bind_eq_ok hafter
        cases styled with
        | some styled => cases hfinding
        | none =>
            cases hfinding
            exact ⟨token, ⟨readingAnswer_eq_some hread, hstyle⟩, by simpa using helsewhere, rfl⟩

/-- What the checks other than that for conflicts can find about a token. -/
theorem finding?_cases {answer : Text → Except Error (Option Diagnostic)}
    (hanswer : answer ∈ errorAnswers engine) {raw : Text} {found : Diagnostic}
    (hfound : finding? answer raw = some found) :
    (∃ error, found = unreadFinding raw error) ∨ (∃ fault, found = bracketFinding raw fault) ∨
      found = emptyOpacityFinding raw ∨ (∃ name, found = unknownVariantFinding raw name) ∨
      (found = unknownClassFinding raw ∧
        finding? (unknownClassAnswer engine) raw = some found) := by
  have hok := finding?_eq_some.mp hfound
  simp only [errorAnswers, List.mem_cons, List.not_mem_nil, or_false] at hanswer
  rcases hanswer with rfl | rfl | rfl | rfl | rfl
  · left
    rw [unreadAnswer] at hok
    generalize Token.readAnswer engine.accepts raw = reading at hok
    rcases reading with error | token
    · cases error <;> cases hok
      exact ⟨_, rfl⟩
    · cases hok
  · right; left
    simp only [bracketAnswer, Except.ok.injEq] at hok
    split at hok
    · cases hok
    · obtain ⟨fault, -, rfl⟩ := Option.map_eq_some_iff.mp hok
      exact ⟨fault, rfl⟩
  · right; right; left
    simp only [emptyOpacityAnswer, Except.ok.injEq] at hok
    split at hok <;> cases hok
    rfl
  · right; right; right; left
    obtain ⟨reading, -, hvariant⟩ := bind_eq_ok hok
    cases reading with
    | none => cases hvariant
    | some token =>
        obtain ⟨name, -, rfl⟩ := Option.map_eq_some_iff.mp (Except.ok.inj hvariant)
        exact ⟨name, rfl⟩
  · obtain ⟨token, -, -, hclass⟩ := unknownClassAnswer_eq_some hok
    exact .inr (.inr (.inr (.inr ⟨hclass, hfound⟩)))

/-- Such a finding is an error that carries the token. -/
theorem finding?_spec {answer : Text → Except Error (Option Diagnostic)}
    (hanswer : answer ∈ errorAnswers engine) {raw : Text} {found : Diagnostic}
    (hfound : finding? answer raw = some found) :
    found.isError = true ∧ found.token = some raw := by
  rcases finding?_cases hanswer hfound with
    ⟨_, rfl⟩ | ⟨_, rfl⟩ | rfl | ⟨_, rfl⟩ | ⟨rfl, -⟩ <;> exact ⟨rfl, rfl⟩

/-- The codes of the other checks are not that of an unknown class. -/
theorem finding?_unknownClass {answer : Text → Except Error (Option Diagnostic)}
    (hanswer : answer ∈ errorAnswers engine) {raw : Text} {found : Diagnostic}
    (hfound : finding? answer raw = some found) (hcode : found.code = "unknown-class") :
    finding? (unknownClassAnswer engine) raw = some found := by
  rcases finding?_cases hanswer hfound with
    ⟨error, rfl⟩ | ⟨fault, rfl⟩ | rfl | ⟨name, rfl⟩ | ⟨-, hclass⟩
  · cases hcode
  · cases fault <;> cases hcode
  · cases hcode
  · cases hcode
  · exact hclass

theorem exists_finding_of_refused {raw : Text} (hrefused : Refused engine raw) :
    ∃ answer ∈ errorAnswers engine, ∃ found, finding? answer raw = some found := by
  obtain ⟨token, position, hread⟩ := hrefused
  refine ⟨unreadAnswer engine, by simp [errorAnswers], ?_⟩
  refine ⟨unreadFinding raw (.variantGroup token position), ?_⟩
  rw [finding?, unreadAnswer, hread]
  rfl

theorem readingAnswer_of_styles {raw : Text} {token : Token} {styled : Option Styled}
    (hstyles : Styles engine raw token styled) : readingAnswer engine raw = .ok (some token) := by
  rw [readingAnswer, hstyles.1]
  rfl

/-- What one check passes over because another one reports it is reported by that one. -/
theorem exists_finding_of_unstyled {raw : Text} {token : Token}
    (hstyles : Styles engine raw token none) :
    ∃ answer ∈ errorAnswers engine, ∃ found, finding? answer raw = some found := by
  have hread := readingAnswer_of_styles hstyles
  by_cases hvariants : unknownVariants token = []
  · by_cases hopacity : hasEmptyOpacity raw = true
    · refine ⟨fun raw => .ok (emptyOpacityAnswer raw), by simp [errorAnswers], ?_⟩
      exact ⟨emptyOpacityFinding raw, by simp [finding?, emptyOpacityAnswer, hopacity]⟩
    · cases hfault : bracketFault? raw with
      | some fault =>
          refine ⟨fun raw => .ok (bracketAnswer raw), by simp [errorAnswers], ?_⟩
          exact ⟨bracketFinding raw fault, by simp [finding?, bracketAnswer, hopacity, hfault]⟩
      | none =>
          -- No other check reports the token, so this one does.
          refine ⟨unknownClassAnswer engine, by simp [errorAnswers], unknownClassFinding raw, ?_⟩
          have hnowhere : reportedElsewhere raw token = false := by
            simp [reportedElsewhere, hvariants, hfault, hopacity]
          rw [finding?, unknownClassAnswer, hread, ok_bind]
          simp [hnowhere, hstyles.2, ok_bind]
  · obtain ⟨name, others, hname⟩ := List.exists_cons_of_ne_nil hvariants
    refine ⟨unknownVariantAnswer engine, by simp [errorAnswers], unknownVariantFinding raw name, ?_⟩
    rw [finding?, unknownVariantAnswer, hread, ok_bind]
    simp [hname]

/-- A token that is reported as an unknown class is not reported otherwise. -/
theorem findings_of_unknownClass {raw : Text} {found : Diagnostic}
    (hfound : finding? (unknownClassAnswer engine) raw = some found) :
    (errorAnswers engine).map (finding? · raw) = [none, none, none, none, some found] := by
  obtain ⟨token, hstyles, hnowhere, -⟩ :=
    unknownClassAnswer_eq_some (finding?_eq_some.mp hfound)
  simp only [reportedElsewhere, Bool.or_eq_false_iff, decide_eq_false_iff_not,
    Decidable.not_not] at hnowhere
  obtain ⟨⟨hvariants, hfault⟩, hopacity⟩ := hnowhere
  have hunread : finding? (unreadAnswer engine) raw = none := by
    rw [finding?, unreadAnswer, hstyles.1]
    rfl
  have hbracket : finding? (fun raw => .ok (bracketAnswer raw)) raw = none := by
    simpa [finding?, bracketAnswer, hopacity] using hfault
  have hempty : finding? (fun raw => .ok (emptyOpacityAnswer raw)) raw = none := by
    simp [finding?, emptyOpacityAnswer, hopacity]
  have hvariant : finding? (unknownVariantAnswer engine) raw = none := by
    rw [finding?, unknownVariantAnswer, readingAnswer_of_styles hstyles, ok_bind]
    simp [hvariants]
  simp [errorAnswers, hunread, hbracket, hempty, hvariant, hfound]

/-- The errors that carry a token, among the findings of a check, are its finding about that
token, once for each time the token occurs. -/
theorem filter_filterMap_finding? {answer : Text → Except Error (Option Diagnostic)}
    (hanswer : answer ∈ errorAnswers engine) (tokens : List Text) (raw : Text) :
    (tokens.filterMap (finding? answer)).filter
        (fun found => found.isError && found.token == some raw) =
      (finding? answer raw).elim [] (List.replicate (tokens.count raw)) := by
  induction tokens with
  | nil => cases finding? answer raw <;> rfl
  | cons other rest ih =>
      rw [List.filterMap_cons]
      by_cases hsame : other = raw
      · subst hsame
        rw [List.count_cons_self]
        cases hfound : finding? answer other with
        | none => rwa [hfound] at ih
        | some found =>
            obtain ⟨herror, htoken⟩ := finding?_spec hanswer hfound
            rw [hfound] at ih
            simp [herror, htoken, ih, List.replicate_succ]
      · rw [List.count_cons_of_ne hsame]
        cases hfound : finding? answer other with
        | none => exact ih
        | some found =>
            obtain ⟨-, htoken⟩ := finding?_spec hanswer hfound
            simp [htoken, hsame, ih]

/-! ## Class lists -/

section Lists

variable {tokens : List Text} {further : Except Error (List Diagnostic)} {all : List Diagnostic}
  (hgather : gather further (checkAnswers engine tokens) = .ok all)

include hgather

theorem exists_error_of_gather {raw : Text} (hraw : raw ∈ tokens)
    (hdropped : Refused engine raw ∨ ∃ token, Styles engine raw token none) :
    ∃ found ∈ all, found.isError = true ∧ found.token = some raw := by
  obtain ⟨answer, hanswer, found, hfound⟩ : ∃ answer ∈ errorAnswers engine, ∃ found,
      finding? answer raw = some found := by
    rcases hdropped with hrefused | ⟨token, hstyles⟩
    · exact exists_finding_of_refused hrefused
    · exact exists_finding_of_unstyled hstyles
  obtain ⟨conflicts, others, -, -, rfl⟩ := findings_of_gather engine hgather
  refine ⟨found, List.mem_append_left _ ?_, finding?_spec hanswer hfound⟩
  exact List.mem_flatMap.mpr ⟨answer, hanswer, List.mem_filterMap.mpr ⟨raw, hraw, hfound⟩⟩

theorem styles_of_no_error (hnone : ∀ found ∈ all, found.isError = false) :
    ∀ raw ∈ tokens, ∃ token styled, Styles engine raw token (some styled) := by
  intro raw hraw
  have hclean : ¬(Refused engine raw ∨ ∃ token, Styles engine raw token none) := by
    intro hdropped
    obtain ⟨found, hfound, herror, -⟩ := exists_error_of_gather hgather hraw hdropped
    rw [hnone found hfound] at herror
    cases herror
  obtain ⟨conflicts, others, hconflicts, -, -⟩ := findings_of_gather engine hgather
  rcases outcome_of_conflictAnswers hconflicts hraw with hrefused | ⟨token, styled, hstyles⟩
  · exact absurd (.inl hrefused) hclean
  · cases styled with
    | none => exact absurd (.inr ⟨token, hstyles⟩) hclean
    | some styled => exact ⟨token, styled, hstyles⟩

end Lists

/-- Without further checks, the errors of a token that is reported as an unknown class are
that report, once for each time the token occurs. -/
theorem errors_of_unknownClass {tokens : List Text} {all : List Diagnostic}
    (hgather : gather (.ok []) (checkAnswers engine tokens) = .ok all) {found : Diagnostic}
    (hfound : found ∈ all) (hcode : found.code = "unknown-class") :
    ∃ raw, found.token = some raw ∧
      all.filter (fun other => other.isError && other.token == some raw) =
        List.replicate (tokens.count raw) found := by
  obtain ⟨conflicts, others, hconflicts, hothers, rfl⟩ := findings_of_gather engine hgather
  cases hothers
  have hwarnings := exists_conflict_of_conflictAnswers hconflicts
  rw [List.append_nil] at hfound ⊢
  rcases List.mem_append.mp hfound with herrors | hconflict
  · obtain ⟨answer, hanswer, hfinding⟩ := List.mem_flatMap.mp herrors
    obtain ⟨raw, -, hraw⟩ := List.mem_filterMap.mp hfinding
    refine ⟨raw, (finding?_spec hanswer hraw).2, ?_⟩
    have hclass := finding?_unknownClass hanswer hraw hcode
    have honly := findings_of_unknownClass hclass
    have hquiet :
        conflicts.filter (fun other => other.isError && other.token == some raw) = [] := by
      rw [List.filter_eq_nil_iff]
      intro other hother
      obtain ⟨property, token, previous, rfl⟩ := hwarnings other hother
      exact Bool.false_ne_true
    have heach := List.map_congr_left fun answer (hmem : answer ∈ errorAnswers engine) =>
      filter_filterMap_finding? hmem tokens raw
    rw [List.filter_append, hquiet, List.append_nil, List.filter_flatMap, List.flatMap_def, heach,
      ← List.flatMap_def, ← List.flatMap_map (finding? · raw)
        (fun finding => finding.elim [] (List.replicate (tokens.count raw))), honly]
    simp
  · obtain ⟨property, raw, previous, rfl⟩ := hwarnings found hconflict
    have hother : (conflict property raw previous).code = "conflicting-classes" := rfl
    rw [hother] at hcode
    exact absurd hcode (by decide)

end Lint

namespace Engine

variable (engine : Engine)

theorem token_of_styleAnswer {token : Token} {styled : Styled}
    (hstyle : engine.styleAnswer token = .ok (some styled)) : styled.token = token := by
  obtain ⟨-, -, -, -, -, -, -, rfl⟩ := exists_assemble_of_style engine.faithful_new hstyle
  rfl

theorem settles_styleEach {tokens : List Token}
    (hstyle : ∀ token ∈ tokens, ∃ styled, engine.styleAnswer token = .ok (some styled)) :
    ∃ all, Settles engine.Faithful (engine.styleEach tokens) (.ok all) ∧
      all.map (·.token) = tokens := by
  induction tokens with
  | nil => exact ⟨[], Settles.pure [], rfl⟩
  | cons token rest ih =>
      obtain ⟨styled, hstyled⟩ := hstyle token List.mem_cons_self
      obtain ⟨others, hsettles, htokens⟩ :=
        ih fun other hother => hstyle other (List.mem_cons_of_mem token hother)
      refine ⟨styled :: others, ?_, ?_⟩
      · have hfirst := engine.settles_style token
        rw [hstyled] at hfirst
        exact hfirst.bind_ok (hsettles.bind_ok (Settles.pure _))
      · rw [List.map_cons, htokens, engine.token_of_styleAnswer hstyled]

/-- Class texts whose tokens can all be read and styled are styled without loss. -/
theorem settles_styleAll {texts : List Text}
    (hstyles : ∀ raw ∈ Lint.expandAll texts, ∃ token styled,
      Lint.Styles engine raw token (some styled)) :
    ∃ all, Settles engine.Faithful (engine.styleAll texts) (.ok all) ∧
      all.map (·.token.raw) = Lint.expandAll texts := by
  induction texts with
  | nil => exact ⟨[], Settles.pure [], rfl⟩
  | cons t rest ih =>
      simp only [Lint.expandAll, List.flatMap_cons, List.mem_append] at hstyles ih ⊢
      obtain ⟨others, hothers, hothersRaws⟩ := ih fun raw hraw => hstyles raw (.inr hraw)
      have hread : ∀ raw ∈ Group.expand t, ∃ token,
          Token.readAnswer engine.accepts raw = .ok token := by
        intro raw hraw
        obtain ⟨token, styled, htoken, -⟩ := hstyles raw (.inl hraw)
        exact ⟨token, htoken⟩
      have htokens := Token.settles_readEach engine.settles_isVariant hread
      have hstyled : ∀ token ∈ (Group.expand t).map (Token.reading engine.accepts),
          ∃ styled, engine.styleAnswer token = .ok (some styled) := by
        intro token htoken
        obtain ⟨raw, hraw, rfl⟩ := List.mem_map.mp htoken
        obtain ⟨found, styled, hfound, hstyle⟩ := hstyles raw (.inl hraw)
        cases (Token.readAnswer_eq_reading (hread raw hraw)).symm.trans hfound
        exact ⟨styled, hstyle⟩
      obtain ⟨all, hall, hallTokens⟩ := engine.settles_styleEach hstyled
      refine ⟨all ++ others, ?_, ?_⟩
      · exact (engine.settles_lift htokens).bind_ok
          (hall.bind_ok (hothers.bind_ok (Settles.pure _)))
      · have hraws : all.map (·.token.raw) = Group.expand t := by
          calc all.map (·.token.raw)
              = (all.map (·.token)).map (·.raw) := by rw [List.map_map]; rfl
            _ = (Group.expand t).map fun raw => (Token.reading engine.accepts raw).raw := by
                rw [hallTokens, List.map_map]; rfl
            _ = (Group.expand t).map fun raw => raw := by
                refine List.map_congr_left fun raw hraw => ?_
                exact Token.raw_of_readAnswer (Token.readAnswer_eq_reading (hread raw hraw))
            _ = Group.expand t := List.map_id' _
        rw [List.map_append, hraws, hothersRaws]

end Engine

namespace Lint

/-- If the checks of a class list end, then after every history each of its tokens that is
refused, or read but not styled, has an error that carries it; if there is no error, styling
keeps every token in order, and the stylesheet is made from all of them. Without further
checks, a token that is reported as an unknown class has no other error. -/
theorem validate_sound (engine : Engine) (texts : List Text) (watches : List Watch)
    (history : List Call) (diagnostics : List Diagnostic)
    (hvalidate : (validate engine texts (watches.map Watch.finder) (engine.after history)).1 =
      .ok diagnostics) :
    (∀ raw ∈ expandAll texts, ∀ later : List Call,
      ((∃ error, (engine.read raw (engine.after later).cache).1 = .error error) ∨
        ∃ token, (engine.read raw (engine.after later).cache).1 = .ok token ∧
          (engine.style token (engine.after later)).1 = .ok none) →
      ∃ found ∈ diagnostics, found.isError = true ∧ found.token = some raw) ∧
    ((∀ found ∈ diagnostics, found.isError = false) → ∀ later : List Call,
      ∃ styled, (engine.styleAll texts (engine.after later)).1 = .ok styled ∧
        styled.map (·.token.raw) = expandAll texts ∧
        ∀ options, (engine.compile texts options (engine.after later)).1 =
          .ok (Stylesheet.generate options styled)) ∧
    (watches = [] → ∀ found ∈ diagnostics, found.code = "unknown-class" →
      ∃ raw, found.token = some raw ∧
        diagnostics.filter (fun other => other.isError && other.token == some raw) =
          List.replicate ((expandAll texts).count raw) found) := by
  have hsession := engine.faithful_after history
  obtain ⟨further, hfurther⟩ := steady_watches engine watches (expandAll texts)
  have hgather := (settles_validate engine texts hfurther).eq_of_run hsession hvalidate
  refine ⟨?_, ?_, ?_⟩
  · intro raw hraw later hdropped
    have hlater := engine.faithful_after later
    refine exists_error_of_gather hgather hraw ?_
    rcases hdropped with ⟨error, herror⟩ | ⟨token, hread, hstyle⟩
    · left
      have hanswer := (engine.settles_read raw).eq_of_run hlater.cache herror
      obtain ⟨conflicts, -, hconflicts, -⟩ := findings_of_gather engine hgather
      rcases outcome_of_conflictAnswers hconflicts hraw with hrefused | ⟨token, styled, hread, -⟩
      · exact hrefused
      · cases hanswer.symm.trans hread
    · right
      exact ⟨token, (engine.settles_read raw).eq_of_run hlater.cache hread,
        (engine.settles_style token).eq_of_run hlater hstyle⟩
  · intro hnone later
    have hlater := engine.faithful_after later
    obtain ⟨all, hall, hraws⟩ := engine.settles_styleAll (styles_of_no_error hgather hnone)
    refine ⟨all, (hall _ hlater).1, hraws, fun options => ?_⟩
    exact (hall.bind_ok (Settles.pure (Stylesheet.generate options all)) _ hlater).1
  · rintro rfl found hfound hcode
    have hnothing : further = .ok [] := hfurther.eq_of_run hsession rfl
    rw [hnothing] at hgather
    exact errors_of_unknownClass hgather hfound hcode

/-- An engine with one variant and one rule. -/
def painted : Engine where
  registry := {
    rules := [⟨{ pattern := .literal "tint", body := .fixed [("color", "red")] }, "a#0", 0, "a"⟩]
    variants := [("hover", ⟨"hover", .pseudo, ":hover"⟩)] }

theorem painted_validate_sound :
    (validate painted ["hover:(tint ash)", "(a)"] [] (painted.after [])).1 = .ok
        [unreadFinding "(a)" (.variantGroup "(a)" 0), unknownClassFinding "hover:ash"] ∧
      (∃ found ∈ [unreadFinding "(a)" (.variantGroup "(a)" 0), unknownClassFinding "hover:ash"],
        found.isError = true ∧ found.token = some "(a)") ∧
      (validate painted ["hover:(tint tint)"] [] (painted.after [])).1 = .ok [] ∧
      ∃ styled, (painted.styleAll ["hover:(tint tint)"] (painted.after [.clear])).1 = .ok styled ∧
        styled.map (·.token.raw) = (["hover:tint", "hover:tint"] : List Text) := by
  have hfaults : (validate painted ["hover:(tint ash)", "(a)"] [] (painted.after [])).1 = .ok
      [unreadFinding "(a)" (.variantGroup "(a)" 0), unknownClassFinding "hover:ash"] :=
    eq_ok_of_toOption (by decide +kernel)
  have hclean : (validate painted ["hover:(tint tint)"] [] (painted.after [])).1 = .ok [] :=
    eq_ok_of_toOption (by decide +kernel)
  refine ⟨hfaults, ?_, hclean, ?_⟩
  · refine (validate_sound painted _ [] [] _ hfaults).1 "(a)" (by decide +kernel) [] (.inl ?_)
    exact ⟨.variantGroup "(a)" 0, rfl⟩
  · obtain ⟨styled, hstyled, hraws, -⟩ :=
      (validate_sound painted _ [] [] _ hclean).2.1 (by simp) [.clear]
    exact ⟨styled, hstyled, hraws⟩

end Lint

end UtilityCss
