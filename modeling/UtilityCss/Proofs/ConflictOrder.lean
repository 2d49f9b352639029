import UtilityCss.Proofs.BlockOrder
import UtilityCss.Proofs.LintSoundness
import UtilityCss.Proofs.StandardStyling

/-!
# Conflicts and the order of blocks

The check for conflicts says of two class names that the later one takes precedence. Its
table of declared properties tracks which class name of those before declared a property
last, so both class names are styled under the same variants and declare the property. The
check does not look at layers, nor at earlier places of a class name, so what it says is right
only if the order of the two blocks in the stylesheet is that of the class names.
-/

namespace UtilityCss

namespace Lint

variable {engine : Engine}

/-! ## What the table of declared properties tracks -/

/-- The class name is styled to this, under these variants, and declares the property. -/
structure Declares (engine : Engine) (variants : List Text) (property raw : Text)
    (styled : Styled) : Prop where
  styles : Styles engine raw styled.token (some styled)
  variants : styled.token.variants = variants
  property : property ∈ styled.declarations.keys

/-- Class names in the table are among those before, and declare what they stand for. -/
def Declared.Tracks (engine : Engine) (declared : Declared) (before : List Text) : Prop :=
  ∀ variants property raw, declared.get? (variants, property) = some raw →
    raw ∈ before ∧ ∃ styled, Declares engine variants property raw styled

theorem get?_record (declared : Declared) (variants : List Text) (raw : Text)
    (properties : List Text) (key : List Text × Text) :
    (declared.record variants raw properties).get? key =
      if key.1 = variants ∧ key.2 ∈ properties then some raw else declared.get? key := by
  induction properties generalizing declared with
  | nil => simp [Declared.record]
  | cons property rest ih =>
      rw [Declared.record, List.foldl_cons]
      refine (ih _).trans ?_
      rw [Table.get?_put]
      by_cases hrest : key.1 = variants ∧ key.2 ∈ rest
      · rw [if_pos hrest, if_pos ⟨hrest.1, List.mem_cons_of_mem _ hrest.2⟩]
      · rw [if_neg hrest]
        by_cases hkey : key = (variants, property)
        · rw [if_pos hkey, if_pos ⟨by rw [hkey], by simp [hkey]⟩]
        · rw [if_neg hkey, if_neg]
          rintro ⟨hvariants, hproperty⟩
          rcases List.mem_cons.mp hproperty with hsame | hmem
          · exact hkey (Prod.ext hvariants hsame)
          · exact hrest ⟨hvariants, hmem⟩

theorem tracks_nil : Declared.Tracks engine [] [] := by
  intro variants property raw hraw
  cases hraw

theorem Declared.Tracks.append {declared : Declared} {before : List Text}
    (htracks : declared.Tracks engine before) (more : List Text) :
    declared.Tracks engine (before ++ more) := by
  intro variants property raw hraw
  obtain ⟨hmem, hdeclares⟩ := htracks variants property raw hraw
  exact ⟨List.mem_append_left more hmem, hdeclares⟩

/-- One more class name that is styled is tracked once it is recorded. -/
theorem Declared.Tracks.record {declared : Declared} {before : List Text}
    (htracks : declared.Tracks engine before) {raw : Text} {styled : Styled}
    (hstyles : Styles engine raw styled.token (some styled)) :
    (declared.record styled.token.variants raw styled.declarations.keys).Tracks engine
      (before ++ [raw]) := by
  intro variants property other hother
  rw [get?_record] at hother
  split at hother
  next hrecorded =>
    obtain rfl := Option.some.inj hother
    exact ⟨by simp, styled, hstyles, hrecorded.1.symm, hrecorded.2⟩
  next => exact htracks.append [raw] variants property other hother

/-! ## What the check reports -/

/-- The finding is about a property that two class names of a list declare under the same
variants, the one that takes precedence after the other. -/
structure Reports (engine : Engine) (tokens : List Text) (found : Diagnostic) (property : Text)
    (early late : Styled) : Prop where
  found : found = conflict property late.token.raw early.token.raw
  distinct : early.token.raw ≠ late.token.raw
  order : [early.token.raw, late.token.raw].Sublist tokens
  early : Declares engine late.token.variants property early.token.raw early
  late : Declares engine late.token.variants property late.token.raw late

theorem raw_of_styles {raw : Text} {styled : Styled}
    (hstyles : Styles engine raw styled.token (some styled)) : styled.token.raw = raw :=
  Token.raw_of_readAnswer hstyles.1

theorem exists_reports_of_conflictsOf {declared : Declared} {before rest : List Text}
    (htracks : declared.Tracks engine before) {raw : Text} {styled : Styled}
    (hstyles : Styles engine raw styled.token (some styled)) {found : Diagnostic}
    (hfound : found ∈ conflictsOf declared styled.token.variants raw styled.declarations.keys) :
    ∃ property early late, Reports engine (before ++ raw :: rest) found property early late := by
  obtain ⟨property, hproperty, hprevious⟩ := List.mem_filterMap.mp hfound
  obtain ⟨previous, hfilter, rfl⟩ := Option.map_eq_some_iff.mp hprevious
  obtain ⟨hget, hne⟩ := Option.filter_eq_some_iff.mp hfilter
  obtain ⟨hmem, early, hearly⟩ := htracks _ _ _ hget
  obtain rfl := raw_of_styles hstyles
  obtain rfl := raw_of_styles hearly.styles
  refine ⟨property, early, styled, rfl, of_decide_eq_true hne, ?_, hearly, hstyles, rfl, hproperty⟩
  exact (List.singleton_sublist.mpr hmem).append (List.singleton_sublist.mpr List.mem_cons_self)

/-- Every finding of the check is about two class names as it says. -/
theorem exists_reports_of_conflictAnswers {tokens before : List Text} {declared : Declared}
    {conflicts : List Diagnostic} (htracks : declared.Tracks engine before)
    (hconflicts : conflictAnswers engine declared tokens = .ok conflicts) :
    ∀ found ∈ conflicts, ∃ property early late,
      Reports engine (before ++ tokens) found property early late := by
  induction tokens generalizing before declared conflicts with
  | nil =>
      cases hconflicts
      simp
  | cons raw rest ih =>
      rw [List.append_cons]
      obtain ⟨reading, hread, hafter⟩ := bind_eq_ok hconflicts
      cases reading with
      | none => exact ih (htracks.append [raw]) hafter
      | some token =>
          obtain ⟨outcome, hstyle, hlater⟩ := bind_eq_ok hafter
          cases outcome with
          | none => exact ih (htracks.append [raw]) hlater
          | some styled =>
              obtain ⟨others, hothers, hall⟩ := bind_eq_ok hlater
              cases hall
              obtain rfl := engine.token_of_styleAnswer hstyle
              have hstyles : Styles engine raw styled.token (some styled) :=
                ⟨readingAnswer_eq_some hread, hstyle⟩
              intro found hfound
              rcases List.mem_append.mp hfound with hhere | hrest
              · rw [← List.append_cons]
                exact exists_reports_of_conflictsOf htracks hstyles hhere
              · exact ih (htracks.record hstyles) hothers found hrest

end Lint

/-! ## What is styled -/

namespace Engine

variable {engine : Engine}

/-- What a class name is styled to, if it can be read and styled. -/
def styled? (engine : Engine) (raw : Text) : Option Styled :=
  (Token.readAnswer engine.accepts raw >>= engine.styleAnswer).toOption.join

theorem styled?_of_styles {raw : Text} {token : Token} {styled : Option Styled}
    (hstyles : Lint.Styles engine raw token styled) : engine.styled? raw = styled := by
  rw [styled?, hstyles.1, ok_bind, hstyles.2]
  rfl

theorem raw_of_styled? {raw : Text} {styled : Styled}
    (hstyled : engine.styled? raw = some styled) : styled.token.raw = raw := by
  unfold styled? at hstyled
  cases hread : Token.readAnswer engine.accepts raw with
  | error error =>
      rw [hread] at hstyled
      cases hstyled
  | ok token =>
      rw [hread, ok_bind] at hstyled
      cases hstyle : engine.styleAnswer token with
      | error error =>
          rw [hstyle] at hstyled
          cases hstyled
      | ok found =>
          rw [hstyle] at hstyled
          obtain rfl : found = some styled := hstyled
          rw [engine.token_of_styleAnswer hstyle]
          exact Token.raw_of_readAnswer hread

/-- Tokens that can be styled or not are styled in order. -/
theorem settles_styleEach_filterMap {raws : List Text}
    (houtcome : ∀ raw ∈ raws, Lint.Refused engine raw ∨
      ∃ token styled, Lint.Styles engine raw token styled) :
    Settles engine.Faithful
      (engine.styleEach (raws.filterMap fun raw => (Token.readAnswer engine.accepts raw).toOption))
      (.ok (raws.filterMap engine.styled?)) := by
  induction raws with
  | nil => exact Settles.pure []
  | cons raw rest ih =>
      have hrest := ih fun other hother => houtcome other (List.mem_cons_of_mem _ hother)
      rw [List.filterMap_cons, List.filterMap_cons]
      rcases houtcome raw List.mem_cons_self with
        ⟨group, position, hrefused⟩ | ⟨token, styled, hstyles⟩
      · have hnone : engine.styled? raw = none := by
          rw [styled?, hrefused]
          rfl
        rw [hrefused, hnone]
        exact hrest
      · have hstyle := engine.settles_style token
        rw [hstyles.2] at hstyle
        rw [styled?_of_styles hstyles, hstyles.1]
        cases styled with
        | none => exact hstyle.bind_ok (hrest.bind_ok (Settles.pure _))
        | some styled => exact hstyle.bind_ok (hrest.bind_ok (Settles.pure _))

/-- If every class name is refused, or read and then styled or not, class texts are styled to
what is left. -/
theorem settles_styleAll_filterMap {texts : List Text}
    (houtcome : ∀ raw ∈ Lint.expandAll texts, Lint.Refused engine raw ∨
      ∃ token styled, Lint.Styles engine raw token styled) :
    Settles engine.Faithful (engine.styleAll texts)
      (.ok ((Lint.expandAll texts).filterMap engine.styled?)) := by
  induction texts with
  | nil => exact Settles.pure []
  | cons t rest ih =>
      rw [Lint.expandAll, List.flatMap_cons] at houtcome ⊢
      have hhere := settles_styleEach_filterMap fun raw hraw =>
        houtcome raw (List.mem_append_left _ hraw)
      have hrest := ih fun raw hraw => houtcome raw (List.mem_append_right _ hraw)
      have hread : Settles (PatternCache.Faithful engine.lookups) (engine.readAll t)
          (.ok ((Group.expand t).filterMap fun raw =>
            (Token.readAnswer engine.accepts raw).toOption)) := by
        apply Token.settles_readEach_filterMap engine.settles_isVariant
        intro raw hraw error herror
        rcases houtcome raw (List.mem_append_left _ hraw) with
          ⟨group, position, hrefused⟩ | ⟨token, styled, hstyles, -⟩
        · exact ⟨group, position, Except.error.inj (herror.symm.trans hrefused)⟩
        · cases herror.symm.trans hstyles
      rw [List.filterMap_append]
      exact (engine.settles_lift hread).bind_ok (hhere.bind_ok (hrest.bind_ok (Settles.pure _)))

end Engine

namespace Lint

variable {engine : Engine}

theorem conflictAnswers_of_styles {raw : Text} {styled : Styled}
    (hstyles : Styles engine raw styled.token (some styled)) (declared : Declared)
    (rest : List Text) :
    conflictAnswers engine declared (raw :: rest) =
      (conflictAnswers engine (declared.record styled.token.variants raw styled.declarations.keys)
        rest).map (conflictsOf declared styled.token.variants raw styled.declarations.keys ++ ·) := by
  rw [conflictAnswers, readingAnswer_of_styles hstyles, ok_bind]
  simp only [hstyles.2, ok_bind]
  rfl

/-- If the check for conflicts ends, the stylesheet is made, and every conflict that is found is
one between two results of it. The block of the class name that is said to take precedence
comes after the block of the other exactly if its layer comes after that of the other, or if
the layer is the same and its place is supplied later for the first time. -/
theorem conflict_order (engine : Engine) (texts : List Text) (history later : List Call)
    (diagnostics : List Diagnostic)
    (hcheck : (checkConflicts engine (expandAll texts) (engine.after history)).1 =
      .ok diagnostics) :
    ∃ results, (engine.styleAll texts (engine.after later)).1 = .ok results ∧
      (engine.compile texts {} (engine.after later)).1 = .ok (Stylesheet.generate {} results) ∧
      ∀ found ∈ diagnostics, ∃ property early late,
        found = conflict property late.token.raw early.token.raw ∧
        [early, late].Sublist results ∧ early.token.raw ≠ late.token.raw ∧
        early.token.variants = late.token.variants ∧
        property ∈ early.declarations.keys ∧ property ∈ late.declarations.keys ∧
        (Precedes (Stylesheet.blocks {} results) (·.IsOf early) (·.IsOf late) ↔
          Layer.all.idxOf early.layer < Layer.all.idxOf late.layer ∨
            early.layer = late.layer ∧
              Stylesheet.firstSupply {} results early < Stylesheet.firstSupply {} results late) := by
  have hconflicts := (settles_conflictsFrom engine [] _).eq_of_run
    (engine.faithful_after history) hcheck
  have hstyles := Engine.settles_styleAll_filterMap fun raw hraw =>
    outcome_of_conflictAnswers hconflicts hraw
  have hlater := engine.faithful_after later
  refine ⟨_, (hstyles _ hlater).1,
    (hstyles.bind_ok (Settles.pure (Stylesheet.generate {} _)) _ hlater).1, ?_⟩
  intro found hfound
  obtain ⟨property, early, late, hreports⟩ :=
    exists_reports_of_conflictAnswers tracks_nil hconflicts found hfound
  have hsublist : [early, late].Sublist ((expandAll texts).filterMap engine.styled?) := by
    have hmapped := hreports.order.filterMap engine.styled?
    rwa [List.filterMap_cons, Engine.styled?_of_styles hreports.early.styles, List.filterMap_cons,
      Engine.styled?_of_styles hreports.late.styles, List.filterMap_nil] at hmapped
  refine ⟨property, early, late, hreports.found, hsublist, hreports.distinct,
    hreports.early.variants, hreports.early.property, hreports.late.property, ?_⟩
  have hfull {styled : Styled} (hmem : property ∈ styled.declarations.keys) :
      styled.declarations ≠ [] := by
    rintro hnone
    rw [hnone] at hmem
    cases hmem
  refine Stylesheet.precedes_blocks ?_ (hsublist.subset (by simp)) (hsublist.subset (by simp))
    (hfull hreports.early.property) (hfull hreports.late.property)
  -- What a class name is styled to does not depend on where it stands.
  intro a ha b hb hraw
  obtain ⟨first, -, hfirst⟩ := List.mem_filterMap.mp ha
  obtain ⟨second, -, hsecond⟩ := List.mem_filterMap.mp hb
  rw [Engine.raw_of_styled? hfirst, Engine.raw_of_styled? hsecond] at hraw
  rw [hraw, hsecond] at hfirst
  exact (Option.some.inj hfirst).symm

/-- An engine with two rules for the same property. -/
def scaled : Engine where
  registry := {
    rules := [⟨{ pattern := .literal "wide", body := .fixed [("width", "9em")] }, "a#0", 0, "a"⟩,
      ⟨{ pattern := .literal "slim", body := .fixed [("width", "1em")] }, "a#1", 1, "a"⟩] }

theorem conflict_order_repeated :
    (checkConflicts scaled (expandAll ["wide slim", "wide"]) (scaled.after [])).1 =
        .ok [conflict "width" "slim" "wide", conflict "width" "wide" "slim"] ∧
      ∃ results, (scaled.styleAll ["wide slim", "wide"] (scaled.after [.clear])).1 = .ok results ∧
        ∃ property early late,
          conflict "width" "wide" "slim" = conflict property late.token.raw early.token.raw ∧
          [early, late].Sublist results ∧
          (Precedes (Stylesheet.blocks {} results) (·.IsOf early) (·.IsOf late) ↔
            Layer.all.idxOf early.layer < Layer.all.idxOf late.layer ∨
              early.layer = late.layer ∧ Stylesheet.firstSupply {} results early <
                Stylesheet.firstSupply {} results late) := by
  have hcheck : (checkConflicts scaled (expandAll ["wide slim", "wide"]) (scaled.after [])).1 =
      .ok [conflict "width" "slim" "wide", conflict "width" "wide" "slim"] :=
    eq_ok_of_toOption (by decide +kernel)
  obtain ⟨results, hresults, -, hfound⟩ :=
    conflict_order scaled ["wide slim", "wide"] [] [.clear] _ hcheck
  obtain ⟨property, early, late, hsame, horder, -, -, -, -, hiff⟩ :=
    hfound (conflict "width" "wide" "slim") (by simp)
  exact ⟨hcheck, results, hresults, property, early, late, hsame, horder, hiff⟩

/-- The check says of "container" that it takes precedence, but it is a component, and its block
comes before that of the utility. -/
theorem conflict_order_container : ∃ engine, Engine.build {} = .ok engine ∧
    (checkConflicts engine ["sr-only", "container"] {}).1 =
      .ok [conflict "width" "container" "sr-only"] ∧
    ∃ hidden container, (engine.styleAll ["sr-only", "container"] {}).1 = .ok [hidden, container] ∧
      hidden.token.raw = "sr-only" ∧ container.token.raw = "container" ∧
      Precedes (Stylesheet.blocks {} [hidden, container]) (·.IsOf container) (·.IsOf hidden) ∧
      ¬ Precedes (Stylesheet.blocks {} [hidden, container]) (·.IsOf hidden) (·.IsOf container) := by
  obtain ⟨engine, hbuild, hengine⟩ := Engine.exists_build
  have hhiddenRules : Catalog.utilityRules = Catalog.utilityRules.take 27 ++
      Catalog.fixedRule "sr-only"
        [("position", "absolute"), ("width", "1px"), ("height", "1px"), ("padding", "0"),
          ("margin", "-1px"), ("overflow", "hidden"), ("clip", "rect(0, 0, 0, 0)"),
          ("white-space", "nowrap"), ("border-width", "0")] :: Catalog.utilityRules.drop 28 := rfl
  have hcontainerRules : Catalog.utilityRules = [] ++
      { Catalog.fixedRule "container"
          [("width", "100%"), ("margin-left", "auto"), ("margin-right", "auto")] with
        layer := .components } :: Catalog.utilityRules.drop 1 := rfl
  obtain ⟨hidden, hhidden, hhiddenRead, hhiddenStyle, hhiddenLayer, hhiddenKeys⟩ :=
    hengine.exists_styled_of_fixed
      { raw := "sr-only", utility := "sr", value := some "only", body := "sr-only" }
      rfl rfl hhiddenRules rfl rfl rfl
      (by decide) rfl rfl
  obtain ⟨container, hcontainer, hcontainerRead, hcontainerStyle, hcontainerLayer,
    hcontainerKeys⟩ := hengine.exists_styled_of_fixed
      { raw := "container", utility := "container", body := "container" }
      rfl rfl hcontainerRules rfl rfl rfl (by decide) rfl rfl
  have hstylesHidden : Styles engine "sr-only" hidden.token (some hidden) := by
    rw [hhidden]
    exact ⟨hhiddenRead, hhiddenStyle⟩
  have hstylesContainer : Styles engine "container" container.token (some container) := by
    rw [hcontainer]
    exact ⟨hcontainerRead, hcontainerStyle⟩
  have hconflicts : conflictAnswers engine [] ["sr-only", "container"] =
      .ok [conflict "width" "container" "sr-only"] := by
    rw [conflictAnswers_of_styles hstylesHidden, conflictAnswers_of_styles hstylesContainer,
      hhidden, hcontainer, hhiddenKeys, hcontainerKeys]
    rfl
  have hnames : expandAll ["sr-only", "container"] = (["sr-only", "container"] : List Text) := rfl
  have hstyles : Settles engine.Faithful (engine.styleAll ["sr-only", "container"])
      (.ok [hidden, container]) := by
    have hall := Engine.settles_styleAll_filterMap fun raw hraw =>
      outcome_of_conflictAnswers hconflicts (hnames ▸ hraw)
    rwa [hnames, List.filterMap_cons, Engine.styled?_of_styles hstylesHidden, List.filterMap_cons,
      Engine.styled?_of_styles hstylesContainer] at hall
  refine ⟨engine, hbuild, ?_, hidden, container, (hstyles _ engine.faithful_new).1, by rw [hhidden],
    by rw [hcontainer], ?_⟩
  · rw [← hconflicts]
    exact (settles_conflictsFrom engine [] _ _ engine.faithful_new).1
  have huniform : ∀ a ∈ [hidden, container], ∀ b ∈ [hidden, container],
      a.token.raw = b.token.raw → a = b := by
    simp [hhidden, hcontainer]
  have hfull {styled : Styled} {keys : List Text} (hkeys : styled.declarations.keys = keys)
      (hne : keys ≠ []) : styled.declarations ≠ [] := by
    rintro hnone
    rw [hnone] at hkeys
    exact hne hkeys.symm
  apply Stylesheet.precedes_of_layer huniform (by simp) (by simp) (hfull hcontainerKeys (by decide))
    (hfull hhiddenKeys (by decide))
  rw [hhiddenLayer, hcontainerLayer]
  decide

end Lint

end UtilityCss
