import UtilityCss.Proofs.NumberFaults
import UtilityCss.Proofs.PatternShapes

/-!
# Computations of the catalogue

What a computed rule of the catalogue needs from a match are groups that took part in it,
and groups that exist. Given these, most computations succeed. Those that take a number fail
with the fault of their key and with nothing else, and decline a key with a slash that is no
number to them.
-/

namespace UtilityCss

/-- The groups `texts` took part in the match, and the groups `names` exist. -/
structure Match.Provides (found : Match) (texts names : List Text) : Prop where
  text : ∀ name ∈ texts, ∃ group, found.text name = .ok group
  named : ∀ name ∈ names, ∃ group, found.named name = .ok group

/-- A match provides groups that the pattern offers or knows. -/
theorem Pattern.provides_of_matchWhole {pattern : Pattern} {t : Text} {found : Match}
    (hmatch : pattern.matchWhole t = some found) {texts names : List Text}
    (htexts : ∀ name ∈ texts, pattern.offers name = true)
    (hnames : ∀ name ∈ names, pattern.knows name = true) : found.Provides texts names where
  text name hname := text_of_offers hmatch (htexts name hname)
  named name hname := named_of_knows hmatch (hnames name hname)

/-- The computation succeeds on matches that provide some groups. -/
def Compute.Succeeds (compute : Compute) (texts names : List Text) : Prop :=
  ∀ (found : Match) (theme : Theme), found.Provides texts names →
    ∃ properties, compute found theme = .ok properties

namespace Catalog

theorem succeeds_fromEntry (properties : List Text) (find? : Text → Theme → Option Text) :
    (fromEntry properties find?).Succeeds ["value"] [] := by
  intro found theme hfound
  obtain ⟨key, hkey⟩ := hfound.text "value" (by simp)
  exact ⟨_, by rw [fromEntry, fromValue, hkey, ok_bind, ok_bind]; rfl⟩

theorem succeeds_overflow : overflow.Succeeds ["value"] ["axis"] := by
  intro found theme hfound
  obtain ⟨value, hvalue⟩ := hfound.text "value" (by simp)
  obtain ⟨axis, haxis⟩ := hfound.named "axis" (by simp)
  exact ⟨_, by rw [overflow, haxis, ok_bind, hvalue, ok_bind]; rfl⟩

theorem succeeds_gap : gap.Succeeds ["value"] ["axis"] := by
  intro found theme hfound
  obtain ⟨key, hkey⟩ := hfound.text "value" (by simp)
  obtain ⟨axis, haxis⟩ := hfound.named "axis" (by simp)
  rw [gap, hkey, ok_bind]
  split
  · exact ⟨none, rfl⟩
  · exact ⟨_, by rw [haxis, ok_bind]; rfl⟩

theorem succeeds_boxProperty (property : Text) (allowAuto : Bool) :
    (boxProperty property allowAuto).Succeeds ["value", "side"] [] := by
  intro found theme hfound
  obtain ⟨key, hkey⟩ := hfound.text "value" (by simp)
  obtain ⟨side, hside⟩ := hfound.text "side" (by simp)
  rw [boxProperty, hkey, ok_bind]
  dsimp only
  split
  · exact ⟨none, rfl⟩
  · exact ⟨_, by rw [hside, ok_bind]; rfl⟩

theorem succeeds_spaceBetween : spaceBetween.Succeeds ["value"] ["axis"] := by
  intro found theme hfound
  obtain ⟨key, hkey⟩ := hfound.text "value" (by simp)
  obtain ⟨axis, haxis⟩ := hfound.named "axis" (by simp)
  rw [spaceBetween, hkey, ok_bind]
  split
  · exact ⟨none, rfl⟩
  · exact ⟨_, by rw [haxis, ok_bind]; rfl⟩

theorem succeeds_color : color.Succeeds ["value", "kind"] [] := by
  intro found theme hfound
  obtain ⟨key, hkey⟩ := hfound.text "value" (by simp)
  obtain ⟨kind, hkind⟩ := hfound.text "kind" (by simp)
  rw [color, hkey, ok_bind]
  split
  · exact ⟨none, rfl⟩
  · exact ⟨_, by rw [hkind, ok_bind]; rfl⟩

theorem succeeds_nestedColor (template property : Text) :
    (nestedColor template property).Succeeds ["value"] [] := by
  intro found theme hfound
  obtain ⟨key, hkey⟩ := hfound.text "value" (by simp)
  exact ⟨_, by rw [nestedColor, hkey, ok_bind]; rfl⟩

theorem succeeds_fontSize : fontSize.Succeeds ["value"] [] := by
  intro found theme hfound
  obtain ⟨key, hkey⟩ := hfound.text "value" (by simp)
  rw [fontSize, hkey, ok_bind]
  split <;> exact ⟨_, rfl⟩

theorem succeeds_font : font.Succeeds ["value"] [] := by
  intro found theme hfound
  obtain ⟨key, hkey⟩ := hfound.text "value" (by simp)
  rw [font, hkey, ok_bind]
  split
  · exact ⟨_, rfl⟩
  · split <;> exact ⟨_, rfl⟩

theorem succeeds_scaledSides (scale group : Text) (properties : Table Text (List Text)) :
    (scaledSides scale group properties).Succeeds [] ["value", group] := by
  intro found theme hfound
  obtain ⟨key, hkey⟩ := hfound.named "value" (by simp)
  obtain ⟨side, hside⟩ := hfound.named group (by simp)
  rw [scaledSides, hkey, ok_bind]
  split
  · exact ⟨none, rfl⟩
  · exact ⟨_, by rw [hside, ok_bind]; rfl⟩

theorem succeeds_divideWidth : divideWidth.Succeeds [] ["value", "axis"] := by
  intro found theme hfound
  obtain ⟨key, hkey⟩ := hfound.named "value" (by simp)
  obtain ⟨axis, haxis⟩ := hfound.named "axis" (by simp)
  rw [divideWidth, hkey, ok_bind]
  split
  · exact ⟨none, rfl⟩
  · exact ⟨_, by rw [haxis, ok_bind]; rfl⟩

theorem succeeds_ring : ring.Succeeds [] ["value"] := by
  intro found theme hfound
  obtain ⟨key, hkey⟩ := hfound.named "value" (by simp)
  exact ⟨_, by rw [ring, hkey, ok_bind]; rfl⟩

theorem succeeds_shadow : shadow.Succeeds [] ["value"] := by
  intro found theme hfound
  obtain ⟨key, hkey⟩ := hfound.named "value" (by simp)
  exact ⟨_, by rw [shadow, hkey, ok_bind]; rfl⟩

theorem succeeds_rotate : rotate.Succeeds ["value"] [] := by
  intro found theme hfound
  obtain ⟨key, hkey⟩ := hfound.text "value" (by simp)
  exact ⟨_, by rw [rotate, hkey, ok_bind]; rfl⟩

theorem succeeds_skew : skew.Succeeds ["value", "axis"] [] := by
  intro found theme hfound
  obtain ⟨key, hkey⟩ := hfound.text "value" (by simp)
  obtain ⟨axis, haxis⟩ := hfound.text "axis" (by simp)
  rw [skew, hkey, ok_bind]
  split
  · exact ⟨none, rfl⟩
  · exact ⟨_, by rw [haxis, ok_bind]; rfl⟩

theorem succeeds_verbatim : verbatim.Succeeds ["value", "prop"] [] := by
  intro found theme hfound
  obtain ⟨value, hvalue⟩ := hfound.text "value" (by simp)
  obtain ⟨property, hproperty⟩ := hfound.text "prop" (by simp)
  rw [verbatim, hvalue, ok_bind]
  dsimp only
  split
  · exact ⟨none, rfl⟩
  · exact ⟨_, by rw [hproperty, ok_bind]; rfl⟩

end Catalog

/-! ## Numbers -/

/-- No key of the scale has a slash. -/
def Theme.lacksSlashes (theme : Theme) (scale : Text) : Bool :=
  ((theme.get? scale).bind Value.table?).all fun entries =>
    entries.keys.all fun key => !key.contains '/'

theorem Theme.text?_of_slash {theme : Theme} {scale key : Text}
    (htheme : theme.lacksSlashes scale = true) (hkey : '/' ∈ key) :
    theme.text? scale key = none := by
  rw [Theme.text?, Theme.lookup?]
  rw [Theme.lacksSlashes] at htheme
  cases hscale : theme.get? scale with
  | none => rfl
  | some value =>
      rw [hscale] at htheme
      cases hentries : value.table? with
      | none => simp [hentries]
      | some entries =>
          have hmissing : entries.get? key = none := by
            apply Table.get?_of_not_mem
            intro hmem
            simp only [Option.bind_some, hentries, Option.all_some, List.all_eq_true] at htheme
            simpa [hkey] using htheme key hmem
          simp [hentries, hmissing]

/-- The key has a slash and is neither a number to the use nor an entry of the theme. -/
structure NumberUse.Misses (use : NumberUse) (theme : Theme) (key : Text) : Prop where
  line : '\n' ∉ key
  digit : startsWithDigit key = true
  slash : '/' ∈ key
  number : use.isNumber key = false
  spacing : theme.lacksSlashes "spacing" = true
  maxWidth : theme.lacksSlashes "maxWidth" = true

/-- What is found for a key depends on the number that it is. -/
structure FindsNumber (use : NumberUse) (find : Text → Theme → Except Error (Option Text)) :
    Prop where
  fault : ∀ {key theme}, '\n' ∉ key → fault? (find key theme) = use.fault? key
  misses : ∀ {key theme}, use.Misses theme key → find key theme = .ok none

namespace Catalog

theorem finds_opacityValue : FindsNumber .count opacityValue where
  fault _ := fault?_opacityValue _ _
  misses {key _} hkey := by
    have hdigits : Text.isDigits key = false := hkey.number
    rw [opacityValue, isBracketed_of_startsWithDigit hkey.digit, hdigits]
    rfl

theorem finds_factor : FindsNumber .percentage fun key _ => factor key where
  fault _ := fault?_factor _
  misses {key _} hkey := by
    have hdigits : Text.isDigits key = false := hkey.number
    rw [factor, isBracketed_of_startsWithDigit hkey.digit, hdigits]
    rfl

theorem fraction_of_misses {theme : Theme} {key : Text}
    (hkey : NumberUse.fraction.Misses theme key) : Css.fraction key = .ok none := by
  have hnone := hkey.number
  rw [NumberUse.isNumber, Option.isSome_eq_false_iff, Option.isNone_iff_eq_none] at hnone
  rw [Css.fraction, fractionParts?_eq hkey.line, hnone]
  rfl

theorem length?_of_misses {use : NumberUse} {theme : Theme} {key : Text}
    (hkey : use.Misses theme key) : theme.length? key = none := by
  rw [Theme.length?, isBracketed_of_startsWithDigit hkey.digit, if_neg Bool.false_ne_true]
  exact Theme.text?_of_slash hkey.spacing hkey.slash

theorem finds_distance : FindsNumber .fraction distance where
  fault hline := by
    rw [distance]
    split
    · rename_i hfull
      rw [eq_of_beq hfull]
      rfl
    · rw [fault?_bind_pure, fault?_fraction hline]
  misses {key _} hkey := by
    have hfull : key ≠ "full" := ne_of_startsWithDigit hkey.digit (by decide +kernel)
    rw [distance, if_neg (by simpa using hfull), fraction_of_misses hkey, ok_bind,
      length?_of_misses hkey]
    rfl

theorem insetValue_eq (key : Text) (theme : Theme) :
    insetValue key theme = if key == "auto" then .ok (some "auto") else distance key theme := rfl

theorem finds_insetValue : FindsNumber .fraction insetValue where
  fault hline := by
    rw [insetValue_eq]
    split
    · rename_i hauto
      rw [eq_of_beq hauto]
      rfl
    · exact finds_distance.fault hline
  misses {key _} hkey := by
    have hauto : key ≠ "auto" := ne_of_startsWithDigit hkey.digit (by decide +kernel)
    rw [insetValue_eq, if_neg (by simpa using hauto)]
    exact finds_distance.misses hkey

/-- A size by name, or else a fraction or a length. -/
theorem sizeValue_eq (kind key : Text) (theme : Theme) :
    sizeValue kind key theme =
      match (sizeKeywords.get? key).or (viewport? kind key) with
      | some value => .ok (some value)
      | none => do
          return ((← Css.fraction key).or
            (if kind == "max-w" then theme.text? "maxWidth" key else none)).or
              (theme.length? key) := by
  rw [sizeValue]
  cases sizeKeywords.get? key with
  | some value => rfl
  | none =>
      cases viewport? kind key with
      | some value => rfl
      | none =>
          cases Css.fraction key with
          | error error => rfl
          | ok found =>
              cases found with
              | some value => rfl
              | none =>
                  cases hkind : kind == "max-w" with
                  | false => rfl
                  | true => cases theme.text? "maxWidth" key <;> rfl

/-- No size has a name that begins with a digit. -/
theorem sizeNames_of_startsWithDigit (kind : Text) {key : Text}
    (hkey : startsWithDigit key = true) :
    (sizeKeywords.get? key).or (viewport? kind key) = none := by
  have hkeywords : sizeKeywords.get? key = none :=
    get?_of_startsWithDigit (by decide +kernel) hkey
  have hne : ∀ word ∈ (["screen", "svw", "lvw", "dvw", "svh", "lvh", "dvh"] : List Text),
      key ≠ word := by
    intro word hword
    apply ne_of_startsWithDigit hkey
    revert word
    decide +kernel
  have hscreen : (key == "screen") = false := beq_false_of_ne (hne _ (by simp))
  rw [hkeywords, Option.none_or, viewport?, hscreen]
  dsimp only
  -- Which units there are depends on the kind; none of either sort begins with a digit.
  generalize List.contains _ kind = horizontal
  rw [if_neg Bool.false_ne_true, if_neg]
  rw [List.contains_iff_mem]
  intro hunit
  refine hne key ?_ rfl
  cases horizontal <;> simp_all

theorem finds_sizeValue (kind : Text) : FindsNumber .fraction (sizeValue kind) where
  fault {key theme} hline := by
    rw [sizeValue_eq]
    cases hname : (sizeKeywords.get? key).or (viewport? kind key) with
    | none => rw [fault?_bind_pure, fault?_fraction hline]
    | some value =>
        -- A key with a fault begins with a digit, but sizes by name do not.
        cases hfault : NumberUse.fraction.fault? key with
        | none => rfl
        | some error =>
            obtain ⟨c, rest, rfl, hc, -⟩ := NumberUse.exists_digit hfault
            have hdigit : startsWithDigit (c :: rest) = true := hc
            rw [sizeNames_of_startsWithDigit kind hdigit] at hname
            cases hname
  misses {key theme} hkey := by
    have hwidth := Theme.text?_of_slash hkey.maxWidth hkey.slash
    rw [sizeValue_eq, sizeNames_of_startsWithDigit kind hkey.digit, fraction_of_misses hkey,
      hwidth, length?_of_misses hkey]
    simp

end Catalog

/-! ## Computations with numbers -/

/-- The computation fails with the fault of its key, and declines a key that is no number. -/
structure Compute.TakesNumber (compute : Compute) (texts names : List Text) (use : NumberUse) :
    Prop where
  fault : ∀ {found theme key}, found.Provides texts names → found.text "value" = .ok key →
    '\n' ∉ key → fault? (compute found theme) = use.fault? key
  declines : ∀ {found theme key}, found.Provides texts names → found.text "value" = .ok key →
    use.Misses theme key → compute found theme = .ok none

namespace Catalog

theorem takesNumber_fromValue (properties : List Text) {use : NumberUse}
    {find : Text → Theme → Except Error (Option Text)} (hfind : FindsNumber use find) :
    (fromValue properties find).TakesNumber [] [] use where
  fault _ hkey hline := by
    rw [fromValue, hkey, ok_bind, fault?_bind_pure]
    exact hfind.fault hline
  declines _ hkey hmisses := by
    rw [fromValue, hkey, ok_bind, hfind.misses hmisses]
    rfl

theorem takesNumber_inset : inset.TakesNumber ["side"] [] .fraction where
  fault hfound hkey hline := by
    obtain ⟨side, hside⟩ := hfound.text "side" (by simp)
    rw [inset, hkey, ok_bind, hside, fault?_bind_of_ok ?_, finds_insetValue.fault hline]
    intro value
    cases value <;> exact ⟨_, rfl⟩
  declines _ hkey hmisses := by
    rw [inset, hkey, ok_bind, finds_insetValue.misses hmisses]
    rfl

theorem takesNumber_translate : translate.TakesNumber [] ["axis"] .fraction where
  fault hfound hkey hline := by
    obtain ⟨axis, haxis⟩ := hfound.named "axis" (by simp)
    rw [translate, hkey, ok_bind, haxis, fault?_bind_of_ok ?_, finds_distance.fault hline]
    intro value
    cases value <;> exact ⟨_, rfl⟩
  declines _ hkey hmisses := by
    rw [translate, hkey, ok_bind, finds_distance.misses hmisses]
    rfl

theorem takesNumber_resize : resize.TakesNumber [] ["axis"] .percentage where
  fault {_ theme _} hfound hkey hline := by
    obtain ⟨axis, haxis⟩ := hfound.named "axis" (by simp)
    rw [resize, hkey, ok_bind, haxis, fault?_bind_of_ok ?_, fault?_factor]
    intro value
    cases value <;> exact ⟨_, rfl⟩
  declines _ hkey hmisses := by
    have hfactor := finds_factor.misses hmisses
    rw [resize, hkey, ok_bind, hfactor]
    rfl

theorem takesNumber_size : size.TakesNumber ["kind"] [] .fraction where
  fault hfound hkey hline := by
    obtain ⟨kind, hkind⟩ := hfound.text "kind" (by simp)
    rw [size, hkind, ok_bind, hkey, ok_bind, fault?_bind_pure, (finds_sizeValue kind).fault hline]
  declines hfound hkey hmisses := by
    obtain ⟨kind, hkind⟩ := hfound.text "kind" (by simp)
    rw [size, hkind, ok_bind, hkey, ok_bind, (finds_sizeValue kind).misses hmisses]
    rfl

theorem isPositive_of_misses {theme : Theme} {key : Text}
    (hkey : NumberUse.count.Misses theme key) : isPositive key = .ok false := by
  have hdigits : Text.isDigits key = false := hkey.number
  rw [isPositive, hdigits]
  rfl

theorem takesNumber_gridTemplate : gridTemplate.TakesNumber [] ["kind"] .count where
  fault hfound hkey _ := by
    obtain ⟨kind, hkind⟩ := hfound.named "kind" (by simp)
    rw [gridTemplate, hkind, ok_bind, hkey, ok_bind, fault?_bind_of_ok ?_, fault?_isPositive]
    intro positive
    exact ⟨_, rfl⟩
  declines {_ _ key} hfound hkey hmisses := by
    obtain ⟨kind, hkind⟩ := hfound.named "kind" (by simp)
    have hnone : (key == "none") = false :=
      beq_false_of_ne (ne_of_startsWithDigit hmisses.digit (by decide +kernel))
    have hbracketed : Css.bracketed? key = none := by
      rw [Css.bracketed?, isBracketed_of_startsWithDigit hmisses.digit]
      rfl
    rw [gridTemplate, hkind, ok_bind, hkey, ok_bind, isPositive_of_misses hmisses, ok_bind, hnone,
      hbracketed]
    rfl

theorem takesNumber_gridSpan : gridSpan.TakesNumber [] ["kind"] .count where
  fault hfound hkey _ := by
    obtain ⟨kind, hkind⟩ := hfound.named "kind" (by simp)
    rw [gridSpan, hkind, ok_bind, hkey, ok_bind, fault?_bind_of_ok ?_, fault?_isPositive]
    intro positive
    exact ⟨_, rfl⟩
  declines {_ _ key} hfound hkey hmisses := by
    obtain ⟨kind, hkind⟩ := hfound.named "kind" (by simp)
    have hfull : (key == "full") = false :=
      beq_false_of_ne (ne_of_startsWithDigit hmisses.digit (by decide +kernel))
    rw [gridSpan, hkind, ok_bind, hkey, ok_bind, isPositive_of_misses hmisses, ok_bind, hfull]
    rfl

end Catalog

end UtilityCss
