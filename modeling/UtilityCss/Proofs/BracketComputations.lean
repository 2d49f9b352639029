import UtilityCss.Proofs.BracketValues

/-!
# Computations with brackets

Given a key with a bracket in it, the computations of the catalogue give a result exactly if
the key is taken: no name in the theme, no keyword and no number has a bracket. They do not fail
on such a key.
-/

namespace UtilityCss

/-! ## Names and numbers -/

/-- No name on a scale and no name of a shade has an opening bracket. -/
def Theme.lacksBrackets (theme : Theme) : Bool :=
  theme.all fun (_, values) => values.table?.all fun entries => entries.all fun (name, value) =>
    !name.contains '[' && value.table?.all fun shades => shades.keys.all (!·.contains '[')

theorem get?_of_bracket {α : Type} {table : Table Text α}
    (htable : table.keys.all (!·.contains '[') = true) {key : Text} (hkey : '[' ∈ key) :
    table.get? key = none := by
  apply Table.get?_of_not_mem
  intro hmem
  simpa [hkey] using List.all_eq_true.mp htable key hmem

theorem beq_of_bracket {key word : Text} (hkey : '[' ∈ key) (hword : word.contains '[' = false) :
    (key == word) = false := by
  apply beq_false_of_ne
  rintro rfl
  simp [hkey] at hword

theorem isDigits_of_bracket {key : Text} (hkey : '[' ∈ key) : Text.isDigits key = false := by
  rw [Bool.eq_false_iff]
  intro hdigits
  exact not_mem_of_isDigits hdigits isDigit_bracket hkey

theorem fraction_of_bracket {key : Text} (hkey : '[' ∈ key) : Css.fraction key = .ok none := by
  have hbare : '[' ∈ (Text.beforeTail? ['\n'] key).getD key := by
    cases hline : Text.beforeTail? ['\n'] key with
    | none => exact hkey
    | some front =>
        rw [Text.beforeTail?, List.isSuffixOf?_eq_some_iff_append_eq] at hline
        simpa [← hline] using hkey
  have hparts : Css.fractionParts? key = none := by
    rw [Option.eq_none_iff_forall_ne_some]
    rintro ⟨num, den⟩ hfraction
    have hfraction : IsFraction _ num den := isFraction_of_fraction? hfraction
    rw [hfraction.eq] at hbare
    have hmem : '[' ∈ num ++ den := by simpa using hbare
    have hdecimal := hfraction.decimal '[' hmem
    cases hdecimal
  rw [Css.fraction, hparts]
  rfl

theorem eq_of_cutLast? {c : Char} {t before after : Text}
    (hcut : Text.cutLast? c t = some (before, after)) : t = before ++ c :: after := by
  induction t generalizing before with
  | nil => cases hcut
  | cons d rest ih =>
      rw [Text.cutLast?] at hcut
      split at hcut
      · rename_i front back hrest
        obtain ⟨rfl, rfl⟩ := Prod.mk.inj (Option.some.inj hcut)
        rw [ih hrest, List.cons_append]
      · split at hcut
        · rename_i hd
          obtain ⟨rfl, rfl⟩ := Prod.mk.inj (Option.some.inj hcut)
          rw [hd, List.nil_append]
        · cases hcut

/-- A bracket stays in one of the parts of a key. -/
theorem mem_cutLast? {key : Text} (hkey : '[' ∈ key) :
    '[' ∈ ((Text.cutLast? '-' key).getD ([], key)).1 ∨
      '[' ∈ ((Text.cutLast? '-' key).getD ([], key)).2 := by
  cases hcut : Text.cutLast? '-' key with
  | none => exact .inr hkey
  | some parts =>
      rw [eq_of_cutLast? hcut] at hkey
      simpa using hkey

namespace Theme

variable {theme : Theme} (htheme : theme.lacksBrackets = true)

include htheme

theorem entries_of_lacksBrackets {scale : Text} {values : Value} {entries : Theme}
    (hvalues : theme.get? scale = some values) (hentries : values.table? = some entries) :
    entries.keys.all (!·.contains '[') = true ∧ ∀ {name value shades},
      entries.get? name = some value → value.table? = some shades →
        shades.keys.all (!·.contains '[') = true := by
  have hscale := List.all_eq_true.mp htheme _ (Table.mem_of_get? hvalues)
  simp only [hentries, Option.all_some, List.all_eq_true, Bool.and_eq_true] at hscale
  constructor
  · rw [List.all_eq_true]
    intro name hname
    obtain ⟨entry, hentry, rfl⟩ := List.mem_map.mp hname
    exact (hscale entry hentry).1
  · intro name value shades hvalue hshades
    have hentry := (hscale _ (Table.mem_of_get? hvalue)).2
    simpa [hshades] using hentry

variable {key : Text} (hkey : '[' ∈ key)

include hkey

theorem lookup?_of_bracket (scale : Text) : theme.lookup? scale key = none := by
  rw [lookup?, Option.eq_none_iff_forall_ne_some]
  intro value hvalue
  obtain ⟨values, hvalues, hvalue⟩ := Option.bind_eq_some_iff.mp hvalue
  obtain ⟨entries, hentries, hvalue⟩ := Option.bind_eq_some_iff.mp hvalue
  rw [get?_of_bracket (entries_of_lacksBrackets htheme hvalues hentries).1 hkey] at hvalue
  cases hvalue

theorem text?_of_bracket (scale : Text) : theme.text? scale key = none := by
  rw [text?, lookup?_of_bracket htheme hkey]
  rfl

end Theme

/-! ## Values -/

theorem bracketed?_of_not {key : Text} (hkey : Payload.isBracketed key = false)
    (hints : List (Option Text)) : Css.bracketed? key hints = none := by
  rw [Css.bracketed?, hkey]
  rfl

namespace Theme

variable {theme : Theme} (htheme : theme.lacksBrackets = true) {key : Text} (hkey : '[' ∈ key)

include htheme hkey

theorem isSome_length? : (theme.length? key).isSome = BracketUse.length.accepts key := by
  rw [length?, BracketUse.accepts]
  cases hshape : Payload.isBracketed key with
  | false => simp [text?_of_bracket htheme hkey, bracketed?_of_not hshape]
  | true => simp [Option.orElse_eq_or, Option.isSome_or, Option.isSome_filter]

theorem isSome_plain? (scale : Text) :
    (theme.plain? scale key).isSome = BracketUse.any.accepts key := by
  rw [plain?, BracketUse.accepts]
  cases hshape : Payload.isBracketed key with
  | false => simp [text?_of_bracket htheme hkey, bracketed?_of_not hshape]
  | true => rfl

theorem isSome_color? : (theme.color? key).isSome = BracketUse.color.accepts key := by
  rw [color?, BracketUse.accepts]
  cases hshape : Payload.isBracketed key with
  | true => simp [Option.orElse_eq_or, Option.isSome_or, Option.isSome_filter]
  | false =>
      simp only [bracketed?_of_not hshape, Option.isSome_none, Option.any_none, Bool.or_false]
      rw [if_neg Bool.false_ne_true, Option.isSome_eq_false_iff, Option.isNone_iff_eq_none,
        Option.eq_none_iff_forall_ne_some]
      intro value hvalue
      obtain ⟨values, hvalues, hvalue⟩ := Option.bind_eq_some_iff.mp hvalue
      obtain ⟨colors, hcolors, hvalue⟩ := Option.bind_eq_some_iff.mp hvalue
      obtain ⟨hnames, hshades⟩ := entries_of_lacksBrackets htheme hvalues hcolors
      rw [get?_of_bracket hnames hkey] at hvalue
      obtain ⟨palette, hpalette, hvalue⟩ := Option.bind_eq_some_iff.mp hvalue
      obtain ⟨shades, hshaded, hvalue⟩ := Option.bind_eq_some_iff.mp hvalue
      obtain ⟨shade, hshade, -⟩ := Option.bind_eq_some_iff.mp hvalue
      -- The bracket is in the name of the palette or in that of the shade.
      rcases mem_cutLast? hkey with hname | hname
      · rw [get?_of_bracket hnames hname] at hpalette
        cases hpalette
      · rw [get?_of_bracket (hshades hpalette hshaded) hname] at hshade
        cases hshade

end Theme

/-- What is found for a key with a bracket is something exactly if the key is taken. -/
def FindsBracket (use : BracketUse) (find : Text → Theme → Except Error (Option Text)) : Prop :=
  ∀ {key theme}, theme.lacksBrackets = true → '[' ∈ key →
    ∃ value, find key theme = .ok value ∧ value.isSome = use.accepts key

namespace Catalog

theorem findsBracket_plain? (scale : Text) :
    FindsBracket .any fun key theme => .ok (theme.plain? scale key) :=
  fun htheme hkey => ⟨_, rfl, Theme.isSome_plain? htheme hkey scale⟩

theorem findsBracket_orderValue? : FindsBracket .any fun key _ => .ok (orderValue? key) := by
  intro key theme _ hkey
  have hnames : namedOrders.get? key = none := get?_of_bracket rfl hkey
  refine ⟨_, rfl, ?_⟩
  rw [orderValue?, hnames, isDigits_of_bracket hkey]
  rfl

theorem findsBracket_opacityValue : FindsBracket .any opacityValue := by
  intro key theme _ hkey
  rw [opacityValue, isDigits_of_bracket hkey]
  cases hshape : Payload.isBracketed key with
  | true => exact ⟨_, rfl, rfl⟩
  | false => exact ⟨none, rfl, by rw [BracketUse.accepts, bracketed?_of_not hshape]⟩

theorem findsBracket_durationValue? :
    FindsBracket .any fun key theme => .ok (durationValue? key theme) := by
  intro key theme htheme hkey
  refine ⟨_, rfl, ?_⟩
  rw [durationValue?, isDigits_of_bracket hkey, ← Theme.isSome_plain? htheme hkey]
  cases theme.plain? "transitionDuration" key <;> rfl

theorem findsBracket_delayValue? : FindsBracket .any fun key _ => .ok (delayValue? key) := by
  intro key theme _ hkey
  refine ⟨_, rfl, ?_⟩
  rw [delayValue?, isDigits_of_bracket hkey]
  rfl

theorem isSome_angle? {key : Text} (hkey : '[' ∈ key) :
    (angle? key).isSome = BracketUse.any.accepts key := by
  rw [angle?, isDigits_of_bracket hkey]
  cases hshape : Payload.isBracketed key with
  | true => rfl
  | false => rw [BracketUse.accepts, bracketed?_of_not hshape]; rfl

theorem exists_factor {key : Text} (hkey : '[' ∈ key) :
    ∃ value, factor key = .ok value ∧ value.isSome = BracketUse.any.accepts key := by
  rw [factor, isDigits_of_bracket hkey]
  cases hshape : Payload.isBracketed key with
  | true => exact ⟨_, rfl, rfl⟩
  | false => exact ⟨none, rfl, by rw [BracketUse.accepts, bracketed?_of_not hshape]⟩

theorem findsBracket_distance : FindsBracket .length distance := by
  intro key theme htheme hkey
  rw [distance, beq_of_bracket hkey rfl, fraction_of_bracket hkey]
  exact ⟨_, rfl, Theme.isSome_length? htheme hkey⟩

theorem findsBracket_insetValue : FindsBracket .length insetValue := by
  intro key theme htheme hkey
  rw [insetValue_eq, beq_of_bracket hkey rfl]
  exact findsBracket_distance htheme hkey

theorem viewport?_of_bracket (kind : Text) {key : Text} (hkey : '[' ∈ key) :
    viewport? kind key = none := by
  have hunits : ∀ horizontal : Bool, ∀ unit ∈ (if horizontal then ["svw", "lvw", "dvw"]
      else ["svh", "lvh", "dvh"] : List Text), '[' ∉ unit := by
    rintro (_ | _) unit hunit <;> simp at hunit <;> rcases hunit with rfl | rfl | rfl <;> simp
  rw [viewport?, beq_of_bracket hkey rfl]
  dsimp only
  rw [if_neg Bool.false_ne_true, if_neg]
  rw [List.contains_iff_mem]
  intro hunit
  exact hunits _ key hunit hkey

theorem findsBracket_sizeValue (kind : Text) : FindsBracket .length (sizeValue kind) := by
  intro key theme htheme hkey
  have hkeywords : sizeKeywords.get? key = none := get?_of_bracket rfl hkey
  rw [sizeValue_eq, hkeywords, viewport?_of_bracket kind hkey, fraction_of_bracket hkey,
    Theme.text?_of_bracket htheme hkey]
  refine ⟨theme.length? key, ?_, Theme.isSome_length? htheme hkey⟩
  simp

theorem isSome_scaled? {theme : Theme} (htheme : theme.lacksBrackets = true) {key : Text}
    (hkey : '[' ∈ key) (scale : Text) :
    (scaled? theme scale (some key)).isSome = BracketUse.length.accepts key := by
  rw [← Theme.isSome_length? htheme hkey, scaled?, Theme.length?, Theme.text?_of_bracket htheme hkey,
    Theme.text?_of_bracket htheme hkey]
  cases Payload.isBracketed key <;> rfl

theorem isSome_ringWidth? {theme : Theme} (htheme : theme.lacksBrackets = true) {key : Text}
    (hkey : '[' ∈ key) : (ringWidth? theme (some key)).isSome = BracketUse.length.accepts key := by
  rw [← Theme.isSome_length? htheme hkey, ringWidth?, Theme.length?, isDigits_of_bracket hkey,
    Theme.text?_of_bracket htheme hkey]
  cases Payload.isBracketed key <;> rfl

end Catalog

/-! ## Computations -/

/-- Given a key with a bracket, the computation has a result exactly if the key is taken. -/
def Compute.TakesBracket (compute : Compute) (texts names : List Text) (use : BracketUse) :
    Prop :=
  ∀ {found theme key}, found.Provides texts names → found.named "value" = .ok (some key) →
    theme.lacksBrackets = true → '[' ∈ key →
    ∃ properties, compute found theme = .ok properties ∧ properties.isSome = use.accepts key

namespace Catalog

theorem takesBracket_fromValue (properties : List Text) {use : BracketUse}
    {find : Text → Theme → Except Error (Option Text)} (hfind : FindsBracket use find) :
    (fromValue properties find).TakesBracket [] [] use := by
  intro found theme key _ hkey htheme hbracket
  obtain ⟨value, hvalue, htaken⟩ := hfind htheme hbracket
  rw [fromValue, Match.text_of_named hkey, ok_bind, hvalue]
  exact ⟨_, rfl, by rw [Option.isSome_map, htaken]⟩

theorem takesBracket_inset : inset.TakesBracket ["side"] [] .length := by
  intro found theme key hfound hkey htheme hbracket
  obtain ⟨side, hside⟩ := hfound.text "side" (by simp)
  obtain ⟨value, hvalue, htaken⟩ := findsBracket_insetValue htheme hbracket
  rw [inset, Match.text_of_named hkey, ok_bind, hvalue, hside, ← htaken]
  cases value <;> exact ⟨_, rfl, rfl⟩

theorem takesBracket_gap : gap.TakesBracket [] ["axis"] .length := by
  intro found theme key hfound hkey htheme hbracket
  obtain ⟨axis, haxis⟩ := hfound.named "axis" (by simp)
  rw [gap, Match.text_of_named hkey, ok_bind, haxis, ← Theme.isSome_length? htheme hbracket]
  cases theme.length? key <;> exact ⟨_, rfl, rfl⟩

theorem isPositive_of_bracket {key : Text} (hkey : '[' ∈ key) : isPositive key = .ok false := by
  rw [isPositive, isDigits_of_bracket hkey]
  rfl

theorem takesBracket_gridTemplate : gridTemplate.TakesBracket [] ["kind"] .any := by
  intro found theme key hfound hkey _ hbracket
  obtain ⟨kind, hkind⟩ := hfound.named "kind" (by simp)
  rw [gridTemplate, hkind, ok_bind, Match.text_of_named hkey, ok_bind,
    isPositive_of_bracket hbracket, ok_bind, beq_of_bracket hbracket rfl]
  exact ⟨_, rfl, by rw [Option.isSome_map]; rfl⟩

theorem takesBracket_gridSpan : gridSpan.TakesBracket [] ["kind"] .nothing := by
  intro found theme key hfound hkey _ hbracket
  obtain ⟨kind, hkind⟩ := hfound.named "kind" (by simp)
  rw [gridSpan, hkind, ok_bind, Match.text_of_named hkey, ok_bind,
    isPositive_of_bracket hbracket, ok_bind, beq_of_bracket hbracket rfl]
  exact ⟨none, rfl, rfl⟩

theorem takesBracket_boxProperty (property : Text) (allowAuto : Bool) :
    (boxProperty property allowAuto).TakesBracket ["side"] [] .length := by
  intro found theme key hfound hkey htheme hbracket
  obtain ⟨side, hside⟩ := hfound.text "side" (by simp)
  rw [boxProperty, Match.text_of_named hkey, ok_bind, hside,
    beq_of_bracket hbracket rfl, Bool.and_false,
    ← Theme.isSome_length? htheme hbracket]
  cases hlength : theme.length? key <;> exact ⟨_, rfl, rfl⟩

theorem takesBracket_spaceBetween : spaceBetween.TakesBracket [] ["axis"] .length := by
  intro found theme key hfound hkey htheme hbracket
  obtain ⟨axis, haxis⟩ := hfound.named "axis" (by simp)
  rw [spaceBetween, Match.text_of_named hkey, ok_bind, haxis,
    ← Theme.isSome_length? htheme hbracket]
  cases theme.length? key <;> exact ⟨_, rfl, rfl⟩

theorem takesBracket_size : size.TakesBracket ["kind"] [] .length := by
  intro found theme key hfound hkey htheme hbracket
  obtain ⟨kind, hkind⟩ := hfound.text "kind" (by simp)
  obtain ⟨value, hvalue, htaken⟩ := findsBracket_sizeValue kind htheme hbracket
  rw [size, hkind, ok_bind, Match.text_of_named hkey, ok_bind, hvalue]
  exact ⟨_, rfl, by rw [Option.isSome_map, htaken]⟩

theorem takesBracket_color : color.TakesBracket ["kind"] [] .color := by
  intro found theme key hfound hkey htheme hbracket
  obtain ⟨kind, hkind⟩ := hfound.text "kind" (by simp)
  rw [color, Match.text_of_named hkey, ok_bind, hkind, ← Theme.isSome_color? htheme hbracket]
  cases theme.color? key <;> exact ⟨_, rfl, rfl⟩

theorem takesBracket_nestedColor (template property : Text) :
    (nestedColor template property).TakesBracket [] [] .color := by
  intro found theme key _ hkey htheme hbracket
  rw [nestedColor, Match.text_of_named hkey, ← Theme.isSome_color? htheme hbracket]
  exact ⟨_, rfl, Option.isSome_map⟩

theorem takesBracket_fontSize : fontSize.TakesBracket [] [] .fontSize := by
  intro found theme key _ hkey htheme hbracket
  rw [fontSize, Match.text_of_named hkey, ok_bind, Theme.lookup?_of_bracket htheme hbracket]
  cases hshape : Payload.isBracketed key with
  | true =>
      refine ⟨_, rfl, ?_⟩
      rw [Option.isSome_map, Option.isSome_filter, Option.orElse_eq_or]
      rfl
  | false => exact ⟨none, rfl, by simp [BracketUse.accepts, bracketed?_of_not hshape]⟩

theorem takesBracket_font : font.TakesBracket [] [] .any := by
  intro found theme key _ hkey htheme hbracket
  rw [font, Match.text_of_named hkey, ok_bind, Theme.text?_of_bracket htheme hbracket,
    Theme.text?_of_bracket htheme hbracket]
  cases hshape : Payload.isBracketed key with
  | true => exact ⟨_, rfl, Option.isSome_map⟩
  | false => exact ⟨none, rfl, by simp [BracketUse.accepts, bracketed?_of_not hshape]⟩

theorem takesBracket_scaledSides (scale group : Text) (properties : Table Text (List Text)) :
    (scaledSides scale group properties).TakesBracket [] [group] .length := by
  intro found theme key hfound hkey htheme hbracket
  obtain ⟨side, hside⟩ := hfound.named group (by simp)
  rw [scaledSides, hkey, ok_bind, hside, ← isSome_scaled? htheme hbracket scale]
  cases scaled? theme scale (some key) <;> exact ⟨_, rfl, rfl⟩

theorem takesBracket_divideWidth : divideWidth.TakesBracket [] ["axis"] .length := by
  intro found theme key hfound hkey htheme hbracket
  obtain ⟨axis, haxis⟩ := hfound.named "axis" (by simp)
  rw [divideWidth, hkey, ok_bind, haxis, ← isSome_scaled? htheme hbracket "borderWidth"]
  cases scaled? theme "borderWidth" (some key) <;> exact ⟨_, rfl, rfl⟩

theorem takesBracket_ring : ring.TakesBracket [] [] .length := by
  intro found theme key _ hkey htheme hbracket
  rw [ring, hkey, ok_bind, ← isSome_ringWidth? htheme hbracket]
  exact ⟨_, rfl, Option.isSome_map⟩

theorem takesBracket_shadow : shadow.TakesBracket [] [] .any := by
  intro found theme key _ hkey htheme hbracket
  have hne : key ≠ [] := List.ne_nil_of_mem hbracket
  rw [shadow, hkey, ok_bind, Option.filter_some, if_pos (by simpa using hne), Option.getD_some,
    ← Theme.isSome_plain? htheme hbracket "boxShadow"]
  exact ⟨_, rfl, Option.isSome_map⟩

theorem takesBracket_translate : translate.TakesBracket [] ["axis"] .length := by
  intro found theme key hfound hkey htheme hbracket
  obtain ⟨axis, haxis⟩ := hfound.named "axis" (by simp)
  obtain ⟨value, hvalue, htaken⟩ := findsBracket_distance htheme hbracket
  rw [translate, Match.text_of_named hkey, ok_bind, hvalue, haxis, ← htaken]
  cases value <;> exact ⟨_, rfl, rfl⟩

theorem takesBracket_rotate : rotate.TakesBracket [] [] .any := by
  intro found theme key _ hkey _ hbracket
  rw [rotate, Match.text_of_named hkey, ok_bind, ← isSome_angle? hbracket]
  exact ⟨_, rfl, Option.isSome_map⟩

theorem takesBracket_skew : skew.TakesBracket ["axis"] [] .any := by
  intro found theme key hfound hkey _ hbracket
  obtain ⟨axis, haxis⟩ := hfound.text "axis" (by simp)
  rw [skew, Match.text_of_named hkey, ok_bind, haxis, ← isSome_angle? hbracket]
  cases angle? key <;> exact ⟨_, rfl, rfl⟩

theorem takesBracket_resize : resize.TakesBracket [] ["axis"] .any := by
  intro found theme key hfound hkey _ hbracket
  obtain ⟨axis, haxis⟩ := hfound.named "axis" (by simp)
  obtain ⟨value, hvalue, htaken⟩ := exists_factor hbracket
  rw [resize, Match.text_of_named hkey, ok_bind, hvalue, haxis, ← htaken]
  cases value <;> exact ⟨_, rfl, rfl⟩

end Catalog

end UtilityCss
