import UtilityCss.Proofs.BracketComputations
import UtilityCss.Proofs.CatalogRules

/-!
# Rules that take brackets

A text with an opening bracket is resolved by the catalogue exactly if it is the lead of a utility
and a key that the utility takes. Fixed rules are for texts without brackets; the pattern of a
computed rule either has no place for a bracket, or leaves everything from the bracket on to its
value, or is that of a declaration.
-/

namespace UtilityCss

namespace Catalog

/-- Whether a text is one of some leads and a key that is taken behind it. -/
def takesBehind (leads : List (BracketUse × Text)) (t : Text) : Bool :=
  leads.any fun (use, lead) => (Text.afterLead? lead t).any use.accepts

theorem takesBehind_append (early late : List (BracketUse × Text)) (t : Text) :
    takesBehind (early ++ late) t = (takesBehind early t || takesBehind late t) :=
  List.any_append

theorem exists_lead_of_takesBehind {leads : List (BracketUse × Text)} {t : Text}
    (ht : takesBehind leads t = true) :
    ∃ use lead key, (use, lead) ∈ leads ∧ t = lead ++ key ∧ use.accepts key = true := by
  obtain ⟨⟨use, lead⟩, hmem, hlead⟩ := List.any_eq_true.mp ht
  obtain ⟨key, hkey, haccepts⟩ := (Option.any_eq_true _ _).mp hlead
  rw [Text.afterLead?, List.isPrefixOf?_eq_some_iff_append_eq] at hkey
  exact ⟨use, lead, key, hmem, hkey.symm, haccepts⟩

theorem takesBehind_of_accepts {leads : List (BracketUse × Text)} {use : BracketUse}
    {lead key : Text} (hmem : (use, lead) ∈ leads) (haccepts : use.accepts key = true) :
    takesBehind leads (lead ++ key) = true := by
  have hafter : Text.afterLead? lead (lead ++ key) = some key := by
    rw [Text.afterLead?, List.isPrefixOf?_eq_some_iff_append_eq]
  exact List.any_eq_true.mpr ⟨(use, lead), hmem, by simpa [hafter] using haccepts⟩

end Catalog

/-! ## One rule -/

/-- What becomes of brackets in the pattern of a computed rule: they have no place in it, they
belong to a value behind a lead, or they enclose a declaration. -/
inductive BracketNeed where
  | apart
  | value (texts names : List Text) (use : BracketUse) (leads : List Text)
  | declaration

namespace BracketNeed

open Catalog

def own : BracketNeed → List (BracketUse × Text)
  | .apart => []
  | .value _ _ use leads => leads.map (use, ·)
  | .declaration => [(.declaration, [])]

/-- What the rule computes is as needed. -/
def Serves : BracketNeed → Rule → Prop
  | .apart, _ => True
  | .value texts names use _, rule =>
      ∃ compute, rule.body = .computed compute ∧ compute.TakesBracket texts names use
  | .declaration, rule =>
      rule.pattern? = some declarationPattern ∧ rule.body = .computed verbatim

/-- The pattern of the rule is as needed. -/
def isMetBy : BracketNeed → Rule → Bool
  | .apart, rule => rule.pattern?.any fun pattern => !pattern.foldCase && pattern.root.shuns '['
  | .value texts names _ leads, rule => rule.pattern?.any fun pattern =>
      texts.all pattern.offers && names.all pattern.knows &&
        (pattern.value? "value").any fun (front, body) =>
          front.shuns '[' && body.takesBrackets && front.words?.any (·.all leads.contains) &&
            leads.all fun lead => front.leaves (lead ++ ['[']) = some ['[']
  | .declaration, _ => true

variable {theme : Theme} {rule : Rule} {t : Text}

theorem answer_of_apart (hmet : BracketNeed.apart.isMetBy rule = true) (ht : '[' ∈ t) :
    rule.answer theme t = .ok none := by
  obtain ⟨pattern, hpattern, hshape⟩ := (Option.any_eq_true _ _).mp hmet
  rw [Bool.and_eq_true, Bool.not_eq_true'] at hshape
  cases hmatch : pattern.matchWhole t with
  | none => exact Rule.answer_of_no_match hpattern hmatch
  | some found => exact absurd ht (Pattern.not_mem_of_shuns hshape.1 hshape.2 hmatch)

/-- The pattern matches a text with a bracket as one of some leads and the value behind it, and
every such lead with an enclosed value. -/
structure Splits (pattern : Pattern) (texts names leads : List Text) : Prop where
  provides : ∀ {t found}, pattern.matchWhole t = some found → found.Provides texts names
  parts : ∀ {t found}, pattern.matchWhole t = some found → '[' ∈ t →
    ∃ lead ∈ leads, ∃ key, t = lead ++ key ∧ '[' ∈ key ∧ found.named "value" = .ok (some key)
  joins : ∀ {lead}, lead ∈ leads → ∀ {inner}, inner ≠ [] → '\n' ∉ inner →
    ∃ found, pattern.matchWhole (lead ++ '[' :: (inner ++ [']'])) = some found ∧
      found.named "value" = .ok (some ('[' :: (inner ++ [']'])))

theorem exists_pattern_of_isMetBy {texts names leads : List Text} {use : BracketUse}
    (hmet : (BracketNeed.value texts names use leads).isMetBy rule = true) :
    ∃ pattern, rule.pattern? = some pattern ∧ Splits pattern texts names leads := by
  obtain ⟨pattern, hpattern, hshape⟩ := (Option.any_eq_true _ _).mp hmet
  rw [Bool.and_eq_true, Bool.and_eq_true, List.all_eq_true, List.all_eq_true] at hshape
  obtain ⟨⟨htexts, hnames⟩, hshape⟩ := hshape
  obtain ⟨⟨front, body⟩, hvalue, hshape⟩ := (Option.any_eq_true _ _).mp hshape
  simp only [Bool.and_eq_true, Option.any_eq_true, List.all_eq_true, List.contains_iff_mem,
    decide_eq_true_eq] at hshape
  obtain ⟨⟨⟨hshuns, hbrackets⟩, words, hwords, hleads⟩, hleaves⟩ := hshape
  refine ⟨pattern, hpattern, ⟨?_, ?_, ?_⟩⟩
  · intro t found hmatch
    exact Pattern.provides_of_matchWhole hmatch htexts hnames
  · intro t found hmatch ht
    obtain ⟨lead, hlead, hparts⟩ := Pattern.named_of_value? hvalue hshuns hwords hmatch ht
    exact ⟨lead, hleads lead hlead, hparts⟩
  · intro lead hlead inner hne hline
    exact Pattern.exists_match_of_value? hvalue hbrackets (hleaves lead hlead) hne hline

theorem exists_answer_of_value {texts names leads : List Text} {use : BracketUse}
    (hserves : (BracketNeed.value texts names use leads).Serves rule)
    (hmet : (BracketNeed.value texts names use leads).isMetBy rule = true)
    (htheme : theme.lacksBrackets = true) (ht : '[' ∈ t) :
    ∃ properties, rule.answer theme t = .ok properties ∧
      properties.isSome = takesBehind (leads.map (use, ·)) t := by
  obtain ⟨compute, hbody, hcompute⟩ := hserves
  obtain ⟨pattern, hpattern, hsplits⟩ := exists_pattern_of_isMetBy hmet
  -- A key that is taken is enclosed, so the pattern matches its lead and the key.
  have hjoins (htaken : takesBehind (leads.map (use, ·)) t = true) :
      ∃ found key, pattern.matchWhole t = some found ∧ found.named "value" = .ok (some key) ∧
        use.accepts key = true := by
    obtain ⟨other, lead, key, hmem, rfl, haccepts⟩ := exists_lead_of_takesBehind htaken
    obtain ⟨lead, hlead, heq⟩ := List.mem_map.mp hmem
    obtain ⟨rfl, rfl⟩ := Prod.mk.inj heq
    obtain ⟨inner, rfl, hline, c, hc, -⟩ := BracketUse.isEnclosed haccepts
    obtain ⟨found, hmatch, hnamed⟩ := hsplits.joins hlead (List.ne_nil_of_mem hc) hline
    exact ⟨found, _, hmatch, hnamed, haccepts⟩
  cases hmatch : pattern.matchWhole t with
  | none =>
      refine ⟨none, Rule.answer_of_no_match hpattern hmatch, ?_⟩
      rw [Option.isSome_none, eq_comm, Bool.eq_false_iff]
      intro htaken
      obtain ⟨found, -, hfound, -⟩ := hjoins htaken
      rw [hmatch] at hfound
      cases hfound
  | some found =>
      obtain ⟨lead, hlead, key, rfl, hbracket, hnamed⟩ := hsplits.parts hmatch ht
      obtain ⟨properties, hproperties, htaken⟩ :=
        hcompute (hsplits.provides hmatch) hnamed htheme hbracket
      refine ⟨properties, ?_, ?_⟩
      · rw [Rule.answer_of_computed hpattern hbody hmatch, hproperties]
      · rw [htaken, Bool.eq_iff_iff]
        constructor
        · exact takesBehind_of_accepts (List.mem_map_of_mem hlead)
        · intro hbehind
          obtain ⟨other, key', hother, hsame, haccepts⟩ := hjoins hbehind
          obtain rfl := Option.some.inj (hmatch.symm.trans hother)
          rw [hnamed] at hsame
          obtain rfl := Option.some.inj (Except.ok.inj hsame)
          exact haccepts

theorem exists_answer_of_declaration (hserves : BracketNeed.declaration.Serves rule) :
    ∃ properties, rule.answer theme t = .ok properties ∧
      properties.isSome = takesBehind [(.declaration, [])] t := by
  obtain ⟨hpattern, hbody⟩ := hserves
  have hbehind : takesBehind [(.declaration, [])] t = BracketUse.declaration.accepts t := by
    have hafter : Text.afterLead? [] t = some t := rfl
    simp [takesBehind, hafter]
  rw [hbehind, BracketUse.accepts]
  cases hmatch : declarationPattern.matchWhole t with
  | none =>
      refine ⟨none, Rule.answer_of_no_match hpattern hmatch, ?_⟩
      cases hdeclaration : Payload.declaration? t with
      | none => rfl
      | some parts =>
          obtain ⟨found, hfound⟩ := exists_match_of_declaration? hdeclaration
          rw [hmatch] at hfound
          cases hfound
  | some found =>
      obtain ⟨property, value, hdeclaration, hproperty, hvalue⟩ := declaration?_of_match hmatch
      rw [Rule.answer_of_computed hpattern hbody hmatch, verbatim, hvalue, ok_bind, hproperty,
        hdeclaration, Option.any_some]
      by_cases hblank : Text.trim (Payload.normalize value) = []
      · exact ⟨none, by rw [if_pos hblank]; rfl, by simp [hblank]⟩
      · exact ⟨_, by rw [if_neg hblank]; rfl, by simp [hblank]⟩

/-- A text with a bracket is resolved by a rule exactly if the rule takes it. -/
theorem exists_answer {need : BracketNeed} (hserves : need.Serves rule)
    (hmet : need.isMetBy rule = true) (htheme : theme.lacksBrackets = true) (ht : '[' ∈ t) :
    ∃ properties, rule.answer theme t = .ok properties ∧
      properties.isSome = takesBehind need.own t := by
  cases need with
  | apart => exact ⟨none, answer_of_apart hmet ht, rfl⟩
  | value texts names use leads => exact exists_answer_of_value hserves hmet htheme ht
  | declaration => exact exists_answer_of_declaration hserves

/-! ## Lists of rules -/

/-- The first answer of some rules to a text with a bracket. -/
theorem exists_firstAnswer {needs : List BracketNeed} {rules : List Rule}
    (hserves : List.Forall₂ Serves needs rules)
    (hmet : (needs.zip rules).all (fun (need, rule) => need.isMetBy rule) = true)
    (htheme : theme.lacksBrackets = true) (ht : '[' ∈ t) :
    ∃ found, firstAnswer (Rule.answer theme t) rules = .ok found ∧
      found.isSome = takesBehind (needs.flatMap own) t := by
  induction hserves with
  | nil => exact ⟨none, rfl, rfl⟩
  | @cons need rule needs rules hserves _ ih =>
      rw [List.zip_cons_cons, List.all_cons, Bool.and_eq_true] at hmet
      obtain ⟨properties, hproperties, htaken⟩ := exists_answer hserves hmet.1 htheme ht
      rw [firstAnswer, hproperties, ok_bind, List.flatMap_cons, takesBehind_append, ← htaken]
      cases properties with
      | some properties => exact ⟨_, rfl, rfl⟩
      | none => exact ih hmet.2

end BracketNeed

/-! ## The catalogue -/

namespace Catalog

/-- One use of brackets behind each of some leads. -/
def bracketed (use : BracketUse) (leads : List Text) : List (BracketUse × Text) :=
  leads.map (use, ·)

/-- The leads of a property of the sides of a box. -/
def boxLeads (property : Text) : List Text := boxSides.keys.map (property ++ · ++ ['-'])

def colorLeads : List Text := colorProperties.keys.map (· ++ ['-'])

def borderLeads : List Text :=
  ["border-", "border-x-", "border-y-", "border-t-", "border-r-", "border-b-", "border-l-"]

def cornerLeads : List Text :=
  ["rounded-", "rounded-t-", "rounded-r-", "rounded-b-", "rounded-l-", "rounded-tl-",
    "rounded-tr-", "rounded-br-", "rounded-bl-"]

/-- What the utilities take in brackets, in the order of their rules. -/
def bracketLeads : List (BracketUse × Text) :=
  bracketed .length insetLeads ++ bracketed .any ["z-", "order-"] ++
    bracketed .length ["gap-", "gap-x-", "gap-y-"] ++ bracketed .any ["grid-cols-", "grid-rows-"] ++
    bracketed .nothing ["col-span-", "row-span-"] ++ bracketed .length (boxLeads "p") ++
    bracketed .length (boxLeads "m") ++ bracketed .length ["space-x-", "space-y-"] ++
    bracketed .length sizeLeads ++ bracketed .color colorLeads ++
    bracketed .color ["placeholder-", "divide-"] ++ bracketed .fontSize ["text-"] ++
    bracketed .any ["font-", "leading-", "tracking-"] ++ bracketed .length borderLeads ++
    bracketed .length cornerLeads ++ bracketed .length ["divide-x-", "divide-y-", "ring-"] ++
    bracketed .any ["opacity-", "shadow-", "duration-", "ease-", "delay-"] ++
    bracketed .length ["translate-", "translate-x-", "translate-y-"] ++
    bracketed .any ["rotate-", "skew-x-", "skew-y-", "scale-", "scale-x-", "scale-y-"] ++
    bracketed .declaration [[]]

/-- Whether a text is the lead of a utility and a key that the utility takes in brackets. -/
def takesBrackets (t : Text) : Bool := takesBehind bracketLeads t

open BracketNeed

/-- A rule that needs a value only. -/
def plainNeed (use : BracketUse) (lead : Text) : BracketNeed := .value [] [] use [lead]

def layoutBrackets : List BracketNeed :=
  [.apart, .value ["side"] [] .length insetLeads, plainNeed .any "z-", plainNeed .any "order-",
    .apart, .apart, .apart, .apart, .value [] ["axis"] .length ["gap-", "gap-x-", "gap-y-"],
    .value [] ["kind"] .any ["grid-cols-", "grid-rows-"],
    .value [] ["kind"] .nothing ["col-span-", "row-span-"]]

def spacingBrackets : List BracketNeed :=
  [.value ["side"] [] .length (boxLeads "p"), .value ["side"] [] .length (boxLeads "m"),
    .value [] ["axis"] .length ["space-x-", "space-y-"]]

def sizingBrackets : List BracketNeed := [.value ["kind"] [] .length sizeLeads]

def colorBrackets : List BracketNeed :=
  [.value ["kind"] [] .color colorLeads, plainNeed .color "placeholder-",
    plainNeed .color "divide-"]

def typographyBrackets : List BracketNeed :=
  [plainNeed .fontSize "text-", plainNeed .any "font-", plainNeed .any "leading-",
    plainNeed .any "tracking-"]

def borderBrackets : List BracketNeed :=
  [.value [] ["side"] .length borderLeads, .value [] ["corner"] .length cornerLeads,
    .value [] ["axis"] .length ["divide-x-", "divide-y-"], plainNeed .length "ring-"]

def effectBrackets : List BracketNeed :=
  [plainNeed .any "opacity-", plainNeed .any "shadow-", plainNeed .any "duration-",
    plainNeed .any "ease-", plainNeed .any "delay-"]

def transformBrackets : List BracketNeed :=
  [.value [] ["axis"] .length ["translate-", "translate-x-", "translate-y-"],
    plainNeed .any "rotate-", .value ["axis"] [] .any ["skew-x-", "skew-y-"],
    .value [] ["axis"] .any ["scale-", "scale-x-", "scale-y-"]]

/-- The rules of the plug-in that compute serve some needs, in order. -/
def Serve (needs : List BracketNeed) (plugin : Plugin) : Prop :=
  List.Forall₂ Serves needs (plugin.rules.filter Rule.isComputed)

theorem serve_layout : Serve layoutBrackets layout := by
  rw [Serve, layout, rules_rulesPlugin]
  refine .cons trivial ?_
  refine .cons ⟨_, rfl, takesBracket_inset⟩ ?_
  refine .cons ⟨_, rfl, takesBracket_fromValue _ (findsBracket_plain? _)⟩ ?_
  refine .cons ⟨_, rfl, takesBracket_fromValue _ findsBracket_orderValue?⟩ ?_
  refine .cons trivial (.cons trivial (.cons trivial (.cons trivial ?_)))
  refine .cons ⟨_, rfl, takesBracket_gap⟩ ?_
  refine .cons ⟨_, rfl, takesBracket_gridTemplate⟩ ?_
  exact .cons ⟨_, rfl, takesBracket_gridSpan⟩ .nil

theorem serve_spacing : Serve spacingBrackets spacing := by
  rw [Serve, spacing, rules_rulesPlugin]
  refine .cons ⟨_, rfl, takesBracket_boxProperty _ _⟩ ?_
  refine .cons ⟨_, rfl, takesBracket_boxProperty _ _⟩ ?_
  exact .cons ⟨_, rfl, takesBracket_spaceBetween⟩ .nil

theorem serve_sizing : Serve sizingBrackets sizing := by
  rw [Serve, sizing, rules_rulesPlugin]
  exact .cons ⟨_, rfl, takesBracket_size⟩ .nil

theorem serve_colors : Serve colorBrackets colors := by
  rw [Serve, colors, rules_rulesPlugin]
  refine .cons ⟨_, rfl, takesBracket_color⟩ ?_
  refine .cons ⟨_, rfl, takesBracket_nestedColor _ _⟩ ?_
  exact .cons ⟨_, rfl, takesBracket_nestedColor _ _⟩ .nil

theorem serve_typography : Serve typographyBrackets typography := by
  rw [Serve, typography, rules_rulesPlugin]
  refine .cons ⟨_, rfl, takesBracket_fontSize⟩ ?_
  refine .cons ⟨_, rfl, takesBracket_font⟩ ?_
  refine .cons ⟨_, rfl, takesBracket_fromValue _ (findsBracket_plain? _)⟩ ?_
  exact .cons ⟨_, rfl, takesBracket_fromValue _ (findsBracket_plain? _)⟩ .nil

theorem serve_borders : Serve borderBrackets borders := by
  rw [Serve, borders, rules_rulesPlugin]
  refine .cons ⟨_, rfl, takesBracket_scaledSides _ _ _⟩ ?_
  refine .cons ⟨_, rfl, takesBracket_scaledSides _ _ _⟩ ?_
  refine .cons ⟨_, rfl, takesBracket_divideWidth⟩ ?_
  exact .cons ⟨_, rfl, takesBracket_ring⟩ .nil

theorem serve_effects : Serve effectBrackets effects := by
  rw [Serve, effects, rules_rulesPlugin]
  refine .cons ⟨_, rfl, takesBracket_fromValue _ findsBracket_opacityValue⟩ ?_
  refine .cons ⟨_, rfl, takesBracket_shadow⟩ ?_
  refine .cons ⟨_, rfl, takesBracket_fromValue _ findsBracket_durationValue?⟩ ?_
  refine .cons ⟨_, rfl, takesBracket_fromValue _ (findsBracket_plain? _)⟩ ?_
  exact .cons ⟨_, rfl, takesBracket_fromValue _ findsBracket_delayValue?⟩ .nil

theorem serve_transforms : Serve transformBrackets transforms := by
  rw [Serve, transforms, rules_rulesPlugin]
  refine .cons ⟨_, rfl, takesBracket_translate⟩ ?_
  refine .cons ⟨_, rfl, takesBracket_rotate⟩ ?_
  refine .cons ⟨_, rfl, takesBracket_skew⟩ ?_
  exact .cons ⟨_, rfl, takesBracket_resize⟩ .nil

theorem serve_arbitrary : Serve [.declaration] arbitrary := by
  rw [Serve, arbitrary, rules_rulesPlugin]
  exact .cons ⟨read?_declarationPattern, rfl⟩ .nil

def utilityBrackets : List BracketNeed :=
  layoutBrackets ++ spacingBrackets ++ sizingBrackets ++ colorBrackets ++ typographyBrackets ++
    borderBrackets ++ effectBrackets ++ transformBrackets ++ [.declaration]

theorem serve_utilities :
    List.Forall₂ Serves utilityBrackets (utilityRules.filter Rule.isComputed) := by
  have hall := List.rel_append serve_layout <| List.rel_append serve_spacing <|
    List.rel_append serve_sizing <| List.rel_append serve_colors <|
    List.rel_append serve_typography <| List.rel_append serve_borders <|
    List.rel_append serve_effects <| List.rel_append serve_transforms serve_arbitrary
  simpa [utilityBrackets, utilityRules, utilityPlugins] using hall

/-- What is decided on the patterns and the leads: the patterns are as needed, rules that compute
nothing are for texts without brackets, and a lead has neither brackets nor slashes and ends with
a dash unless it is empty. -/
theorem brackets_decided :
    (utilityBrackets.zip (utilityRules.filter Rule.isComputed)).all
        (fun (need, rule) => need.isMetBy rule) = true ∧
      utilityRules.all (fun rule => rule.isComputed || rule.literal?.any (!·.contains '[')) = true ∧
      bracketLeads.all (fun (_, lead) =>
        '[' ∉ lead && '/' ∉ lead && (lead = [] || lead.getLast? = some '-')) = true := by
  decide +kernel

/-- The needs give all that is taken. -/
theorem own_brackets : utilityBrackets.flatMap own = bracketLeads := by rfl

/-- Rules that compute nothing pass over a text with a bracket. -/
theorem answer_of_fixed {rule : Rule} (hrule : rule ∈ utilityRules)
    (hcomputed : rule.isComputed = false) {t : Text} (ht : '[' ∈ t) (theme : Theme) :
    rule.answer theme t = .ok none := by
  have hliteral := List.all_eq_true.mp brackets_decided.2.1 rule hrule
  rw [hcomputed, Bool.false_or, Option.any_eq_true] at hliteral
  obtain ⟨text, htext, hlacks⟩ := hliteral
  apply Rule.answer_of_other_text htext
  rintro rfl
  simp [ht] at hlacks

/-- A text with a bracket is resolved exactly if it is taken. -/
theorem exists_firstAnswer_utilities {theme : Theme} (htheme : theme.lacksBrackets = true)
    {t : Text} (ht : '[' ∈ t) :
    ∃ found, firstAnswer (Rule.answer theme t) utilityRules = .ok found ∧
      found.isSome = takesBrackets t := by
  have hfixed : ∀ rule ∈ utilityRules, rule.isComputed = false →
      rule.answer theme t = .ok none :=
    fun rule hrule hcomputed => answer_of_fixed hrule hcomputed ht theme
  rw [firstAnswer_filter hfixed, takesBrackets, ← own_brackets]
  exact exists_firstAnswer serve_utilities brackets_decided.1 htheme ht

end Catalog

end UtilityCss
