import Mathlib.Data.List.TakeWhile
import UtilityCss.Proofs.LiteralPatterns
import UtilityCss.Proofs.NumberFaults

/-!
# Patterns in front of brackets

A pattern that cannot read a bracket matches no text with one. In most other patterns of a
catalogue a group for the value comes last, behind a lead without brackets, and takes the rest
of the line or a text in brackets. Such a pattern matches a text with a bracket as a lead and a
value, and a lead that is preferred in front of a bracket is matched with any line behind it
that ends in a bracket, whatever stands between.
-/

namespace UtilityCss

namespace PatternNode

/-! ## Characters that are not read -/

/-- No part of the pattern reads the character. -/
def shuns (c : Char) : PatternNode → Bool
  | .oneOf set => !set.holds false c
  | .any => c == '\n'
  | .seq first second => first.shuns c && second.shuns c
  | .alt first second => first.shuns c && second.shuns c
  | .group _ body => body.shuns c
  | .repeated _ _ _ body => body.shuns c
  | _ => true

theorem exists_word_of_rounds {step : Cursor → Cursor → Prop} {test : Char → Prop}
    (hstep : ∀ {cursor next}, step cursor next →
      ∃ word, cursor.Advances word next ∧ ∀ c ∈ word, test c)
    {count : Nat} {cursor next : Cursor} (hrounds : Rounds step count cursor next) :
    ∃ word, cursor.Advances word next ∧ ∀ c ∈ word, test c := by
  induction hrounds with
  | zero cursor => exact ⟨[], .refl cursor, by simp⟩
  | succ hfirst _ ih =>
      obtain ⟨front, hfront, htest⟩ := hstep hfirst
      obtain ⟨back, hback, hlater⟩ := ih
      refine ⟨front ++ back, hfront.trans hback, ?_⟩
      intro c hc
      exact (List.mem_append.mp hc).elim (htest c) (hlater c)

/-- What a pattern reads has no character that the pattern shuns. -/
theorem exists_word {node : PatternNode} {cursor next : Cursor}
    (hreads : node.Reads false cursor next) :
    ∃ word, cursor.Advances word next ∧ ∀ c ∈ word, node.shuns c = false := by
  induction node generalizing cursor next with
  | empty =>
      obtain rfl := hreads
      exact ⟨[], .refl _, by simp⟩
  | oneOf set =>
      obtain ⟨c, hc, hadvance, -⟩ := readsChar_oneOf false set cursor next hreads
      exact ⟨[c], hadvance, by simp [shuns, hc]⟩
  | any =>
      obtain ⟨c, hc, hadvance, -⟩ := readsChar_any false cursor next hreads
      exact ⟨[c], hadvance, by simpa [shuns] using hc⟩
  | start =>
      obtain ⟨-, rfl⟩ := hreads
      exact ⟨[], .refl _, by simp⟩
  | finish =>
      obtain ⟨-, rfl⟩ := hreads
      exact ⟨[], .refl _, by simp⟩
  | seq first second ihfirst ihsecond =>
      obtain ⟨middle, hfirst, hsecond⟩ := hreads
      obtain ⟨front, hfront, hearly⟩ := ihfirst hfirst
      obtain ⟨back, hback, hlate⟩ := ihsecond hsecond
      refine ⟨front ++ back, hfront.trans hback, ?_⟩
      intro c hc
      rw [shuns, Bool.and_eq_false_iff]
      exact (List.mem_append.mp hc).imp (hearly c) (hlate c)
  | alt first second ihfirst ihsecond =>
      rcases hreads with hfirst | hsecond
      · obtain ⟨word, hword, hearly⟩ := ihfirst hfirst
        exact ⟨word, hword, fun c hc => by rw [shuns, hearly c hc, Bool.false_and]⟩
      · obtain ⟨word, hword, hlate⟩ := ihsecond hsecond
        exact ⟨word, hword, fun c hc => by rw [shuns, hlate c hc, Bool.and_false]⟩
  | group index body ih =>
      obtain ⟨inner, hinner, rfl⟩ := hreads
      obtain ⟨word, hword, htest⟩ := ih hinner
      exact ⟨word, ⟨hword.rest, hword.position⟩, htest⟩
  | ahead negated body _ =>
      cases negated with
      | true =>
          obtain rfl := hreads
          exact ⟨[], .refl _, by simp⟩
      | false =>
          obtain ⟨found, -, rfl⟩ := hreads
          exact ⟨[], ⟨rfl, rfl⟩, by simp⟩
  | repeated least most greedy body ih =>
      obtain ⟨count, -, -, hrounds⟩ := hreads
      exact exists_word_of_rounds ih hrounds

/-! ## Rounds of sets -/

/-- Characters of a set are read as far as they go. -/
theorem prefers_rounds {set : CharSet} {word rest : Text}
    (hword : ∀ c ∈ word, set.holds false c = true)
    (hrest : ∀ c ∈ rest.head?, set.holds false c = false) {most : Option Nat}
    (hmost : ∀ bound ∈ most, word.length ≤ bound) (position : Nat)
    (captures : List (Nat × Text)) :
    (PatternNode.repeated 0 most true (.oneOf set)).Prefers ⟨position, word ++ rest, captures⟩
      ⟨position + word.length, rest, captures⟩ := by
  intro accept final haccept
  have hlimit : word.length ≤ roundLimit 0 most ⟨position, word ++ rest, captures⟩ := by
    unfold roundLimit
    cases most with
    | none =>
        simp only [List.length_append]
        omega
    | some bound =>
        have hbound := hmost bound rfl
        simp only [List.length_append]
        omega
  refine optionalRounds_read hword hlimit (by simp) (fun limit => ?_) haccept
  cases rest with
  | nil => rfl
  | cons c rest => exact if_neg (by simp [hrest c rfl])

/-! ## Values -/

/-- A line that ends in a bracket is read up to the bracket, if nothing is to follow it. -/
theorem run_restOfLine_bracket {inner : Text} (hne : inner ≠ []) (hinner : '\n' ∉ inner)
    {position : Nat} {captures : List (Nat × Text)} {accept : Continuation} {final : Cursor}
    (hend : accept ⟨position + inner.length + 1, [], captures⟩ = none)
    (haccept : accept ⟨position + inner.length, [']'], captures⟩ = some final) :
    restOfLine.run false ⟨position, inner ++ [']'], captures⟩ accept = some final := by
  refine run_restOfLine hne hinner (fun limit => ?_) haccept
  cases limit with
  | zero => simpa [Cursor.read, optionalRounds] using hend
  | succ limit => simp [Cursor.read, optionalRounds, hend]

/-- The pattern is for the rest of a line, or for something else and texts in brackets. -/
def takesBrackets : PatternNode → Bool
  | .repeated 1 none true .any => true
  | .alt (.repeated (_ + 1) _ _ (.oneOf others))
      (.seq (.seq (.oneOf opening) (.repeated 1 none true .any)) (.oneOf closing)) =>
      !others.holds false '[' && opening.holds false '[' && closing.holds false ']'
  | _ => false

theorem prefers_of_takesBrackets {node : PatternNode} (hnode : node.takesBrackets = true)
    {inner : Text} (hne : inner ≠ []) (hinner : '\n' ∉ inner) (position : Nat)
    (captures : List (Nat × Text)) :
    node.Prefers ⟨position, '[' :: (inner ++ [']']), captures⟩
      ⟨position + ('[' :: (inner ++ [']'])).length, [], captures⟩ := by
  unfold takesBrackets at hnode
  split at hnode
  · apply prefers_restOfLine
    · simp
    · simpa using hinner
  · rename_i least most greedy others opening closing
    simp only [Bool.and_eq_true, Bool.not_eq_true'] at hnode
    obtain ⟨⟨hothers, hopening⟩, hclosing⟩ := hnode
    intro accept final haccept
    -- The first alternative does not read a bracket.
    have hnone : (PatternNode.repeated (least + 1) most greedy (.oneOf others)).run false
        ⟨position, '[' :: (inner ++ [']']), captures⟩ accept = none := by
      simp [run, requiredRounds, Cursor.read, hothers]
    have hlength : position + ('[' :: (inner ++ [']'])).length =
        position + 1 + inner.length + 1 := by
      simp only [List.length_cons, List.length_append, List.length_nil]
      omega
    rw [hlength] at haccept
    rw [run, hnone, Option.orElse_eq_or, Option.none_or, run, run]
    apply prefers_oneOf hopening
    apply run_restOfLine_bracket hne hinner
    · rfl
    · exact prefers_oneOf hclosing _ _ _ accept final haccept
  · cases hnode

end PatternNode

theorem Match.text_of_named {found : Match} {name t : Text}
    (hnamed : found.named name = .ok (some t)) : found.text name = .ok t := by
  rw [text, hnamed, ok_bind]

namespace Pattern

variable {pattern : Pattern} {t : Text} {found : Match}

/-- A pattern matches no text with a character that it shuns. -/
theorem not_mem_of_shuns (hfold : pattern.foldCase = false) {c : Char}
    (hshuns : pattern.root.shuns c = true) (hmatch : pattern.matchWhole t = some found) :
    c ∉ t := by
  obtain ⟨next, hreads, hend, -, -⟩ := reads_of_matchWhole hmatch
  rw [hfold] at hreads
  obtain ⟨word, hword, htest⟩ := PatternNode.exists_word hreads
  have ht : t = word := by simpa [hend] using hword.rest
  intro hc
  rw [ht] at hc
  rw [htest c hc] at hshuns
  cases hshuns

/-- What stands before the group of this name and what the group reads, if it comes last. The
group may be missing together with what stands directly before it. -/
def value? (pattern : Pattern) (name : Text) : Option (PatternNode × PatternNode) :=
  match pattern.root with
  | .seq front (.group (index + 1) body) =>
      if pattern.groupNames.get? name = some (index + 1) ∧ pattern.foldCase = false then
        some (front, body)
      else none
  | .seq front (.repeated 0 (some 1) true (.seq dash (.group (index + 1) body))) =>
      if pattern.groupNames.get? name = some (index + 1) ∧ pattern.foldCase = false then
        some (.seq front dash, body)
      else none
  | _ => none

theorem root_of_value? {name : Text} {front body : PatternNode}
    (hvalue : pattern.value? name = some (front, body)) :
    pattern.foldCase = false ∧ ∃ index, pattern.groupNames.get? name = some (index + 1) ∧
      (pattern.root = .seq front (.group (index + 1) body) ∨
        ∃ first dash, front = .seq first dash ∧ pattern.root =
          .seq first (.repeated 0 (some 1) true (.seq dash (.group (index + 1) body)))) := by
  unfold value? at hvalue
  split at hvalue
  · rename_i first index inner hroot
    split at hvalue
    · rename_i hnamed
      obtain ⟨rfl, rfl⟩ := Prod.mk.inj (Option.some.inj hvalue)
      exact ⟨hnamed.2, index, hnamed.1, .inl hroot⟩
    · cases hvalue
  · rename_i first dash index inner hroot
    split at hvalue
    · rename_i hnamed
      obtain ⟨rfl, rfl⟩ := Prod.mk.inj (Option.some.inj hvalue)
      exact ⟨hnamed.2, index, hnamed.1, .inr ⟨first, dash, rfl, hroot⟩⟩
    · cases hvalue
  · cases hvalue

/-- If such a pattern matches a text with a bracket, the group takes part. -/
theorem reads_of_value? {name : Text} {front body : PatternNode}
    (hvalue : pattern.value? name = some (front, body)) (hfront : front.shuns '[' = true)
    (hmatch : pattern.matchWhole t = some found) (hbracket : '[' ∈ t) :
    ∃ index middle next, pattern.groupNames.get? name = some (index + 1) ∧
      front.Reads false ⟨0, t, []⟩ middle ∧
      (PatternNode.group (index + 1) body).Reads false middle next ∧ next.rest = [] ∧
      found.captures = next.captures ∧ found.groupNames = pattern.groupNames := by
  obtain ⟨hfold, index, hindex, hroot⟩ := root_of_value? hvalue
  obtain ⟨next, hreads, hend, hcaptures, hnames⟩ := reads_of_matchWhole hmatch
  rw [hfold] at hreads
  rcases hroot with hroot | ⟨first, dash, rfl, hroot⟩
  · rw [hroot] at hreads
    obtain ⟨middle, hlead, hgroup⟩ := hreads
    exact ⟨index, middle, next, hindex, hlead, hgroup, hend, hcaptures, hnames⟩
  · rw [hroot] at hreads
    obtain ⟨middle, hfirst, count, -, hbound, hrounds⟩ := hreads
    have hatMost : count ≤ 1 := by simpa using hbound 1 rfl
    cases hrounds with
    | zero =>
        -- Without the group, the text is what stands before it, which has no bracket.
        obtain ⟨word, hword, htest⟩ := PatternNode.exists_word hfirst
        have ht : t = word := by simpa [hend] using hword.rest
        have hshuns := (Bool.and_eq_true_iff.mp hfront).1
        rw [htest '[' (ht ▸ hbracket)] at hshuns
        cases hshuns
    | succ hround hmore =>
        obtain rfl : _ = 0 := Nat.le_zero.mp (Nat.le_of_succ_le_succ hatMost)
        cases hmore
        obtain ⟨last, hdash, hgroup⟩ := hround
        exact ⟨index, last, next, hindex, ⟨middle, hfirst, hdash⟩, hgroup, hend, hcaptures, hnames⟩

/-- A text with a bracket is matched as a lead and the value behind it. -/
theorem named_of_value? {name : Text} {front body : PatternNode} {words : List Text}
    (hvalue : pattern.value? name = some (front, body)) (hfront : front.shuns '[' = true)
    (hwords : front.words? = some words) (hmatch : pattern.matchWhole t = some found)
    (hbracket : '[' ∈ t) :
    ∃ lead ∈ words, ∃ key, t = lead ++ key ∧ '[' ∈ key ∧ found.named name = .ok (some key) := by
  obtain ⟨index, middle, next, hindex, hlead, hgroup, hend, hcaptures, hnames⟩ :=
    reads_of_value? hvalue hfront hmatch hbracket
  obtain ⟨front, hshunned, hnone⟩ := PatternNode.exists_word hlead
  obtain ⟨lead, hmem, hadvance⟩ := PatternNode.advances_of_words? hwords hlead
  obtain ⟨inner, hinner, rfl⟩ := hgroup
  obtain ⟨key, hkey, -⟩ := PatternNode.exists_word hinner
  have hrest : inner.rest = [] := hend
  have ht : t = lead ++ key := by
    have htext := hadvance.rest
    rwa [hkey.rest, hrest, List.append_nil] at htext
  refine ⟨lead, hmem, key, ht, ?_, ?_⟩
  · -- The lead is what was read before the group, so the bracket is not in it.
    obtain rfl : front = lead := by
      rw [← hshunned.take_eq, ← hadvance.take_eq]
    rcases List.mem_append.mp (ht ▸ hbracket) with hmem | hmem
    · rw [hnone '[' hmem] at hfront
      cases hfront
    · exact hmem
  · have hlookup : found.captures.lookup (index + 1) = some key := by
      rw [hcaptures, List.lookup_cons_self, hkey.take_eq]
    rw [Match.named, hnames, hindex]
    simp [Match.group?, hlookup]

/-- A lead that is preferred in front of a bracket is matched with every line behind it that
begins and ends with one. -/
theorem exists_match_of_value? {name lead : Text} {front body : PatternNode}
    (hvalue : pattern.value? name = some (front, body)) (hbody : body.takesBrackets = true)
    (hleaves : front.leaves (lead ++ ['[']) = some ['[']) {inner : Text} (hne : inner ≠ [])
    (hinner : '\n' ∉ inner) :
    ∃ found, pattern.matchWhole (lead ++ '[' :: (inner ++ [']'])) = some found ∧
      found.named name = .ok (some ('[' :: (inner ++ [']']))) := by
  obtain ⟨hfold, index, hindex, hroot⟩ := root_of_value? hvalue
  have hgroup (position : Nat) (captures : List (Nat × Text)) :=
    (PatternNode.prefers_of_takesBrackets hbody hne hinner position captures).group
      ⟨(List.append_nil _).symm, rfl⟩ (index + 1)
  have hroots : ∃ position after, pattern.root.Prefers ⟨0, lead ++ '[' :: (inner ++ [']']), []⟩
      ⟨position, [], (index + 1, '[' :: (inner ++ [']'])) :: after⟩ := by
    rw [List.append_cons]
    rcases hroot with hroot | ⟨first, dash, rfl, hroot⟩
    · obtain ⟨word, after, -, hprefers⟩ := PatternNode.prefers_of_leaves hleaves (inner ++ [']']) 0 []
      rw [hroot]
      exact ⟨_, _, hprefers.seq (hgroup _ _)⟩
    · obtain ⟨middle, hfirst, hdash⟩ := Option.bind_eq_some_iff.mp hleaves
      obtain ⟨word, between, -, hfront⟩ := PatternNode.prefers_of_leaves hfirst (inner ++ [']']) 0 []
      obtain ⟨more, after, -, hback⟩ :=
        PatternNode.prefers_of_leaves hdash (inner ++ [']']) (0 + word.length) between
      rw [hroot]
      exact ⟨_, _, hfront.seq (hback.seq (hgroup _ _)).optional⟩
  obtain ⟨position, after, hprefers⟩ := hroots
  have hrun := hprefers (fun cursor => if cursor.rest = [] then some cursor else none) _ rfl
  rw [← hfold] at hrun
  refine ⟨_, congrArg (Option.map _) hrun, ?_⟩
  rw [Match.named, hindex]
  simp [Match.group?]

end Pattern

/-! ## Declarations in brackets -/

namespace Payload

/-- Whether a text is the name of a property: at most two dashes, then a letter, then letters,
digits and dashes. -/
def isPropertyName (t : Text) : Bool :=
  decide ((t.takeWhile (· == '-')).length ≤ 2) && match t.dropWhile (· == '-') with
    | c :: rest => c.isAlpha && rest.all fun d => d.isAlphanum || d == '-'
    | [] => false

/-- The property and the value of a declaration in brackets. -/
def declaration? (t : Text) : Option (Text × Text) := do
  let inner ← Text.afterLead? ['['] t
  let (property, rest) ← Text.cutFirst? ':' inner
  let value ← Text.beforeTail? [']'] rest
  if isPropertyName property && value ≠ [] && !value.contains '\n' then some (property, value)
  else none

theorem isPropertyName_iff (t : Text) :
    isPropertyName t = true ↔ ∃ dashes c rest, t = dashes ++ c :: rest ∧ dashes.length ≤ 2 ∧
      (∀ d ∈ dashes, d = '-') ∧ c.isAlpha = true ∧
      ∀ d ∈ rest, (d.isAlphanum || d == '-') = true := by
  rw [isPropertyName]
  constructor
  · intro hname
    rw [Bool.and_eq_true, decide_eq_true_eq] at hname
    obtain ⟨hlength, hrest⟩ := hname
    split at hrest
    · rename_i c rest hdrop
      rw [Bool.and_eq_true, List.all_eq_true] at hrest
      refine ⟨_, c, rest, ?_, hlength, ?_, hrest⟩
      · rw [← hdrop, List.takeWhile_append_dropWhile]
      · intro d hd
        simpa using List.mem_takeWhile_imp hd
    · cases hrest
  · rintro ⟨dashes, c, rest, rfl, hlength, hdashes, hc, hrest⟩
    have hdash : (c == '-') = false := by
      apply beq_false_of_ne
      rintro rfl
      cases hc
    have hall : ∀ d ∈ dashes, (d == '-') = true := by simpa using hdashes
    rw [List.takeWhile_append_of_pos hall, List.dropWhile_append_of_pos hall,
      List.takeWhile_cons_of_neg (by simp [hdash]), List.dropWhile_cons_of_neg (by simp [hdash])]
    rw [Bool.and_eq_true, decide_eq_true_eq, Bool.and_eq_true, List.all_eq_true, List.append_nil]
    exact ⟨hlength, hc, hrest⟩

theorem isNameChar_of_mem {t : Text} (ht : isPropertyName t = true) {d : Char} (hd : d ∈ t) :
    (d.isAlphanum || d == '-') = true := by
  obtain ⟨dashes, c, rest, rfl, -, hdashes, hc, hrest⟩ := (isPropertyName_iff t).mp ht
  rcases List.mem_append.mp hd with hmem | hmem
  · rw [hdashes d hmem]
    rfl
  · rcases List.mem_cons.mp hmem with rfl | hmem
    · simp [Char.isAlphanum, hc]
    · exact hrest d hmem

theorem declaration?_eq_some {t property value : Text} :
    declaration? t = some (property, value) ↔ t = '[' :: (property ++ ':' :: (value ++ [']'])) ∧
      isPropertyName property = true ∧ value ≠ [] ∧ '\n' ∉ value := by
  constructor
  · intro hdeclaration
    obtain ⟨inner, hinner, hdeclaration⟩ := Option.bind_eq_some_iff.mp hdeclaration
    obtain ⟨⟨name, rest⟩, hcut, hdeclaration⟩ := Option.bind_eq_some_iff.mp hdeclaration
    obtain ⟨text, htext, hdeclaration⟩ := Option.bind_eq_some_iff.mp hdeclaration
    rw [Text.afterLead?, List.isPrefixOf?_eq_some_iff_append_eq] at hinner
    rw [Text.beforeTail?, List.isSuffixOf?_eq_some_iff_append_eq] at htext
    split at hdeclaration
    · rename_i hparts
      obtain ⟨rfl, rfl⟩ := Prod.mk.inj (Option.some.inj hdeclaration)
      rw [Bool.and_eq_true, Bool.and_eq_true] at hparts
      refine ⟨?_, hparts.1.1, by simpa using hparts.1.2, by simpa using hparts.2⟩
      rw [← hinner, eq_of_cutFirst? hcut, ← htext]
      rfl
    · cases hdeclaration
  · rintro ⟨rfl, hproperty, hvalue, hline⟩
    have hcolon : ':' ∉ property := by
      intro hmem
      cases isNameChar_of_mem hproperty hmem
    have htail : Text.beforeTail? [']'] (value ++ [']']) = some value := by
      rw [Text.beforeTail?, List.isSuffixOf?_eq_some_iff_append_eq]
    rw [declaration?]
    simp [Text.afterLead?, List.isPrefixOf?, Token.cutFirst?_append hcolon, htail, hproperty, hvalue, hline]

end Payload

namespace Catalog

open PatternReader PatternNode

def letters : CharSet := ⟨false, [.range 'a' 'z', .range 'A' 'Z']⟩

def nameChars : CharSet :=
  ⟨false, [.range 'a' 'z', .range 'A' 'Z', .range '0' '9', .single '-']⟩

/-- The pattern for the name of a property. -/
def propertyName : PatternNode :=
  .seq (.seq (.repeated 0 (some 2) true (literal '-')) (.oneOf letters))
    (.repeated 0 none true (.oneOf nameChars))

/-- The pattern for declarations in brackets. -/
def declarationPattern : Pattern where
  source := "\\[(?P<prop>-\x7b0,2\x7d[a-zA-Z][a-zA-Z0-9-]*):(?P<value>.+)\\]"
  foldCase := false
  root := .seq (.seq (.seq (.seq (literal '[') (.group 1 propertyName)) (literal ':'))
    (.group 2 restOfLine)) (literal ']')
  groupCount := 2
  groupNames := [("prop", 1), ("value", 2)]

theorem read?_declarationPattern :
    Pattern.read? declarationPattern.source false = some declarationPattern := rfl

theorem holds_letters (c : Char) : letters.holds false c = c.isAlpha := by
  change _ = (decide (c.val ≥ 'A'.val ∧ c.val ≤ 'Z'.val) ||
    (decide (c.val ≥ 'a'.val) && decide (c.val ≤ 'z'.val)))
  rw [Bool.or_comm]
  simp [letters, CharSet.holds, SetItem.holds, Char.le_def]

theorem holds_nameChars (c : Char) : nameChars.holds false c = (c.isAlphanum || c == '-') := by
  rw [Char.isAlphanum, ← holds_letters]
  simp [letters, nameChars, CharSet.holds, SetItem.holds, Char.isDigit, Char.le_def, Bool.or_assoc]

theorem advances_of_propertyName {cursor next : Cursor}
    (hreads : propertyName.Reads false cursor next) :
    ∃ name, Payload.isPropertyName name = true ∧ cursor.Advances name next ∧
      next.captures = cursor.captures := by
  obtain ⟨second, ⟨first, ⟨count, -, hbound, hdashes⟩, hletter⟩, more, -, -, hrest⟩ := hreads
  obtain ⟨dashes, hlength, hdash, hdashes, hdashesKept⟩ :=
    hdashes.reads_word (readsChar_oneOf false _)
  obtain ⟨c, hc, hletter, hletterKept⟩ := readsChar_oneOf false _ _ _ hletter
  obtain ⟨rest, -, hchars, hrest, hrestKept⟩ := hrest.reads_word (readsChar_oneOf false _)
  refine ⟨dashes ++ [c] ++ rest, ?_, (hdashes.trans hletter).trans hrest, ?_⟩
  · rw [Payload.isPropertyName_iff]
    refine ⟨dashes, c, rest, by simp, ?_, ?_, ?_, ?_⟩
    · simpa [hlength] using hbound 2 rfl
    · simpa [CharSet.holds, SetItem.holds] using hdash
    · rwa [← holds_letters]
    · intro d hd
      rw [← holds_nameChars]
      exact hchars d hd
  · rw [hrestKept, hletterKept, hdashesKept]

/-- A name is read up to the colon behind it. -/
theorem prefers_propertyName {name : Text} (hname : Payload.isPropertyName name = true)
    (rest : Text) (position : Nat) (captures : List (Nat × Text)) :
    propertyName.Prefers ⟨position, name ++ ':' :: rest, captures⟩
      ⟨position + name.length, ':' :: rest, captures⟩ := by
  obtain ⟨dashes, c, chars, rfl, hlength, hdashes, hc, hchars⟩ :=
    (Payload.isPropertyName_iff name).mp hname
  have hfirst : (PatternNode.repeated 0 (some 2) true (literal '-')).Prefers
      ⟨position, dashes ++ c :: (chars ++ ':' :: rest), captures⟩
      ⟨position + dashes.length, c :: (chars ++ ':' :: rest), captures⟩ := by
    apply prefers_rounds
    · intro d hd
      simp [hdashes d hd, CharSet.holds, SetItem.holds]
    · intro d hd
      obtain rfl : c = d := Option.some.inj hd
      have hne : c ≠ '-' := by
        rintro rfl
        cases hc
      simpa [CharSet.holds, SetItem.holds] using hne
    · simpa using hlength
  have hletter := prefers_oneOf (holds_letters c ▸ hc) (chars ++ ':' :: rest)
    (position + dashes.length) captures
  have hlast : (PatternNode.repeated 0 none true (.oneOf nameChars)).Prefers
      ⟨position + dashes.length + 1, chars ++ ':' :: rest, captures⟩
      ⟨position + dashes.length + 1 + chars.length, ':' :: rest, captures⟩ := by
    apply prefers_rounds
    · intro d hd
      rw [holds_nameChars, hchars d hd]
    · intro d hd
      obtain rfl : ':' = d := Option.some.inj hd
      decide
    · simp
  have hall := (hfirst.seq hletter).seq hlast
  simpa [propertyName, Nat.add_assoc, Nat.add_comm 1] using hall

theorem declaration?_of_match {t : Text} {found : Match}
    (hmatch : declarationPattern.matchWhole t = some found) :
    ∃ property value, Payload.declaration? t = some (property, value) ∧
      found.text "prop" = .ok property ∧ found.text "value" = .ok value := by
  obtain ⟨next, hreads, hend, hcaptures, hnames⟩ := Pattern.reads_of_matchWhole hmatch
  obtain ⟨last, ⟨third, ⟨second, ⟨first, hopening, inner, hname, rfl⟩, hcolon⟩, line,
    ⟨count, hcount, -, hline⟩, rfl⟩, hclosing⟩ := hreads
  obtain ⟨hopening, -⟩ := reads_literal hopening
  obtain ⟨hcolon, hcolonKept⟩ := reads_literal hcolon
  obtain ⟨hclosing, hclosingKept⟩ := reads_literal hclosing
  obtain ⟨property, hproperty, hname, -⟩ := advances_of_propertyName hname
  obtain ⟨value, hlength, hchars, hvalue, hvalueKept⟩ := hline.reads_word (readsChar_any false)
  have hfound : found.captures.lookup 1 = some property ∧ found.captures.lookup 2 = some value := by
    rw [hcaptures, hclosingKept, hvalue.take_eq]
    simp only [hvalueKept, hcolonKept, hname.take_eq]
    exact ⟨rfl, rfl⟩
  refine ⟨property, value, ?_, Pattern.text_of_group (hnames ▸ rfl) hfound.1,
    Pattern.text_of_group (hnames ▸ rfl) hfound.2⟩
  rw [Payload.declaration?_eq_some]
  refine ⟨?_, hproperty, ?_, fun hmem => hchars _ hmem rfl⟩
  · have htext : t = ['['] ++ first.rest := hopening.rest
    have hrest : inner.rest = [':'] ++ third.rest := hcolon.rest
    have htail : line.rest = [']'] ++ next.rest := hclosing.rest
    rw [htext, hname.rest, hrest, hvalue.rest, htail, hend]
    simp
  · rintro rfl
    simp at hlength
    omega

theorem exists_match_of_declaration? {t property value : Text}
    (hdeclaration : Payload.declaration? t = some (property, value)) :
    ∃ found, declarationPattern.matchWhole t = some found := by
  obtain ⟨rfl, hproperty, hvalue, hline⟩ := Payload.declaration?_eq_some.mp hdeclaration
  have hopening := prefers_literal '[' (property ++ ':' :: (value ++ [']'])) 0 []
  have hname := (prefers_propertyName hproperty (value ++ [']']) (0 + 1) []).group ⟨rfl, rfl⟩ 1
  have hcolon := prefers_literal ':' (value ++ [']']) (0 + 1 + property.length) [(1, property)]
  have hfront := (hopening.seq hname).seq hcolon
  have hrun : ∃ final, declarationPattern.root.run false
      ⟨0, '[' :: (property ++ ':' :: (value ++ [']'])), []⟩
      (fun cursor => if cursor.rest = [] then some cursor else none) = some final := by
    refine ⟨⟨0 + 1 + property.length + 1 + value.length + 1, [], [(2, value), (1, property)]⟩, ?_⟩
    apply hfront
    refine run_restOfLine_bracket hvalue hline rfl ?_
    apply prefers_literal
    simp
  obtain ⟨final, hrun⟩ := hrun
  exact ⟨_, congrArg (Option.map _) hrun⟩

end Catalog

end UtilityCss
