import UtilityCss.Proofs.MappingVerdicts

/-!
# Filling templates

A placeholder is a dollar sign and the character behind it. No such character is a dollar sign,
so placeholders do not overlap, and a template may be cut anywhere but inside of one: the parts
are filled on their own. What is written for a placeholder stands between what the template before
it and the template behind it give, and is not read again. A name that is mapped by a template
therefore keeps the text around the match as it is.
-/

namespace UtilityCss

namespace Template

/-- Whether a character makes a placeholder with a dollar sign before it. -/
def isReference (c : Char) : Bool := c == '&' || ('1' ≤ c && c ≤ '9')

/-- The text that is written for a placeholder. -/
def reference (found : Match) (c : Char) : Text :=
  if c = '&' then found.whole else groupText found c

/-- Between two parts of a template there is no placeholder that belongs to both. -/
def CleanCut (front back : Text) : Prop :=
  front.getLast? = some '$' → ∀ c ∈ back.head?, isReference c = false

theorem CleanCut.of_cons {c : Char} {front back : Text} (hcut : CleanCut (c :: front) back) :
    CleanCut front back := by
  intro hlast
  apply hcut
  rw [List.getLast?_cons, hlast]
  rfl

theorem cleanCut_dollar (front back : Text) : CleanCut front ('$' :: back) := by
  intro _ c hc
  obtain rfl : '$' = c := by simpa using hc
  rfl

section Filling

variable {found : Match}

theorem fill_reference {c : Char} (hc : isReference c = true) (rest : Text) :
    fill found ('$' :: c :: rest) = reference found c ++ fill found rest := by
  by_cases hwhole : c = '&'
  · subst hwhole
    rfl
  · have hdigit : ('1' ≤ c && c ≤ '9') = true := by simpa [isReference, hwhole] using hc
    rw [fill, if_pos hdigit, reference, if_neg hwhole]
    exact hwhole

/-- A character that begins no placeholder is kept. -/
theorem fill_cons {c : Char} {rest : Text} (hcut : CleanCut [c] rest) :
    fill found (c :: rest) = c :: fill found rest := by
  by_cases hc : c = '$'
  · subst hc
    cases rest with
    | nil => rfl
    | cons d rest =>
        have hd : isReference d = false := hcut rfl d rfl
        simp only [isReference, Bool.or_eq_false_iff, beq_eq_false_iff_ne] at hd
        rw [fill, if_neg (Bool.eq_false_iff.mp hd.2)]
        exact hd.1
  · rw [fill]
    · rintro others rfl
      exact absurd rfl hc
    · rintro d others rfl
      exact absurd rfl hc

/-- A template is empty, or begins with a placeholder or with a character that is kept. -/
@[elab_as_elim]
theorem pieces_induction {motive : Text → Prop} (nil : motive [])
    (placeholder : ∀ c rest, isReference c = true → motive rest → motive ('$' :: c :: rest))
    (kept : ∀ c rest, CleanCut [c] rest → motive rest → motive (c :: rest)) (t : Text) :
    motive t := by
  -- `$&` is one placeholder among others, and a dollar sign before anything else is kept as other
  -- characters are.
  induction t using fill.induct with
  | case1 rest ih => exact placeholder '&' rest rfl ih
  | case2 c rest _ hdigit ih => exact placeholder c rest (by simp [isReference, hdigit]) ih
  | case3 c rest hwhole hdigit ih =>
      refine kept '$' (c :: rest) ?_ ih
      intro _ d hd
      obtain rfl : c = d := by simpa using hd
      have hwhole : c ≠ '&' := hwhole
      rw [isReference, beq_eq_false_iff_ne.mpr hwhole, Bool.eq_false_iff.mpr hdigit]
      rfl
  | case4 c rest _ hlast ih =>
      refine kept c rest ?_ ih
      intro hdollar d hd
      obtain ⟨others, hothers⟩ := List.head?_eq_some_iff.mp hd
      exact (hlast d others (by simpa using hdollar) hothers).elim
  | case5 => exact nil

/-- The parts of a template on both sides of a clean cut are filled on their own. -/
theorem fill_append {front back : Text} (hcut : CleanCut front back) :
    fill found (front ++ back) = fill found front ++ fill found back := by
  induction front using pieces_induction with
  | nil => rfl
  | placeholder c rest hc ih =>
      rw [List.cons_append, List.cons_append, fill_reference hc, fill_reference hc,
        ih hcut.of_cons.of_cons, List.append_assoc]
  | kept c rest hkept ih =>
      -- Behind the character there may be nothing left of `front`; then the cut itself decides.
      have hlonger : CleanCut [c] (rest ++ back) := by
        cases rest with
        | nil => exact hcut
        | cons d rest => exact hkept
      rw [List.cons_append, fill_cons hlonger, fill_cons hkept, ih hcut.of_cons, List.cons_append]

/-- What is written for a placeholder is not read again, and reading goes on behind it. -/
theorem fill_placeholder {c : Char} (hc : isReference c = true) (front back : Text) :
    fill found (front ++ '$' :: c :: back) =
      fill found front ++ (reference found c ++ fill found back) := by
  rw [fill_append (cleanCut_dollar front _), fill_reference hc]

theorem fill_eq_self {t : Text} (ht : ∀ c, isReference c = true → ¬ ['$', c] <:+: t) :
    fill found t = t := by
  induction t using pieces_induction with
  | nil => rfl
  | placeholder c rest hc _ => exact absurd ⟨[], rest, rfl⟩ (ht c hc)
  | kept c rest hkept ih =>
      rw [fill_cons hkept, ih]
      intro d hd hinner
      exact ht d hd (hinner.trans (List.suffix_cons c rest).isInfix)

end Filling

end Template

/-! ## The text around a match -/

namespace PatternNode

/-- What a pattern reads stands between the cursor before it and the cursor after it. -/
theorem exists_advance {foldCase : Bool} {node : PatternNode} {cursor next : Cursor}
    (hreads : node.Reads foldCase cursor next) : ∃ word, cursor.Advances word next := by
  induction node generalizing cursor next with
  | empty =>
      obtain rfl := hreads
      exact ⟨[], .refl _⟩
  | oneOf set =>
      obtain ⟨c, -, hadvance, -⟩ := readsChar_oneOf foldCase set cursor next hreads
      exact ⟨[c], hadvance⟩
  | any =>
      obtain ⟨c, -, hadvance, -⟩ := readsChar_any foldCase cursor next hreads
      exact ⟨[c], hadvance⟩
  | start =>
      obtain ⟨-, rfl⟩ := hreads
      exact ⟨[], .refl _⟩
  | finish =>
      obtain ⟨-, rfl⟩ := hreads
      exact ⟨[], .refl _⟩
  | seq first second ihfirst ihsecond =>
      obtain ⟨middle, hfirst, hsecond⟩ := hreads
      obtain ⟨front, hfront⟩ := ihfirst hfirst
      obtain ⟨back, hback⟩ := ihsecond hsecond
      exact ⟨front ++ back, hfront.trans hback⟩
  | alt first second ihfirst ihsecond => exact hreads.elim ihfirst ihsecond
  | group index body ih =>
      obtain ⟨inner, hinner, rfl⟩ := hreads
      obtain ⟨word, hword⟩ := ih hinner
      exact ⟨word, hword.rest, hword.position⟩
  | ahead negated body _ =>
      cases negated with
      | true =>
          obtain rfl := hreads
          exact ⟨[], .refl _⟩
      | false =>
          obtain ⟨found, -, rfl⟩ := hreads
          exact ⟨[], rfl, rfl⟩
  | repeated least most greedy body ih =>
      obtain ⟨count, -, -, hrounds⟩ := hreads
      induction hrounds with
      | zero cursor => exact ⟨[], .refl cursor⟩
      | succ hfirst _ ihrounds =>
          obtain ⟨front, hfront⟩ := ih hfirst
          obtain ⟨back, hback⟩ := ihrounds
          exact ⟨front ++ back, hfront.trans hback⟩

end PatternNode

/-- A text is parted by a match that is found in it. -/
theorem Pattern.eq_of_search {pattern : Pattern} {t : Text} {found : Match}
    (hsearch : pattern.search t = some found) :
    t = found.before ++ found.whole ++ found.after := by
  obtain ⟨front, rest, rfl, hmatch⟩ := exists_matchAt_of_searchFrom hsearch
  obtain ⟨final, hrun, rfl⟩ := Option.map_eq_some_iff.mp hmatch
  obtain ⟨next, hreads, haccept⟩ := PatternNode.sound_run _ _ _ _ _ hrun
  obtain rfl := Option.some.inj haccept
  obtain ⟨word, hword⟩ := PatternNode.exists_advance hreads
  have hrest : rest = word ++ next.rest := hword.rest
  have hwhole : rest.take (next.position - front.length) = word := hword.take_eq
  change front ++ rest = front ++ rest.take (next.position - front.length) ++ next.rest
  rw [hwhole, List.append_assoc, ← hrest]

namespace Template

open Migration

/-- Templates are filled in one pass. Parts of a template are filled on their own, if the first
one does not end with a dollar sign. A template without placeholders is its own filling. What is
written for a placeholder stays as it is, whatever it contains. The name that a template gives
has the text before and behind the match as it was. -/
theorem fill_once (found : Match) :
    (∀ front back : Text, front.getLast? ≠ some '$' →
      fill found (front ++ back) = fill found front ++ fill found back) ∧
    (∀ t : Text, (∀ c, isReference c = true → ¬ ['$', c] <:+: t) → fill found t = t) ∧
    (∀ (front back : Text) (c : Char), isReference c = true →
      fill found (front ++ '$' :: c :: back) =
        fill found front ++ (reference found c ++ fill found back)) ∧
    ∀ (rule : MappingRule) (pattern : Pattern) (given text : Text),
      rule.replacement = .template text → text ≠ sameTemplate →
      pattern.search given = some found →
        given = found.before ++ found.whole ++ found.after ∧
          rule.mapped? found = some (found.before ++ fill found text ++ found.after) := by
  refine ⟨?_, ?_, ?_, ?_⟩
  · intro front back hlast
    exact fill_append fun hdollar => absurd hdollar hlast
  · intro t ht
    exact fill_eq_self ht
  · intro front back c hc
    exact fill_placeholder hc front back
  · intro rule pattern given text hreplacement hchange hsearch
    refine ⟨Pattern.eq_of_search hsearch, ?_⟩
    simp only [MappingRule.mapped?, hreplacement, if_neg hchange]

/-- A rule whose second group may take no part, with a template that asks for a third one. -/
def dollarRule : MappingRule where
  pattern := "o(\\$.)(x)?"
  replacement := .template "n$1$&$2$3$"
  compatible := true

/-- A match of that rule which has placeholders in it and around it. -/
def dollarMatch : Match where
  before := "$1"
  whole := "o$&"
  after := "$2"
  captures := [(1, "$&")]
  groupCount := 2
  groupNames := []

theorem fill_once_dollars :
    dollarRule.found? "$1o$&$2" = some dollarMatch ∧
      fill dollarMatch (("n$1$&" : Text) ++ "$2$3$") =
        fill dollarMatch "n$1$&" ++ fill dollarMatch "$2$3$" ∧
      fill dollarMatch "$-$0" = "$-$0" ∧
      fill dollarMatch (("$" : Text) ++ '$' :: '1' :: "$2") =
        fill dollarMatch "$" ++ ("$&" ++ fill dollarMatch "$2") ∧
      ("$1o$&$2" : Text) = ("$1" : Text) ++ "o$&" ++ "$2" ∧
      dollarRule.mapped? dollarMatch = some "$1n$&o$&$3$$2" := by
  have hfound : dollarRule.found? "$1o$&$2" = some dollarMatch := rfl
  obtain ⟨pattern, -, hsearch⟩ := Option.bind_eq_some_iff.mp hfound
  obtain ⟨happend, hplain, hplaceholder, hrewrite⟩ := fill_once dollarMatch
  obtain ⟨hgiven, hmapped⟩ := hrewrite dollarRule pattern "$1o$&$2" _ rfl (by decide) hsearch
  refine ⟨hfound, happend _ _ (by decide), hplain _ ?_, hplaceholder _ _ '1' rfl, hgiven, hmapped⟩
  intro c hc hinner
  obtain rfl | rfl : c = '-' ∨ c = '0' := by simpa [List.infix_cons_iff] using hinner
  · cases hc
  · cases hc

end Template

end UtilityCss
