import UtilityCss.Proofs.PatternSemantics
import UtilityCss.Proofs.Settled
import UtilityCss.Text.Digit

/-!
# What the shape of a pattern tells about its matches

Some facts about all matches of a pattern can be read off its tree: which groups take part
in each of them, which words a part without repetition can read, and with which words a
match can begin. Most patterns of a catalogue are a lead, of which there are a few, and a
group that takes the rest; which lead is preferred can be read off too, if it is told from the
others by what begins the text.
-/

namespace UtilityCss

namespace PatternNode

/-! ## Groups that take part -/

/-- The groups that take part in every match. -/
def sureGroups : PatternNode → List Nat
  | .seq first second => first.sureGroups ++ second.sureGroups
  | .alt first second => first.sureGroups.filter (second.sureGroups.contains ·)
  | .group index body => index :: body.sureGroups
  | .repeated least _ _ body => if least = 0 then [] else body.sureGroups
  | _ => []

theorem isSome_lookup_cons {captures : List (Nat × Text)} {index other : Nat} {reading : Text}
    (hother : (captures.lookup other).isSome) :
    (((index, reading) :: captures).lookup other).isSome := by
  rw [List.lookup_cons]
  split
  · rfl
  · exact hother

theorem isSome_lookup_rounds {step : Cursor → Cursor → Prop} {index : Nat}
    (hstep : ∀ cursor next, step cursor next → (cursor.captures.lookup index).isSome →
      (next.captures.lookup index).isSome)
    {count : Nat} {cursor next : Cursor} (hrounds : Rounds step count cursor next)
    (hcursor : (cursor.captures.lookup index).isSome) : (next.captures.lookup index).isSome := by
  induction hrounds with
  | zero => exact hcursor
  | succ hfirst _ ih => exact ih (hstep _ _ hfirst hcursor)

/-- What a group has read is not forgotten. -/
theorem isSome_lookup_of_reads {foldCase : Bool} {node : PatternNode} {index : Nat}
    {cursor next : Cursor} (hreads : node.Reads foldCase cursor next)
    (hcursor : (cursor.captures.lookup index).isSome) : (next.captures.lookup index).isSome := by
  induction node generalizing cursor next with
  | empty =>
      obtain rfl := hreads
      exact hcursor
  | oneOf set =>
      obtain ⟨c, rest, -, -, rfl⟩ := hreads
      exact hcursor
  | any =>
      obtain ⟨c, rest, -, -, rfl⟩ := hreads
      exact hcursor
  | start =>
      obtain ⟨-, rfl⟩ := hreads
      exact hcursor
  | finish =>
      obtain ⟨-, rfl⟩ := hreads
      exact hcursor
  | seq first second ihfirst ihsecond =>
      obtain ⟨middle, hfirst, hsecond⟩ := hreads
      exact ihsecond hsecond (ihfirst hfirst hcursor)
  | alt first second ihfirst ihsecond =>
      rcases hreads with hfirst | hsecond
      · exact ihfirst hfirst hcursor
      · exact ihsecond hsecond hcursor
  | group other body ih =>
      obtain ⟨inner, hinner, rfl⟩ := hreads
      exact isSome_lookup_cons (ih hinner hcursor)
  | ahead negated body ih =>
      cases negated with
      | true =>
          obtain rfl := hreads
          exact hcursor
      | false =>
          obtain ⟨found, hfound, rfl⟩ := hreads
          change (found.captures.lookup index).isSome
          exact ih hfound hcursor
  | repeated least most greedy body ih =>
      obtain ⟨count, -, -, hrounds⟩ := hreads
      exact isSome_lookup_rounds (fun _ _ hstep hhas => ih hstep hhas) hrounds hcursor

theorem isSome_lookup_of_sureGroups {foldCase : Bool} {node : PatternNode} {index : Nat}
    {cursor next : Cursor} (hreads : node.Reads foldCase cursor next)
    (hindex : index ∈ node.sureGroups) : (next.captures.lookup index).isSome := by
  induction node generalizing cursor next with
  | seq first second ihfirst ihsecond =>
      obtain ⟨middle, hfirst, hsecond⟩ := hreads
      rcases List.mem_append.mp hindex with hindex | hindex
      · exact isSome_lookup_of_reads hsecond (ihfirst hfirst hindex)
      · exact ihsecond hsecond hindex
  | alt first second ihfirst ihsecond =>
      obtain ⟨hleft, hright⟩ := List.mem_filter.mp hindex
      rcases hreads with hfirst | hsecond
      · exact ihfirst hfirst hleft
      · exact ihsecond hsecond (List.contains_iff_mem.mp hright)
  | group other body ih =>
      obtain ⟨inner, hinner, rfl⟩ := hreads
      rcases List.mem_cons.mp hindex with rfl | hindex
      · simp
      · exact isSome_lookup_cons (ih hinner hindex)
  | repeated least most greedy body ih =>
      obtain ⟨count, hleast, -, hrounds⟩ := hreads
      simp only [sureGroups] at hindex
      split at hindex
      · exact absurd hindex List.not_mem_nil
      · -- There is a first round, and later rounds do not forget what it has read.
        cases hrounds with
        | zero => omega
        | succ hfirst hmore =>
            exact isSome_lookup_rounds (fun _ _ hstep hhas => isSome_lookup_of_reads hstep hhas)
              hmore (ih hfirst hindex)
  | _ => exact absurd hindex List.not_mem_nil

/-! ## Words that can be read -/

/-- The characters among the members of a set, if all members are single ones. -/
def singles? : List SetItem → Option (List Char)
  | [] => some []
  | .single c :: rest => (singles? rest).map (c :: ·)
  | _ :: _ => none

theorem mem_of_singles? {items : List SetItem} {chars : List Char} {c : Char}
    (hsingles : singles? items = some chars) (hc : items.any (·.holds c) = true) : c ∈ chars := by
  induction items generalizing chars with
  | nil => simp at hc
  | cons item rest ih =>
      cases item with
      | single d =>
          obtain ⟨others, hothers, rfl⟩ := Option.map_eq_some_iff.mp hsingles
          rw [List.any_cons, Bool.or_eq_true] at hc
          rcases hc with hc | hc
          · simp [eq_of_beq hc]
          · exact List.mem_cons_of_mem d (ih hothers hc)
      | range lowest highest => cases hsingles
      | named kind negated => cases hsingles

/-- The characters that a set has, if it lists them one by one. -/
def members? (set : CharSet) : Option (List Char) :=
  if set.negated then none else singles? set.items

theorem mem_of_members? {set : CharSet} {chars : List Char} {c : Char}
    (hmembers : members? set = some chars) (hc : set.holds false c = true) : c ∈ chars := by
  unfold members? at hmembers
  split at hmembers
  · cases hmembers
  · rename_i hnegated
    apply mem_of_singles? hmembers
    simpa [CharSet.holds, hnegated] using hc

/-- The words that a pattern can read, if it is made of listed characters without further
repetition than that of parts that may be missing. -/
def words? : PatternNode → Option (List Text)
  | .empty => some [[]]
  | .oneOf set => (members? set).map (·.map ([·]))
  | .seq first second => do
      let words ← first.words?
      let others ← second.words?
      some (words.flatMap fun word => others.map (word ++ ·))
  | .alt first second => do
      let words ← first.words?
      let others ← second.words?
      some (words ++ others)
  | .group _ body => body.words?
  | .repeated least most _ body =>
      if least = 0 ∧ most = some 1 then body.words?.map ([] :: ·) else none
  | _ => none

theorem advances_of_words? {node : PatternNode} {words : List Text} {cursor next : Cursor}
    (hwords : node.words? = some words) (hreads : node.Reads false cursor next) :
    ∃ word ∈ words, cursor.Advances word next := by
  induction node generalizing words cursor next with
  | empty =>
      obtain rfl := hreads
      obtain rfl := Option.some.inj hwords
      exact ⟨[], by simp, .refl _⟩
  | oneOf set =>
      obtain ⟨chars, hchars, rfl⟩ := Option.map_eq_some_iff.mp hwords
      obtain ⟨c, hc, hadvance, -⟩ := readsChar_oneOf false set cursor next hreads
      exact ⟨[c], List.mem_map_of_mem (mem_of_members? hchars hc), hadvance⟩
  | seq first second ihfirst ihsecond =>
      obtain ⟨middle, hfirst, hsecond⟩ := hreads
      obtain ⟨fronts, hfronts, hwords⟩ := Option.bind_eq_some_iff.mp hwords
      obtain ⟨backs, hbacks, hwords⟩ := Option.bind_eq_some_iff.mp hwords
      obtain rfl := Option.some.inj hwords
      obtain ⟨front, hfront, hmiddle⟩ := ihfirst hfronts hfirst
      obtain ⟨back, hback, hnext⟩ := ihsecond hbacks hsecond
      refine ⟨front ++ back, ?_, hmiddle.trans hnext⟩
      exact List.mem_flatMap.mpr ⟨front, hfront, List.mem_map_of_mem hback⟩
  | alt first second ihfirst ihsecond =>
      obtain ⟨lefts, hlefts, hwords⟩ := Option.bind_eq_some_iff.mp hwords
      obtain ⟨rights, hrights, hwords⟩ := Option.bind_eq_some_iff.mp hwords
      obtain rfl := Option.some.inj hwords
      rcases hreads with hfirst | hsecond
      · obtain ⟨word, hword, hadvance⟩ := ihfirst hlefts hfirst
        exact ⟨word, List.mem_append_left _ hword, hadvance⟩
      · obtain ⟨word, hword, hadvance⟩ := ihsecond hrights hsecond
        exact ⟨word, List.mem_append_right _ hword, hadvance⟩
  | group index body ih =>
      obtain ⟨inner, hinner, rfl⟩ := hreads
      obtain ⟨word, hword, hadvance⟩ := ih hwords hinner
      exact ⟨word, hword, ⟨hadvance.rest, hadvance.position⟩⟩
  | repeated least most greedy body ih =>
      simp only [words?] at hwords
      split at hwords
      · rename_i hbounds
        obtain ⟨others, hothers, rfl⟩ := Option.map_eq_some_iff.mp hwords
        obtain ⟨count, -, hbound, hrounds⟩ := hreads
        -- A part that may be missing is read once or not at all.
        have hatMost : count ≤ 1 := by simpa [hbounds.1] using hbound 1 hbounds.2
        cases hrounds with
        | zero => exact ⟨[], List.mem_cons_self, .refl _⟩
        | succ hfirst hmore =>
            obtain rfl : _ = 0 := Nat.le_zero.mp (Nat.le_of_succ_le_succ hatMost)
            cases hmore
            obtain ⟨word, hword, hadvance⟩ := ih hothers hfirst
            exact ⟨word, List.mem_cons_of_mem [] hword, hadvance⟩
      · cases hwords
  | any => cases hwords
  | start => cases hwords
  | finish => cases hwords
  | ahead negated body _ => cases hwords

/-- Words with one of which every text begins that the pattern reads. -/
def openings : PatternNode → List Text
  | .oneOf set => ((members? set).map (·.map ([·]))).getD [[]]
  | .seq first second =>
      match first.words? with
      | some words => words.flatMap fun word => second.openings.map (word ++ ·)
      | none => first.openings
  | .alt first second => first.openings ++ second.openings
  | .group _ body => body.openings
  | _ => [[]]

theorem exists_opening {node : PatternNode} {cursor next : Cursor}
    (hreads : node.Reads false cursor next) : ∃ word ∈ node.openings, word <+: cursor.rest := by
  induction node generalizing cursor next with
  | oneOf set =>
      cases hmembers : members? set with
      | none => exact ⟨[], by simp [openings, hmembers], List.nil_prefix⟩
      | some chars =>
          obtain ⟨c, hc, hadvance, -⟩ := readsChar_oneOf false set cursor next hreads
          refine ⟨[c], ?_, ⟨next.rest, hadvance.rest.symm⟩⟩
          simpa [openings, hmembers] using mem_of_members? hmembers hc
  | seq first second ihfirst ihsecond =>
      obtain ⟨middle, hfirst, hsecond⟩ := hreads
      simp only [openings]
      cases hwords : first.words? with
      | none => exact ihfirst hfirst
      | some words =>
          obtain ⟨front, hfront, hadvance⟩ := advances_of_words? hwords hfirst
          obtain ⟨back, hback, rest, hrest⟩ := ihsecond hsecond
          refine ⟨front ++ back, ?_, ⟨rest, ?_⟩⟩
          · exact List.mem_flatMap.mpr ⟨front, hfront, List.mem_map_of_mem hback⟩
          · rw [hadvance.rest, ← hrest, List.append_assoc]
  | alt first second ihfirst ihsecond =>
      rcases hreads with hfirst | hsecond
      · obtain ⟨word, hword, hopens⟩ := ihfirst hfirst
        exact ⟨word, List.mem_append_left _ hword, hopens⟩
      · obtain ⟨word, hword, hopens⟩ := ihsecond hsecond
        exact ⟨word, List.mem_append_right _ hword, hopens⟩
  | group index body ih =>
      obtain ⟨inner, hinner, rfl⟩ := hreads
      exact ih hinner
  | _ => exact ⟨[], List.mem_singleton.mpr rfl, List.nil_prefix⟩

end PatternNode

/-! ## Beginnings of texts -/

/-- The texts differ at a place that both have, so that no text begins with both. -/
def clashes : Text → Text → Bool
  | c :: word, d :: t => c != d || clashes word t
  | _, _ => false

theorem not_prefix_of_clashes {word t : Text} (hclashes : clashes word t = true) (rest : Text) :
    ¬ word <+: t ++ rest := by
  induction word generalizing t with
  | nil => cases hclashes
  | cons c word ih =>
      cases t with
      | nil => cases hclashes
      | cons d t =>
          intro hprefix
          obtain ⟨rfl, htail⟩ := List.cons_prefix_cons.mp hprefix
          exact ih (by simpa [clashes] using hclashes) htail

namespace PatternNode

/-- The pattern matches nothing that begins with the text. -/
def refuses (node : PatternNode) (t : Text) : Bool := node.openings.all (clashes · t)

theorem run_of_refuses {node : PatternNode} {t : Text} (hrefuses : node.refuses t = true)
    {rest : Text} {cursor : Cursor} (hcursor : cursor.rest = t ++ rest) (accept : Continuation) :
    node.run false cursor accept = none := by
  cases hrun : node.run false cursor accept with
  | none => rfl
  | some final =>
      obtain ⟨next, hreads, -⟩ := sound_run _ _ _ _ _ hrun
      obtain ⟨word, hword, hopens⟩ := exists_opening hreads
      rw [hcursor] at hopens
      exact absurd hopens (not_prefix_of_clashes (List.all_eq_true.mp hrefuses word hword) rest)

/-- Of all the ways to match, the one that leads to `next` is tried first. -/
def Prefers (node : PatternNode) (cursor next : Cursor) : Prop :=
  ∀ (accept : Continuation) (final : Cursor), accept next = some final →
    node.run false cursor accept = some final

theorem prefers_oneOf {set : CharSet} {c : Char} (hc : set.holds false c = true) (rest : Text)
    (position : Nat) (captures : List (Nat × Text)) :
    (PatternNode.oneOf set).Prefers ⟨position, c :: rest, captures⟩
      ⟨position + 1, rest, captures⟩ := by
  intro accept final haccept
  exact (if_pos hc).trans haccept

theorem Prefers.seq {first second : PatternNode} {cursor middle next : Cursor}
    (hfirst : first.Prefers cursor middle) (hsecond : second.Prefers middle next) :
    (PatternNode.seq first second).Prefers cursor next := by
  intro accept final haccept
  apply hfirst
  exact hsecond accept final haccept

theorem Prefers.group {body : PatternNode} {cursor next : Cursor} (hbody : body.Prefers cursor next)
    {word : Text} (hword : cursor.Advances word next) (index : Nat) :
    (PatternNode.group index body).Prefers cursor
      { next with captures := (index, word) :: next.captures } := by
  intro accept final haccept
  apply hbody
  rwa [hword.take_eq]

theorem run_optional (body : PatternNode) (cursor : Cursor) (accept : Continuation) :
    (PatternNode.repeated 0 (some 1) true body).run false cursor accept =
      (body.run false cursor accept).or (accept cursor) := by
  have hlimit : roundLimit 0 (some 1) cursor = 1 := by simp [roundLimit]
  simp [run, requiredRounds, hlimit, optionalRounds, Option.orElse_eq_or]

theorem Prefers.optional {body : PatternNode} {cursor next : Cursor}
    (hbody : body.Prefers cursor next) :
    (PatternNode.repeated 0 (some 1) true body).Prefers cursor next := by
  intro accept final haccept
  rw [run_optional, hbody accept final haccept, Option.some_or]

/-- What the way of matching that is tried first leaves of the beginning of a text, if that can
be told from this beginning. -/
def leaves : PatternNode → Text → Option Text
  | .empty, t => some t
  | .oneOf set, c :: t => if set.holds false c then some t else none
  | .seq first second, t => (first.leaves t).bind second.leaves
  | .alt first second, t =>
      (first.leaves t).or (if first.refuses t then second.leaves t else none)
  | .group _ body, t => body.leaves t
  | .repeated least most greedy body, t =>
      if least = 0 ∧ most = some 1 ∧ greedy = true then
        (body.leaves t).or (if body.refuses t then some t else none)
      else none
  | _, _ => none

theorem prefers_of_leaves {node : PatternNode} {t left : Text}
    (hleaves : node.leaves t = some left) (rest : Text) (position : Nat)
    (captures : List (Nat × Text)) :
    ∃ word after, t = word ++ left ∧ node.Prefers ⟨position, t ++ rest, captures⟩
      ⟨position + word.length, left ++ rest, after⟩ := by
  induction node generalizing t left position captures with
  | empty =>
      obtain rfl := Option.some.inj hleaves
      exact ⟨[], captures, rfl, fun _ _ haccept => haccept⟩
  | oneOf set =>
      cases t with
      | nil => cases hleaves
      | cons d t =>
          simp only [leaves] at hleaves
          split at hleaves
          · rename_i hd
            obtain rfl := Option.some.inj hleaves
            exact ⟨[d], captures, rfl, prefers_oneOf hd _ position captures⟩
          · cases hleaves
  | seq first second ihfirst ihsecond =>
      obtain ⟨middle, hfirst, hsecond⟩ := Option.bind_eq_some_iff.mp hleaves
      obtain ⟨front, between, rfl, hfront⟩ := ihfirst hfirst position captures
      obtain ⟨back, after, rfl, hback⟩ := ihsecond hsecond (position + front.length) between
      refine ⟨front ++ back, after, by simp, ?_⟩
      rw [List.length_append, ← Nat.add_assoc]
      exact hfront.seq hback
  | alt first second ihfirst ihsecond =>
      rcases Option.or_eq_some_iff.mp hleaves with hfirst | ⟨-, hsecond⟩
      · obtain ⟨word, after, ht, hprefers⟩ := ihfirst hfirst position captures
        refine ⟨word, after, ht, ?_⟩
        intro accept final haccept
        rw [run, hprefers accept final haccept]
        rfl
      · split at hsecond
        · -- The first alternative matches nothing here, whatever is to follow.
          rename_i hrefuses
          obtain ⟨word, after, ht, hprefers⟩ := ihsecond hsecond position captures
          refine ⟨word, after, ht, ?_⟩
          intro accept final haccept
          rw [run, run_of_refuses hrefuses rfl]
          exact hprefers accept final haccept
        · cases hsecond
  | group index body ih =>
      obtain ⟨word, after, rfl, hprefers⟩ := ih hleaves position captures
      refine ⟨word, (index, word) :: after, rfl, hprefers.group ⟨?_, rfl⟩ index⟩
      exact List.append_assoc word left rest
  | repeated least most greedy body ih =>
      simp only [leaves] at hleaves
      split at hleaves
      · rename_i hshape
        obtain ⟨rfl, rfl, rfl⟩ := hshape
        rcases Option.or_eq_some_iff.mp hleaves with hbody | ⟨-, hmissing⟩
        · obtain ⟨word, after, ht, hprefers⟩ := ih hbody position captures
          exact ⟨word, after, ht, hprefers.optional⟩
        · split at hmissing
          · rename_i hrefuses
            obtain rfl := Option.some.inj hmissing
            refine ⟨[], captures, rfl, ?_⟩
            intro accept final haccept
            rw [run_optional, run_of_refuses hrefuses rfl]
            exact haccept
          · cases hmissing
      · cases hleaves
  | any => cases hleaves
  | start => cases hleaves
  | finish => cases hleaves
  | ahead negated body _ => cases hleaves

theorem leaves_of_refuses {node : PatternNode} {t : Text} (hrefuses : node.refuses t = true) :
    node.leaves t = none := by
  rw [Option.eq_none_iff_forall_ne_some]
  intro left hleaves
  obtain ⟨word, after, -, hprefers⟩ := prefers_of_leaves hleaves [] 0 []
  have hrun := hprefers some _ rfl
  rw [run_of_refuses hrefuses rfl] at hrun
  cases hrun

end PatternNode

/-! ## Leads before a digit -/

/-- No text that begins with `lead` and a digit begins with `word`; or none is `word`, if
`ended`. -/
def diverges (ended : Bool) : Text → Text → Bool
  | [], _ => ended
  | c :: _, [] => !Text.isDigit c
  | c :: word, d :: lead => c != d || diverges ended word lead

theorem clashes_of_diverges {word lead : Text} (hdiverges : diverges false word lead = true)
    {c : Char} (hc : Text.isDigit c = true) : clashes word (lead ++ [c]) = true := by
  induction word generalizing lead with
  | nil => cases hdiverges
  | cons d word ih =>
      cases lead with
      | nil =>
          have hne : d ≠ c := by
            rintro rfl
            simp [diverges, hc] at hdiverges
          simpa [clashes] using hne
      | cons e lead =>
          rw [diverges, Bool.or_eq_true] at hdiverges
          rw [List.cons_append, clashes, Bool.or_eq_true]
          exact hdiverges.imp id ih

theorem ne_of_diverges {word lead : Text} (hdiverges : diverges true word lead = true)
    {c : Char} (hc : Text.isDigit c = true) (rest : Text) : word ≠ lead ++ c :: rest := by
  induction word generalizing lead with
  | nil => simp
  | cons d word ih =>
      cases lead with
      | nil =>
          rintro ⟨⟩
          simp [diverges, hc] at hdiverges
      | cons e lead =>
          intro hsame
          obtain ⟨rfl, htail⟩ := List.cons.inj hsame
          exact ih (by simpa [diverges] using hdiverges) htail

namespace PatternNode

/-- The pattern matches nothing that begins with `lead` and a digit. -/
def avoids (node : PatternNode) (lead : Text) : Bool := node.openings.all (diverges false · lead)

theorem refuses_of_avoids {node : PatternNode} {lead : Text} (havoids : node.avoids lead = true)
    {c : Char} (hc : Text.isDigit c = true) : node.refuses (lead ++ [c]) = true := by
  rw [refuses, List.all_eq_true]
  intro word hword
  exact clashes_of_diverges (List.all_eq_true.mp havoids word hword) hc

/-- What is left of a lead in front of a digit after the way of matching that is tried first,
if that can be told from the lead. -/
def passes : PatternNode → Text → Option Text
  | .empty, lead => some lead
  | .oneOf set, c :: lead => if set.holds false c then some lead else none
  | .seq first second, lead => (first.passes lead).bind second.passes
  | .alt first second, lead =>
      (first.passes lead).or (if first.avoids lead then second.passes lead else none)
  | .group _ body, lead => body.passes lead
  | .repeated least most greedy body, lead =>
      if least = 0 ∧ most = some 1 ∧ greedy = true then
        (body.passes lead).or (if body.avoids lead then some lead else none)
      else none
  | _, _ => none

theorem leaves_of_passes {node : PatternNode} {lead left : Text}
    (hpasses : node.passes lead = some left) {c : Char} (hc : Text.isDigit c = true) :
    node.leaves (lead ++ [c]) = some (left ++ [c]) := by
  induction node generalizing lead left with
  | empty =>
      obtain rfl := Option.some.inj hpasses
      rfl
  | oneOf set =>
      cases lead with
      | nil => cases hpasses
      | cons d lead =>
          simp only [passes] at hpasses
          split at hpasses
          · rename_i hd
            obtain rfl := Option.some.inj hpasses
            rw [List.cons_append, leaves, if_pos hd]
          · cases hpasses
  | seq first second ihfirst ihsecond =>
      obtain ⟨middle, hfirst, hsecond⟩ := Option.bind_eq_some_iff.mp hpasses
      rw [leaves, ihfirst hfirst, Option.bind_some, ihsecond hsecond]
  | alt first second ihfirst ihsecond =>
      rcases Option.or_eq_some_iff.mp hpasses with hfirst | ⟨-, hsecond⟩
      · rw [leaves, ihfirst hfirst, Option.some_or]
      · split at hsecond
        · rename_i havoids
          have hrefuses := refuses_of_avoids havoids hc
          rw [leaves, leaves_of_refuses hrefuses, Option.none_or, if_pos hrefuses, ihsecond hsecond]
        · cases hsecond
  | group index body ih => exact ih hpasses
  | repeated least most greedy body ih =>
      simp only [passes] at hpasses
      split at hpasses
      · rename_i hshape
        rw [leaves, if_pos hshape]
        rcases Option.or_eq_some_iff.mp hpasses with hbody | ⟨-, hmissing⟩
        · rw [ih hbody, Option.some_or]
        · split at hmissing
          · rename_i havoids
            obtain rfl := Option.some.inj hmissing
            have hrefuses := refuses_of_avoids havoids hc
            rw [leaves_of_refuses hrefuses, Option.none_or, if_pos hrefuses]
          · cases hmissing
      · cases hpasses
  | any => cases hpasses
  | start => cases hpasses
  | finish => cases hpasses
  | ahead negated body _ => cases hpasses

/-! ## Rounds of single characters -/

/-- Rounds that read a character each go on to the end of a word, if a further round there leads
nowhere. -/
theorem optionalRounds_read {test : Char → Bool} {word : Text} (hword : ∀ c ∈ word, test c = true)
    {limit : Nat} (hlimit : word.length ≤ limit) {last : Option Nat} {position : Nat}
    (hlast : last ≠ some position) {rest : Text} {captures : List (Nat × Text)}
    {accept : Continuation} {final : Cursor}
    (hfurther : ∀ limit, (⟨position + word.length, rest, captures⟩ : Cursor).read test
      (fun next => optionalRounds true (fun cursor accept => cursor.read test accept) limit
        (some (position + word.length)) next accept) = none)
    (haccept : accept ⟨position + word.length, rest, captures⟩ = some final) :
    optionalRounds true (fun cursor accept => cursor.read test accept) limit last
      ⟨position, word ++ rest, captures⟩ accept = some final := by
  induction word generalizing limit last position with
  | nil =>
      cases limit with
      | zero => exact haccept
      | succ limit =>
          have hnone := hfurther limit
          rw [List.nil_append, optionalRounds, if_neg hlast]
          simp only [List.length_nil, Nat.add_zero] at hnone haccept
          simp only [hnone, haccept]
          rfl
  | cons c word ih =>
      obtain ⟨limit, rfl⟩ := Nat.exists_eq_succ_of_ne_zero (Nat.ne_of_gt (Nat.zero_lt_of_lt hlimit))
      have hposition : position + (c :: word).length = position + 1 + word.length := by
        simp only [List.length_cons]
        omega
      rw [hposition] at haccept hfurther
      have hmore := @ih (fun d hd => hword d (List.mem_cons_of_mem c hd)) limit
        (Nat.le_of_succ_le_succ hlimit) (some position) (position + 1) (by simp) hfurther haccept
      rw [optionalRounds, if_neg hlast]
      simp only [List.cons_append, Cursor.read, hword c List.mem_cons_self, if_true]
      simp only [Cursor.read] at hmore
      rw [hmore]
      rfl

/-- The rest of a line: one character or more. -/
def restOfLine : PatternNode := .repeated 1 none true .any

theorem run_restOfLine {word : Text} (hne : word ≠ []) (hword : '\n' ∉ word) {position : Nat}
    {rest : Text} {captures : List (Nat × Text)} {accept : Continuation} {final : Cursor}
    (hfurther : ∀ limit, (⟨position + word.length, rest, captures⟩ : Cursor).read (· != '\n')
      (fun next => optionalRounds true (fun cursor accept => cursor.read (· != '\n') accept) limit
        (some (position + word.length)) next accept) = none)
    (haccept : accept ⟨position + word.length, rest, captures⟩ = some final) :
    restOfLine.run false ⟨position, word ++ rest, captures⟩ accept = some final := by
  obtain ⟨c, word, rfl⟩ := List.exists_cons_of_ne_nil hne
  have hposition : position + (c :: word).length = position + 1 + word.length := by
    simp only [List.length_cons]
    omega
  have hline : ∀ d ∈ c :: word, (d != '\n') = true := by
    intro d hd
    rw [bne_iff_ne]
    rintro rfl
    exact hword hd
  rw [hposition] at haccept hfurther
  have hread : restOfLine.run false ⟨position, c :: word ++ rest, captures⟩ accept =
      optionalRounds true (fun cursor accept => cursor.read (· != '\n') accept)
        ((word ++ rest).length + 1) none ⟨position + 1, word ++ rest, captures⟩ accept := by
    simp [restOfLine, run, requiredRounds, Cursor.read, hline c List.mem_cons_self, roundLimit]
  rw [hread]
  refine optionalRounds_read (fun d hd => hline d (List.mem_cons_of_mem c hd)) ?_ (by simp) hfurther
    haccept
  simp only [List.length_append]
  omega

theorem prefers_restOfLine {key : Text} (hne : key ≠ []) (hkey : '\n' ∉ key) (position : Nat)
    (captures : List (Nat × Text)) :
    restOfLine.Prefers ⟨position, key, captures⟩ ⟨position + key.length, [], captures⟩ := by
  intro accept final haccept
  have hrun := @run_restOfLine key hne hkey position [] captures accept final (fun _ => rfl) haccept
  rwa [List.append_nil] at hrun

end PatternNode

/-! ## Matches of whole texts -/

namespace Pattern

theorem reads_of_matchWhole {pattern : Pattern} {t : Text} {found : Match}
    (hmatch : pattern.matchWhole t = some found) :
    ∃ next, pattern.root.Reads pattern.foldCase { position := 0, rest := t } next ∧
      next.rest = [] ∧ found.captures = next.captures ∧
        found.groupNames = pattern.groupNames := by
  obtain ⟨final, hrun, rfl⟩ := Option.map_eq_some_iff.mp hmatch
  obtain ⟨next, hreads, haccept⟩ := PatternNode.sound_run _ _ _ _ _ hrun
  split at haccept
  · rename_i hend
    obtain rfl := Option.some.inj haccept
    exact ⟨next, hreads, hend, rfl, rfl⟩
  · cases haccept

/-- The pattern has a group of this name. -/
def knows (pattern : Pattern) (name : Text) : Bool := (pattern.groupNames.get? name).isSome

/-- The pattern has a group of this name that takes part in every match. -/
def offers (pattern : Pattern) (name : Text) : Bool :=
  (pattern.groupNames.get? name).any (pattern.root.sureGroups.contains ·)

variable {pattern : Pattern} {t : Text} {found : Match}

theorem named_of_knows (hmatch : pattern.matchWhole t = some found) {name : Text}
    (hname : pattern.knows name = true) : ∃ group, found.named name = .ok group := by
  obtain ⟨next, -, -, -, hnames⟩ := reads_of_matchWhole hmatch
  obtain ⟨index, hindex⟩ := Option.isSome_iff_exists.mp hname
  exact ⟨found.group? index, by rw [Match.named, hnames, hindex]⟩

theorem text_of_group {index : Nat} {name group : Text}
    (hname : found.groupNames.get? name = some (index + 1))
    (hgroup : found.captures.lookup (index + 1) = some group) : found.text name = .ok group := by
  simp [Match.text, Match.named, hname, Match.group?, hgroup, ok_bind]

theorem text_of_offers (hmatch : pattern.matchWhole t = some found) {name : Text}
    (hname : pattern.offers name = true) : ∃ group, found.text name = .ok group := by
  obtain ⟨next, hreads, -, hcaptures, hnames⟩ := reads_of_matchWhole hmatch
  obtain ⟨index, hindex, hsure⟩ := (Option.any_eq_true _ _).mp hname
  rw [← hnames] at hindex
  have htaken := PatternNode.isSome_lookup_of_sureGroups hreads (List.contains_iff_mem.mp hsure)
  obtain ⟨group, hgroup⟩ := Option.isSome_iff_exists.mp htaken
  rw [← hcaptures] at hgroup
  cases index with
  | zero => exact ⟨found.whole, by simp [Match.text, Match.named, hindex, Match.group?, ok_bind]⟩
  | succ index => exact ⟨group, text_of_group hindex hgroup⟩

/-- What stands before the group of this name, if the group takes the rest of the line. -/
def front? (pattern : Pattern) (name : Text) : Option PatternNode :=
  match pattern.root with
  | .seq front (.group (index + 1) (.repeated 1 none true .any)) =>
      if pattern.groupNames.get? name = some (index + 1) ∧ pattern.foldCase = false then some front
      else none
  | _ => none

theorem root_of_front? {name : Text} {front : PatternNode}
    (hfront : pattern.front? name = some front) :
    pattern.foldCase = false ∧ ∃ index, pattern.groupNames.get? name = some (index + 1) ∧
      pattern.root = .seq front (.group (index + 1) PatternNode.restOfLine) := by
  unfold front? at hfront
  split at hfront
  · rename_i first index hroot
    split at hfront
    · rename_i hnamed
      obtain rfl := Option.some.inj hfront
      exact ⟨hnamed.2, index, hnamed.1, hroot⟩
    · cases hfront
  · cases hfront

/-- A match is a word of the front and the text of the group. -/
theorem text_of_front? {name : Text} {front : PatternNode} {words : List Text}
    (hfront : pattern.front? name = some front) (hwords : front.words? = some words)
    (hmatch : pattern.matchWhole t = some found) :
    ∃ lead ∈ words, ∃ key, t = lead ++ key ∧ '\n' ∉ key ∧ found.text name = .ok key := by
  obtain ⟨hfold, index, hindex, hroot⟩ := root_of_front? hfront
  obtain ⟨next, hreads, hend, hcaptures, hnames⟩ := reads_of_matchWhole hmatch
  rw [hroot, hfold] at hreads
  obtain ⟨middle, hlead, inner, ⟨count, -, -, hrounds⟩, rfl⟩ := hreads
  obtain ⟨lead, hmem, hlead⟩ := PatternNode.advances_of_words? hwords hlead
  obtain ⟨key, -, hline, hkey, -⟩ := hrounds.reads_word (PatternNode.readsChar_any false)
  refine ⟨lead, hmem, key, ?_, fun hnewline => hline _ hnewline rfl, ?_⟩
  · have hrest : inner.rest = [] := hend
    have htext := hlead.rest
    rwa [hkey.rest, hrest, List.append_nil] at htext
  · apply text_of_group (hnames ▸ hindex)
    rw [hcaptures, List.lookup_cons_self, hkey.take_eq]

/-- The group takes what follows a lead, if the lead is told from what follows by some of it. -/
theorem exists_match_of_leaves {name lead first : Text} {front : PatternNode}
    (hfront : pattern.front? name = some front) (hleaves : front.leaves (lead ++ first) = some first)
    {rest : Text} (hfirst : first ++ rest ≠ []) (hline : '\n' ∉ first ++ rest) :
    ∃ found, pattern.matchWhole (lead ++ (first ++ rest)) = some found ∧
      found.text name = .ok (first ++ rest) := by
  obtain ⟨hfold, index, hindex, hroot⟩ := root_of_front? hfront
  obtain ⟨word, after, -, hprefers⟩ := PatternNode.prefers_of_leaves hleaves rest 0 []
  have hvalue := PatternNode.prefers_restOfLine hfirst hline (0 + word.length) after
  have hgroup := hvalue.group ⟨(List.append_nil _).symm, rfl⟩ (index + 1)
  have hrun : pattern.root.run pattern.foldCase ⟨0, lead ++ (first ++ rest), []⟩
      (fun cursor => if cursor.rest = [] then some cursor else none) =
      some ⟨0 + word.length + (first ++ rest).length, [], (index + 1, first ++ rest) :: after⟩ := by
    rw [hroot, hfold, ← List.append_assoc]
    apply hprefers.seq hgroup
    rfl
  refine ⟨_, congrArg (Option.map _) hrun, ?_⟩
  exact text_of_group hindex List.lookup_cons_self

theorem exists_match_of_front? {name lead : Text} {front : PatternNode}
    (hfront : pattern.front? name = some front) (hpasses : front.passes lead = some [])
    {c : Char} (hc : Text.isDigit c = true) {rest : Text} (hline : '\n' ∉ c :: rest) :
    ∃ found, pattern.matchWhole (lead ++ c :: rest) = some found ∧
      found.text name = .ok (c :: rest) :=
  exists_match_of_leaves hfront (PatternNode.leaves_of_passes hpasses hc)
    (List.cons_ne_nil c rest) hline

/-- No text that begins with a lead which the pattern avoids is matched in front of a digit. -/
theorem matchWhole_of_avoids (hfold : pattern.foldCase = false) {lead : Text}
    (havoids : pattern.root.avoids lead = true) {c : Char} (hc : Text.isDigit c = true)
    (rest : Text) : pattern.matchWhole (lead ++ c :: rest) = none := by
  have hrefuses := PatternNode.refuses_of_avoids havoids hc
  rw [matchWhole, matchAt, hfold, PatternNode.run_of_refuses hrefuses (List.append_cons lead c rest)]
  rfl

end Pattern

end UtilityCss
