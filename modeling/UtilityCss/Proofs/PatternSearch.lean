import UtilityCss.Proofs.BracketPatterns

/-!
# What a search finds

Where a pattern reads a part of a text, the matcher finds a match, if nothing is looked at
without being read and every round of a repetition reads something. For such patterns to be
found is the same as to be read, without the order of trying. A pattern that begins with the
start of the text is found there or nowhere.

Two shapes of such patterns run from the start to the end of a text, or to a newline that ends
it. The one matches a few texts, the other a few leads with the rest of a line behind them. For
both, the texts in which they are found can be read off the tree.
-/

namespace UtilityCss

/-! ## Every match is found -/

/-- A step moves the cursor behind some text. -/
def Moves (step : Cursor → Cursor → Prop) : Prop :=
  ∀ ⦃cursor next⦄, step cursor next → ∃ word, word ≠ [] ∧ cursor.Advances word next

theorem Rounds.split {step : Cursor → Cursor → Prop} {first second : Nat} {cursor next : Cursor}
    (hrounds : Rounds step (first + second) cursor next) :
    ∃ middle, Rounds step first cursor middle ∧ Rounds step second middle next := by
  induction first generalizing cursor with
  | zero =>
      rw [Nat.zero_add] at hrounds
      exact ⟨cursor, .zero cursor, hrounds⟩
  | succ first ih =>
      rw [Nat.succ_add] at hrounds
      cases hrounds with
      | succ hstep hmore =>
          obtain ⟨middle, hfirst, hsecond⟩ := ih hmore
          exact ⟨middle, .succ hstep hfirst, hsecond⟩

/-- There are no more rounds than characters, if each round moves on. -/
theorem Rounds.count_le {step : Cursor → Cursor → Prop} (hmoves : Moves step) {count : Nat}
    {cursor next : Cursor} (hrounds : Rounds step count cursor next) :
    count ≤ cursor.rest.length := by
  induction hrounds with
  | zero => exact Nat.zero_le _
  | succ hfirst _ ih =>
      obtain ⟨word, hne, hadvance⟩ := hmoves hfirst
      have hlength := List.length_pos_of_ne_nil hne
      rw [hadvance.rest, List.length_append]
      omega

namespace PatternNode

/-- Every match reads a character at least. -/
def consumes : PatternNode → Bool
  | .oneOf _ => true
  | .any => true
  | .seq first second => first.consumes || second.consumes
  | .alt first second => first.consumes && second.consumes
  | .group _ body => body.consumes
  | .repeated least _ _ body => least != 0 && body.consumes
  | _ => false

/-- Nothing is looked at without being read, and every round of a repetition reads something. -/
def plain : PatternNode → Bool
  | .seq first second => first.plain && second.plain
  | .alt first second => first.plain && second.plain
  | .group _ body => body.plain
  | .ahead _ _ => false
  | .repeated _ _ _ body => body.plain && body.consumes
  | _ => true

theorem moves_of_consumes {node : PatternNode} (hconsumes : node.consumes = true) :
    Moves (node.Reads false) := by
  induction node with
  | oneOf set =>
      intro cursor next hreads
      obtain ⟨c, -, hadvance, -⟩ := readsChar_oneOf false set cursor next hreads
      exact ⟨[c], List.cons_ne_nil c [], hadvance⟩
  | any =>
      intro cursor next hreads
      obtain ⟨c, -, hadvance, -⟩ := readsChar_any false cursor next hreads
      exact ⟨[c], List.cons_ne_nil c [], hadvance⟩
  | seq first second ihfirst ihsecond =>
      rintro cursor next ⟨middle, hfirst, hsecond⟩
      rw [consumes, Bool.or_eq_true] at hconsumes
      rcases hconsumes with hconsumes | hconsumes
      · obtain ⟨front, hne, hfront⟩ := ihfirst hconsumes hfirst
        obtain ⟨back, hback, -⟩ := exists_word hsecond
        exact ⟨front ++ back, by simp [hne], hfront.trans hback⟩
      · obtain ⟨front, hfront, -⟩ := exists_word hfirst
        obtain ⟨back, hne, hback⟩ := ihsecond hconsumes hsecond
        exact ⟨front ++ back, by simp [hne], hfront.trans hback⟩
  | alt first second ihfirst ihsecond =>
      rintro cursor next (hfirst | hsecond)
      · exact ihfirst (Bool.and_eq_true_iff.mp hconsumes).1 hfirst
      · exact ihsecond (Bool.and_eq_true_iff.mp hconsumes).2 hsecond
  | group index body ih =>
      rintro cursor next ⟨inner, hinner, rfl⟩
      obtain ⟨word, hne, hadvance⟩ := ih hconsumes hinner
      exact ⟨word, hne, ⟨hadvance.rest, hadvance.position⟩⟩
  | repeated least most greedy body ih =>
      rintro cursor next ⟨count, hleast, -, hrounds⟩
      rw [consumes, Bool.and_eq_true, bne_iff_ne] at hconsumes
      -- There is a first round, and it reads something.
      cases hrounds with
      | zero => omega
      | succ hfirst hmore =>
          obtain ⟨front, hne, hfront⟩ := ih hconsumes.2 hfirst
          obtain ⟨back, hback, -⟩ := exists_word_of_rounds exists_word hmore
          exact ⟨front ++ back, by simp [hne], hfront.trans hback⟩
  | empty => cases hconsumes
  | start => cases hconsumes
  | finish => cases hconsumes
  | ahead negated body _ => cases hconsumes

/-- A computation with a continuation accepts what the continuation accepts after a step. -/
def Complete (step : Cursor → Cursor → Prop) (body : Cursor → Continuation → Option Cursor) :
    Prop :=
  ∀ ⦃cursor next : Cursor⦄ ⦃accept : Continuation⦄, step cursor next → (accept next).isSome →
    (body cursor accept).isSome

theorem complete_requiredRounds {step : Cursor → Cursor → Prop}
    {body : Cursor → Continuation → Option Cursor} (hbody : Complete step body) (count : Nat) :
    Complete (Rounds step count) (requiredRounds body count) := by
  intro cursor next accept hrounds haccept
  induction hrounds with
  | zero cursor => exact haccept
  | succ hfirst _ ih => exact hbody hfirst (ih haccept)

/-- Optional rounds are all tried, as far as each moves on. -/
theorem isSome_optionalRounds {step : Cursor → Cursor → Prop}
    {body : Cursor → Continuation → Option Cursor} (hbody : Complete step body)
    (hmoves : Moves step) (greedy : Bool) {count limit : Nat} (hlimit : count ≤ limit)
    {last : Option Nat} {cursor next : Cursor} (hlast : last ≠ some cursor.position)
    {accept : Continuation} (hrounds : Rounds step count cursor next)
    (haccept : (accept next).isSome) :
    (optionalRounds greedy body limit last cursor accept).isSome := by
  induction hrounds generalizing limit last with
  | zero cursor =>
      cases limit with
      | zero => exact haccept
      | succ limit =>
          rw [optionalRounds, if_neg hlast]
          cases greedy <;> simp [Option.orElse_eq_or, haccept]
  | @succ count first second third hfirst _ ih =>
      obtain ⟨limit, rfl⟩ := Nat.exists_eq_succ_of_ne_zero (Nat.ne_of_gt (Nat.zero_lt_of_lt hlimit))
      obtain ⟨word, hne, hadvance⟩ := hmoves hfirst
      have hapart : some first.position ≠ some second.position := by
        have hlength := List.length_pos_of_ne_nil hne
        have hposition := hadvance.position
        simp only [ne_eq, Option.some.injEq]
        omega
      have hrest : (optionalRounds greedy body limit (some first.position) second accept).isSome :=
        ih (Nat.le_of_succ_le_succ hlimit) hapart haccept
      have hanother : (body first fun next =>
          optionalRounds greedy body limit (some first.position) next accept).isSome :=
        hbody hfirst hrest
      rw [optionalRounds, if_neg hlast]
      cases greedy <;> simp [Option.orElse_eq_or, hanother]

/-- What a plain pattern reads, the matcher finds. -/
theorem complete_run {node : PatternNode} (hplain : node.plain = true) :
    Complete (node.Reads false) (node.run false) := by
  induction node with
  | empty =>
      rintro cursor next accept rfl haccept
      exact haccept
  | oneOf set =>
      rintro cursor next accept ⟨c, rest, hrest, hc, rfl⟩ haccept
      simpa [run, Cursor.read, hrest, hc] using haccept
  | any =>
      rintro cursor next accept ⟨c, rest, hrest, hc, rfl⟩ haccept
      simpa [run, Cursor.read, hrest, hc] using haccept
  | start =>
      rintro cursor next accept ⟨hposition, rfl⟩ haccept
      simpa [run, hposition] using haccept
  | finish =>
      rintro cursor next accept ⟨hfinish, rfl⟩ haccept
      simpa [run, hfinish] using haccept
  | seq first second ihfirst ihsecond =>
      rintro cursor next accept ⟨middle, hfirst, hsecond⟩ haccept
      obtain ⟨hplain, hlater⟩ := Bool.and_eq_true_iff.mp hplain
      exact ihfirst hplain hfirst (ihsecond hlater hsecond haccept)
  | alt first second ihfirst ihsecond =>
      intro cursor next accept hreads haccept
      obtain ⟨hplain, hlater⟩ := Bool.and_eq_true_iff.mp hplain
      rw [run, Option.orElse_eq_or, Option.isSome_or, Bool.or_eq_true]
      rcases hreads with hfirst | hsecond
      · exact .inl (ihfirst hplain hfirst haccept)
      · exact .inr (ihsecond hlater hsecond haccept)
  | group index body ih =>
      rintro cursor next accept ⟨inner, hinner, rfl⟩ haccept
      exact ih hplain hinner haccept
  | ahead negated body _ => cases hplain
  | repeated least most greedy body ih =>
      rintro cursor next accept ⟨count, hleast, hmost, hrounds⟩ haccept
      obtain ⟨hplain, hconsumes⟩ := Bool.and_eq_true_iff.mp hplain
      have hmoves : Moves (body.Reads false) := moves_of_consumes hconsumes
      obtain ⟨more, rfl⟩ := Nat.exists_eq_add_of_le hleast
      obtain ⟨middle, hrequired, hoptional⟩ := hrounds.split
      refine complete_requiredRounds (ih hplain) least hrequired ?_
      refine isSome_optionalRounds (ih hplain) hmoves greedy ?_ (by simp) hoptional haccept
      have hcount := hoptional.count_le hmoves
      unfold roundLimit
      cases most with
      | none => exact Nat.le_succ_of_le hcount
      | some bound =>
          have hbound := hmost bound rfl
          simp only [Nat.le_min]
          omega

/-! ## Blanks that are read -/

/-- Every match reads a blank. -/
def readsBlank : PatternNode → Bool
  | .oneOf set => set = ⟨false, [.named .blank false]⟩
  | .seq first second => first.readsBlank || second.readsBlank
  | .alt first second => first.readsBlank && second.readsBlank
  | .group _ body => body.readsBlank
  | .repeated least _ _ body => least != 0 && body.readsBlank
  | _ => false

theorem exists_blank {node : PatternNode} (hblank : node.readsBlank = true) {cursor next : Cursor}
    (hreads : node.Reads false cursor next) : ∃ c ∈ cursor.rest, Text.isBlank c = true := by
  induction node generalizing cursor next with
  | oneOf set =>
      obtain ⟨c, rest, hrest, hc, -⟩ := hreads
      obtain rfl : set = ⟨false, [.named .blank false]⟩ := of_decide_eq_true hblank
      refine ⟨c, by simp [hrest], ?_⟩
      simpa [CharSet.holds, SetItem.holds, CharKind.holds] using hc
  | seq first second ihfirst ihsecond =>
      obtain ⟨middle, hfirst, hsecond⟩ := hreads
      rcases (Bool.or_eq_true _ _).mp hblank with hblank | hblank
      · exact ihfirst hblank hfirst
      · obtain ⟨word, hadvance, -⟩ := exists_word hfirst
        obtain ⟨c, hc, hholds⟩ := ihsecond hblank hsecond
        exact ⟨c, by simp [hadvance.rest, hc], hholds⟩
  | alt first second ihfirst ihsecond =>
      obtain ⟨hleft, hright⟩ := Bool.and_eq_true_iff.mp hblank
      rcases hreads with hfirst | hsecond
      · exact ihfirst hleft hfirst
      · exact ihsecond hright hsecond
  | group index body ih =>
      obtain ⟨inner, hinner, -⟩ := hreads
      exact ih hblank hinner
  | repeated least most greedy body ih =>
      obtain ⟨count, hleast, -, hrounds⟩ := hreads
      rw [readsBlank, Bool.and_eq_true, bne_iff_ne] at hblank
      cases hrounds with
      | zero => omega
      | succ hfirst _ => exact ih hblank.2 hfirst
  | empty => cases hblank
  | any => cases hblank
  | start => cases hblank
  | finish => cases hblank
  | ahead negated body _ => cases hblank

/-! ## Words with what is remembered of them -/

theorem holds_of_mem_singles? {items : List SetItem} {chars : List Char} {c : Char}
    (hsingles : singles? items = some chars) (hc : c ∈ chars) :
    items.any (·.holds c) = true := by
  induction items generalizing chars with
  | nil =>
      obtain rfl := Option.some.inj hsingles
      cases hc
  | cons item rest ih =>
      cases item with
      | single d =>
          obtain ⟨others, hothers, rfl⟩ := Option.map_eq_some_iff.mp hsingles
          rw [List.any_cons, Bool.or_eq_true]
          rcases List.mem_cons.mp hc with rfl | hc
          · exact .inl (beq_self_eq_true c)
          · exact .inr (ih hothers hc)
      | range lowest highest => cases hsingles
      | named kind negated => cases hsingles

theorem holds_iff_of_members? {set : CharSet} {chars : List Char}
    (hmembers : members? set = some chars) (c : Char) :
    set.holds false c = true ↔ c ∈ chars := by
  refine ⟨mem_of_members? hmembers, ?_⟩
  intro hc
  unfold members? at hmembers
  split at hmembers
  · cases hmembers
  · rename_i hnegated
    simpa [CharSet.holds, hnegated] using holds_of_mem_singles? hmembers hc

/-- The words that a pattern can read, each with what its groups remember of it, latest first, if
the pattern is made of listed characters without repetition. -/
def readings? : PatternNode → Option (List (Text × List (Nat × Text)))
  | .empty => some [([], [])]
  | .oneOf set => (members? set).map (·.map fun c => ([c], []))
  | .seq first second => do
      let fronts ← first.readings?
      let backs ← second.readings?
      some (fronts.flatMap fun front =>
        backs.map fun back => (front.1 ++ back.1, back.2 ++ front.2))
  | .alt first second => do
      let readings ← first.readings?
      let others ← second.readings?
      some (readings ++ others)
  | .group index body =>
      body.readings?.map (·.map fun reading => (reading.1, (index, reading.1) :: reading.2))
  | _ => none

end PatternNode

/-- The cursor has moved behind a word, and the groups remember what belongs to the word. -/
structure Cursor.Takes (cursor : Cursor) (reading : Text × List (Nat × Text)) (next : Cursor) :
    Prop where
  advances : cursor.Advances reading.1 next
  captures : next.captures = reading.2 ++ cursor.captures

namespace PatternNode

theorem takes_of_readings? {node : PatternNode} {readings : List (Text × List (Nat × Text))}
    (hreadings : node.readings? = some readings) {cursor next : Cursor}
    (hreads : node.Reads false cursor next) : ∃ reading ∈ readings, cursor.Takes reading next := by
  induction node generalizing readings cursor next with
  | empty =>
      obtain rfl := hreads
      obtain rfl := Option.some.inj hreadings
      exact ⟨([], []), List.mem_singleton.mpr rfl, ⟨.refl _, rfl⟩⟩
  | oneOf set =>
      obtain ⟨chars, hchars, rfl⟩ := Option.map_eq_some_iff.mp hreadings
      obtain ⟨c, hc, hadvance, hkept⟩ := readsChar_oneOf false set cursor next hreads
      exact ⟨([c], []), List.mem_map_of_mem (mem_of_members? hchars hc), ⟨hadvance, hkept⟩⟩
  | seq first second ihfirst ihsecond =>
      obtain ⟨middle, hfirst, hsecond⟩ := hreads
      obtain ⟨fronts, hfronts, hreadings⟩ := Option.bind_eq_some_iff.mp hreadings
      obtain ⟨backs, hbacks, hreadings⟩ := Option.bind_eq_some_iff.mp hreadings
      obtain rfl := Option.some.inj hreadings
      obtain ⟨front, hfront, hmiddle⟩ := ihfirst hfronts hfirst
      obtain ⟨back, hback, hnext⟩ := ihsecond hbacks hsecond
      refine ⟨(front.1 ++ back.1, back.2 ++ front.2), ?_, ?_, ?_⟩
      · exact List.mem_flatMap.mpr ⟨front, hfront, List.mem_map_of_mem hback⟩
      · exact hmiddle.advances.trans hnext.advances
      · rw [hnext.captures, hmiddle.captures, List.append_assoc]
  | alt first second ihfirst ihsecond =>
      obtain ⟨lefts, hlefts, hreadings⟩ := Option.bind_eq_some_iff.mp hreadings
      obtain ⟨rights, hrights, hreadings⟩ := Option.bind_eq_some_iff.mp hreadings
      obtain rfl := Option.some.inj hreadings
      rcases hreads with hfirst | hsecond
      · obtain ⟨reading, hreading, htakes⟩ := ihfirst hlefts hfirst
        exact ⟨reading, List.mem_append_left _ hreading, htakes⟩
      · obtain ⟨reading, hreading, htakes⟩ := ihsecond hrights hsecond
        exact ⟨reading, List.mem_append_right _ hreading, htakes⟩
  | group index body ih =>
      obtain ⟨inner, hinner, rfl⟩ := hreads
      obtain ⟨others, hothers, rfl⟩ := Option.map_eq_some_iff.mp hreadings
      obtain ⟨reading, hreading, htakes⟩ := ih hothers hinner
      refine ⟨(reading.1, (index, reading.1) :: reading.2), List.mem_map_of_mem hreading, ?_, ?_⟩
      · exact ⟨htakes.advances.rest, htakes.advances.position⟩
      · rw [htakes.advances.take_eq, htakes.captures]
        rfl
  | any => cases hreadings
  | start => cases hreadings
  | finish => cases hreadings
  | ahead negated body _ => cases hreadings
  | repeated least most greedy body _ => cases hreadings

theorem reads_of_readings? {node : PatternNode} {readings : List (Text × List (Nat × Text))}
    (hreadings : node.readings? = some readings) {reading : Text × List (Nat × Text)}
    (hreading : reading ∈ readings) {cursor next : Cursor} (htakes : cursor.Takes reading next) :
    node.Reads false cursor next := by
  induction node generalizing readings reading cursor next with
  | empty =>
      obtain rfl := Option.some.inj hreadings
      obtain rfl := List.mem_singleton.mp hreading
      obtain ⟨⟨hrest, hposition⟩, hcaptures⟩ := htakes
      cases cursor
      cases next
      simp_all [Reads]
  | oneOf set =>
      obtain ⟨chars, hchars, rfl⟩ := Option.map_eq_some_iff.mp hreadings
      obtain ⟨c, hc, rfl⟩ := List.mem_map.mp hreading
      obtain ⟨⟨hrest, hposition⟩, hcaptures⟩ := htakes
      refine ⟨c, next.rest, hrest, (holds_iff_of_members? hchars c).mpr hc, ?_⟩
      cases next
      simp_all
  | seq first second ihfirst ihsecond =>
      obtain ⟨fronts, hfronts, hreadings⟩ := Option.bind_eq_some_iff.mp hreadings
      obtain ⟨backs, hbacks, hreadings⟩ := Option.bind_eq_some_iff.mp hreadings
      obtain rfl := Option.some.inj hreadings
      obtain ⟨front, hfront, hreading⟩ := List.mem_flatMap.mp hreading
      obtain ⟨back, hback, rfl⟩ := List.mem_map.mp hreading
      obtain ⟨⟨hrest, hposition⟩, hcaptures⟩ := htakes
      dsimp only at hrest hposition hcaptures
      rw [List.append_assoc] at hrest hcaptures
      rw [List.length_append, ← Nat.add_assoc] at hposition
      refine ⟨⟨cursor.position + front.1.length, back.1 ++ next.rest, front.2 ++ cursor.captures⟩,
        ihfirst hfronts hfront ?_, ihsecond hbacks hback ?_⟩
      · exact ⟨⟨hrest, rfl⟩, rfl⟩
      · exact ⟨⟨rfl, hposition⟩, hcaptures⟩
  | alt first second ihfirst ihsecond =>
      obtain ⟨lefts, hlefts, hreadings⟩ := Option.bind_eq_some_iff.mp hreadings
      obtain ⟨rights, hrights, hreadings⟩ := Option.bind_eq_some_iff.mp hreadings
      obtain rfl := Option.some.inj hreadings
      rcases List.mem_append.mp hreading with hreading | hreading
      · exact .inl (ihfirst hlefts hreading htakes)
      · exact .inr (ihsecond hrights hreading htakes)
  | group index body ih =>
      obtain ⟨others, hothers, rfl⟩ := Option.map_eq_some_iff.mp hreadings
      obtain ⟨inner, hinner, rfl⟩ := List.mem_map.mp hreading
      obtain ⟨hadvance, hcaptures⟩ := htakes
      -- The body leads to the same place, where its own groups remember their part.
      have hbody : cursor.Takes inner { next with captures := inner.2 ++ cursor.captures } :=
        ⟨⟨hadvance.rest, hadvance.position⟩, rfl⟩
      refine ⟨_, ih hothers hinner hbody, ?_⟩
      rw [hbody.advances.take_eq]
      cases next
      simpa using hcaptures
  | any => cases hreadings
  | start => cases hreadings
  | finish => cases hreadings
  | ahead negated body _ => cases hreadings
  | repeated least most greedy body _ => cases hreadings

/-! ## The rest of a line -/

theorem takes_of_restOfLine {cursor next : Cursor} (hreads : restOfLine.Reads false cursor next) :
    ∃ key : Text, key ≠ [] ∧ '\n' ∉ key ∧ cursor.Takes (key, []) next := by
  obtain ⟨count, hleast, -, hrounds⟩ := hreads
  obtain ⟨key, hlength, hline, hadvance, hkept⟩ := hrounds.reads_word (readsChar_any false)
  refine ⟨key, ?_, fun hnewline => hline _ hnewline rfl, hadvance, hkept⟩
  rintro rfl
  simp only [List.length_nil] at hlength
  omega

theorem rounds_of_line {key : Text} (hkey : '\n' ∉ key) (rest : Text) (position : Nat)
    (captures : List (Nat × Text)) :
    Rounds (fun before after => PatternNode.any.Reads false before after) key.length
      ⟨position, key ++ rest, captures⟩ ⟨position + key.length, rest, captures⟩ := by
  induction key generalizing position with
  | nil => exact .zero _
  | cons c key ih =>
      obtain ⟨hc, htail⟩ := not_or.mp (fun hmem => hkey (List.mem_cons.mpr hmem))
      have hmore := ih htail (position + 1)
      have hposition : position + 1 + key.length = position + (c :: key).length := by
        simp only [List.length_cons]
        omega
      rw [hposition] at hmore
      exact .succ ⟨c, key ++ rest, rfl, Ne.symm hc, rfl⟩ hmore

theorem reads_restOfLine {key : Text} (hne : key ≠ []) (hkey : '\n' ∉ key) (rest : Text)
    (position : Nat) (captures : List (Nat × Text)) :
    restOfLine.Reads false ⟨position, key ++ rest, captures⟩
      ⟨position + key.length, rest, captures⟩ :=
  ⟨key.length, List.length_pos_of_ne_nil hne, by simp, rounds_of_line hkey rest position captures⟩

/-! ## Patterns that begin at the start -/

/-- What follows the start of the text in a pattern that begins with it. -/
def afterStart? : PatternNode → Option PatternNode
  | .start => some .empty
  | .seq first second => first.afterStart?.map (.seq · second)
  | _ => none

theorem reads_iff_of_afterStart? {node body : PatternNode} (hbody : node.afterStart? = some body)
    {foldCase : Bool} {cursor next : Cursor} :
    node.Reads foldCase cursor next ↔ cursor.position = 0 ∧ body.Reads foldCase cursor next := by
  induction node generalizing body next with
  | start =>
      obtain rfl := Option.some.inj hbody
      rfl
  | seq first second ih _ =>
      obtain ⟨rest, hrest, rfl⟩ := Option.map_eq_some_iff.mp hbody
      constructor
      · rintro ⟨middle, hfirst, hsecond⟩
        obtain ⟨hposition, hfirst⟩ := (ih hrest).mp hfirst
        exact ⟨hposition, middle, hfirst, hsecond⟩
      · rintro ⟨hposition, middle, hfirst, hsecond⟩
        exact ⟨middle, (ih hrest).mpr ⟨hposition, hfirst⟩, hsecond⟩
  | empty => cases hbody
  | oneOf set => cases hbody
  | any => cases hbody
  | finish => cases hbody
  | alt first second _ _ => cases hbody
  | group index body _ => cases hbody
  | ahead negated body _ => cases hbody
  | repeated least most greedy body _ => cases hbody

end PatternNode

/-! ## Searching -/

/-- The end of a text, or a newline that ends it. -/
def Text.IsEnding (t : Text) : Prop := t = [] ∨ t = ['\n']

theorem Cursor.atFinish_iff (cursor : Cursor) : cursor.atFinish = true ↔ cursor.rest.IsEnding := by
  simp [Cursor.atFinish, Text.IsEnding]

namespace Pattern

variable {pattern : Pattern} {t : Text} {found : Match}

theorem exists_matchAt_of_searchFrom {before : Text}
    (hsearch : pattern.searchFrom before t = some found) :
    ∃ front rest, t = front ++ rest ∧ pattern.matchAt (before ++ front) rest some = some found := by
  induction t generalizing before with
  | nil => exact ⟨[], [], rfl, by simpa [searchFrom] using hsearch⟩
  | cons c t ih =>
      rw [searchFrom, Option.orElse_eq_or, Option.or_eq_some_iff] at hsearch
      rcases hsearch with hhere | ⟨-, hlater⟩
      · exact ⟨[], c :: t, rfl, by simpa using hhere⟩
      · obtain ⟨front, rest, rfl, hmatch⟩ := ih hlater
        exact ⟨c :: front, rest, rfl, by simpa using hmatch⟩

/-- What is found is read by the pattern, from the end of the text before it on. -/
theorem reads_of_search (hsearch : pattern.search t = some found) :
    ∃ rest next, t = found.before ++ rest ∧
      pattern.root.Reads pattern.foldCase { position := found.before.length, rest } next ∧
      found.after = next.rest ∧ found.captures = next.captures ∧
      found.groupCount = pattern.groupCount := by
  obtain ⟨front, rest, rfl, hmatch⟩ := exists_matchAt_of_searchFrom hsearch
  obtain ⟨final, hrun, rfl⟩ := Option.map_eq_some_iff.mp hmatch
  obtain ⟨next, hreads, haccept⟩ := PatternNode.sound_run _ _ _ _ _ hrun
  obtain rfl := Option.some.inj haccept
  exact ⟨rest, next, rfl, hreads, rfl, rfl, rfl⟩

/-- A plain pattern is found where it reads from the start. -/
theorem isSome_search_of_reads (hplain : pattern.root.plain = true)
    (hfold : pattern.foldCase = false) {next : Cursor}
    (hreads : pattern.root.Reads false { position := 0, rest := t } next) :
    (pattern.search t).isSome := by
  have hrun : (pattern.root.run false { position := 0, rest := t } some).isSome :=
    PatternNode.complete_run hplain hreads rfl
  have hmatch : (pattern.matchAt [] t some).isSome := by
    rw [matchAt, Option.isSome_map, hfold]
    exact hrun
  cases t with
  | nil => exact hmatch
  | cons c t =>
      rw [search, searchFrom, Option.orElse_eq_or, Option.isSome_or, hmatch]
      rfl

/-- A pattern that reads a blank is found in texts with a blank only. -/
theorem exists_blank_of_search (hblank : pattern.root.readsBlank = true)
    (hfold : pattern.foldCase = false) (hsearch : pattern.search t = some found) :
    ∃ c ∈ t, Text.isBlank c = true := by
  obtain ⟨rest, next, ht, hreads, -⟩ := reads_of_search hsearch
  rw [hfold] at hreads
  obtain ⟨c, hc, hholds⟩ := PatternNode.exists_blank hblank hreads
  exact ⟨c, by rw [ht]; exact List.mem_append_right _ hc, hholds⟩

/-- What stands between the start and the end, if a plain pattern is for all of a text. -/
def between? (pattern : Pattern) : Option PatternNode :=
  match pattern.root with
  | .seq body .finish =>
      if pattern.root.plain = true ∧ pattern.foldCase = false then body.afterStart? else none
  | _ => none

theorem root_of_between? {body : PatternNode} (hbetween : pattern.between? = some body) :
    pattern.root.plain = true ∧ pattern.foldCase = false ∧
      ∃ node, node.afterStart? = some body ∧ pattern.root = .seq node .finish := by
  unfold between? at hbetween
  split at hbetween
  · rename_i node hroot
    split at hbetween
    · rename_i hplain
      exact ⟨hplain.1, hplain.2, node, hbetween, hroot⟩
    · cases hbetween
  · cases hbetween

/-- What is found of such a pattern begins with the text and goes on to its end. -/
theorem reads_between {body : PatternNode} (hbetween : pattern.between? = some body)
    (hsearch : pattern.search t = some found) :
    ∃ next, body.Reads false { position := 0, rest := t } next ∧ found.before = [] ∧
      found.after = next.rest ∧ next.rest.IsEnding ∧ found.captures = next.captures ∧
      found.groupCount = pattern.groupCount := by
  obtain ⟨-, hfold, node, hnode, hroot⟩ := root_of_between? hbetween
  obtain ⟨rest, next, ht, hreads, hafter, hcaptures, hcount⟩ := reads_of_search hsearch
  rw [hroot, hfold] at hreads
  obtain ⟨middle, hnodeReads, hfinish, rfl⟩ := hreads
  obtain ⟨hposition, hbody⟩ := (PatternNode.reads_iff_of_afterStart? hnode).mp hnodeReads
  have hbefore : found.before = [] := List.length_eq_zero_iff.mp hposition
  rw [hbefore, List.nil_append] at ht
  rw [hbefore, ← ht] at hbody
  exact ⟨next, hbody, hbefore, hafter, next.atFinish_iff.mp hfinish, hcaptures, hcount⟩

theorem isSome_search_between {body : PatternNode} (hbetween : pattern.between? = some body)
    {next : Cursor} (hbody : body.Reads false { position := 0, rest := t } next)
    (hending : next.rest.IsEnding) : (pattern.search t).isSome := by
  obtain ⟨hplain, hfold, node, hnode, hroot⟩ := root_of_between? hbetween
  have hnodeReads := (PatternNode.reads_iff_of_afterStart? hnode).mpr ⟨rfl, hbody⟩
  have hreads : pattern.root.Reads false { position := 0, rest := t } next := by
    rw [hroot]
    exact ⟨next, hnodeReads, next.atFinish_iff.mpr hending, rfl⟩
  exact isSome_search_of_reads hplain hfold hreads

/-- The texts that such a pattern matches, each with what its groups remember of it. -/
def texts? (pattern : Pattern) : Option (List (Text × List (Nat × Text))) :=
  pattern.between?.bind PatternNode.readings?

/-- The leads behind which such a pattern takes the rest of a line, with what its groups
remember of them, and the group for the rest of the line. -/
def leads? (pattern : Pattern) : Option (Nat × List (Text × List (Nat × Text))) :=
  match pattern.between? with
  | some (.seq front (.group index (.repeated 1 none true .any))) =>
      front.readings?.map (index, ·)
  | _ => none

theorem between_of_leads? {index : Nat} {leads : List (Text × List (Nat × Text))}
    (hleads : pattern.leads? = some (index, leads)) :
    ∃ front, front.readings? = some leads ∧
      pattern.between? = some (.seq front (.group index PatternNode.restOfLine)) := by
  unfold leads? at hleads
  split at hleads
  · rename_i front other hbetween
    obtain ⟨readings, hreadings, hsame⟩ := Option.map_eq_some_iff.mp hleads
    obtain ⟨rfl, rfl⟩ := Prod.mk.inj hsame
    exact ⟨front, hreadings, hbetween⟩
  · cases hleads

theorem match_of_texts? {texts : List (Text × List (Nat × Text))}
    (htexts : pattern.texts? = some texts) (hsearch : pattern.search t = some found) :
    ∃ text ∈ texts, ∃ ending : Text, ending.IsEnding ∧ t = text.1 ++ ending ∧
      found.before = [] ∧ found.after = ending ∧ found.captures = text.2 ∧
      found.groupCount = pattern.groupCount := by
  obtain ⟨body, hbetween, hreadings⟩ := Option.bind_eq_some_iff.mp htexts
  obtain ⟨next, hreads, hbefore, hafter, hending, hcaptures, hcount⟩ :=
    reads_between hbetween hsearch
  obtain ⟨text, hmem, hadvance, hkept⟩ := PatternNode.takes_of_readings? hreadings hreads
  refine ⟨text, hmem, next.rest, hending, hadvance.rest, hbefore, hafter, ?_, hcount⟩
  rw [hcaptures, hkept, List.append_nil]

/-- The texts of such a pattern are those in which it is found, but for a newline at the end. -/
theorem isSome_search_iff_texts {texts : List (Text × List (Nat × Text))}
    (htexts : pattern.texts? = some texts) :
    (pattern.search t).isSome ↔
      ∃ text ∈ texts, ∃ ending : Text, ending.IsEnding ∧ t = text.1 ++ ending := by
  constructor
  · intro hsearch
    obtain ⟨found, hfound⟩ := Option.isSome_iff_exists.mp hsearch
    obtain ⟨text, hmem, ending, hending, ht, -⟩ := match_of_texts? htexts hfound
    exact ⟨text, hmem, ending, hending, ht⟩
  · rintro ⟨text, hmem, ending, hending, rfl⟩
    obtain ⟨body, hbetween, hreadings⟩ := Option.bind_eq_some_iff.mp htexts
    have hreads := @PatternNode.reads_of_readings? body texts hreadings text hmem
      { position := 0, rest := text.1 ++ ending }
      { position := 0 + text.1.length, rest := ending, captures := text.2 ++ [] }
      ⟨⟨rfl, rfl⟩, rfl⟩
    exact isSome_search_between hbetween hreads hending

theorem match_of_leads? {index : Nat} {leads : List (Text × List (Nat × Text))}
    (hleads : pattern.leads? = some (index, leads)) (hsearch : pattern.search t = some found) :
    ∃ lead ∈ leads, ∃ key ending : Text, key ≠ [] ∧ '\n' ∉ key ∧ ending.IsEnding ∧
      t = lead.1 ++ (key ++ ending) ∧ found.before = [] ∧ found.after = ending ∧
      found.captures = (index, key) :: lead.2 ∧ found.groupCount = pattern.groupCount := by
  obtain ⟨front, hreadings, hbetween⟩ := between_of_leads? hleads
  obtain ⟨next, ⟨middle, hfront, inner, hinner, rfl⟩, hbefore, hafter, hending, hcaptures, hcount⟩ :=
    reads_between hbetween hsearch
  obtain ⟨lead, hmem, hlead, hkept⟩ := PatternNode.takes_of_readings? hreadings hfront
  obtain ⟨key, hne, hline, hkey, hrest⟩ := PatternNode.takes_of_restOfLine hinner
  refine ⟨lead, hmem, key, inner.rest, hne, hline, hending, ?_, hbefore, hafter, ?_, hcount⟩
  · rw [← hkey.rest]
    exact hlead.rest
  · rw [hcaptures, hkey.take_eq, hrest, hkept]
    simp

/-- Such a pattern is found where a lead begins a text and something follows it on the line, but
for a newline at the end. -/
theorem isSome_search_iff_leads {index : Nat} {leads : List (Text × List (Nat × Text))}
    (hleads : pattern.leads? = some (index, leads)) :
    (pattern.search t).isSome ↔ ∃ lead ∈ leads, ∃ key ending : Text, key ≠ [] ∧ '\n' ∉ key ∧
      ending.IsEnding ∧ t = lead.1 ++ (key ++ ending) := by
  constructor
  · intro hsearch
    obtain ⟨found, hfound⟩ := Option.isSome_iff_exists.mp hsearch
    obtain ⟨lead, hmem, key, ending, hne, hline, hending, ht, -⟩ := match_of_leads? hleads hfound
    exact ⟨lead, hmem, key, ending, hne, hline, hending, ht⟩
  · rintro ⟨lead, hmem, key, ending, hne, hline, hending, rfl⟩
    obtain ⟨front, hreadings, hbetween⟩ := between_of_leads? hleads
    have hfront := @PatternNode.reads_of_readings? front leads hreadings lead hmem
      { position := 0, rest := lead.1 ++ (key ++ ending) }
      { position := 0 + lead.1.length, rest := key ++ ending, captures := lead.2 ++ [] }
      ⟨⟨rfl, rfl⟩, rfl⟩
    have hkey := PatternNode.reads_restOfLine hne hline ending (0 + lead.1.length) (lead.2 ++ [])
    exact isSome_search_between hbetween ⟨_, hfront, _, hkey, rfl⟩ hending

end Pattern

end UtilityCss
