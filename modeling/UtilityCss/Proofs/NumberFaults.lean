import Mathlib.Data.List.Basic
import UtilityCss.Catalog.Plugins
import UtilityCss.Proofs.BodyTotality
import UtilityCss.Proofs.OrderedTables

/-!
# Numbers that cannot be had

Some utilities take numbers from the class name. A numeral may have any digit sign, and as
many as it likes; but a digit sign that is no decimal digit has no value, numerals have at
most so many digits, and a quotient may be out of range. These are the only faults of the
catalogue: what a computation fails with is determined by its key and by the use that the
utility makes of numbers.
-/

namespace UtilityCss

/-- The error of an answer, if it is one. -/
def fault? {α : Type} : Except Error α → Option Error
  | .ok _ => none
  | .error error => some error

/-! ## Numerals and quotients -/

/-- The number that a numeral of decimal digits denotes. -/
def numeralValue (numeral : Text) : Nat :=
  Text.ofDigitValues (numeral.map fun c => (Text.digitValue? c).getD 0)

/-- Whether a numeral has decimal digits only, and not too many. -/
def isReadable (numeral : Text) : Bool :=
  numeral.all Text.isDecimal && numeral.length ≤ Css.digitLimit

def numeralFault? (numeral : Text) : Option Error :=
  if isReadable numeral then none else some .unreadableNumber

def quotientFault? (num den : Nat) : Option Error :=
  if (Binary64.quotient? num den).isSome then none else some .quotientTooLarge

theorem digitValues?_eq (numeral : Text) :
    Text.digitValues? numeral =
      if numeral.all Text.isDecimal then
        some (numeral.map fun c => (Text.digitValue? c).getD 0)
      else none := by
  induction numeral with
  | nil => rfl
  | cons c rest ih =>
    rw [Text.digitValues?] at ih ⊢
    rw [List.mapM_cons, ih, List.all_cons, List.map_cons, Text.isDecimal]
    cases Text.digitValue? c with
    | none => rfl
    | some value => cases rest.all Text.isDecimal <;> rfl

theorem readNat_eq {numeral : Text} (hnumeral : numeral ≠ []) :
    Css.readNat numeral =
      if isReadable numeral then .ok (numeralValue numeral) else .error .unreadableNumber := by
  rw [Css.readNat, digitValues?_eq, isReadable]
  cases numeral.all Text.isDecimal with
  | false => rfl
  | true =>
    by_cases hlength : numeral.length ≤ Css.digitLimit
    · have hlimit : ¬ Css.digitLimit < numeral.length := Nat.not_lt.mpr hlength
      simp [hnumeral, hlength, hlimit, numeralValue]
    · simp [hlength, Nat.lt_of_not_le hlength]

theorem fault?_divide (num den : Nat) : fault? (Css.divide num den) = quotientFault? num den := by
  rw [Css.divide, quotientFault?]
  cases Binary64.quotient? num den <;> rfl

/-! ## Uses of numbers -/

/-- What a utility does with the numbers of its key. -/
inductive NumberUse where
  /-- The key is a numeral. -/
  | count
  /-- The key is a numeral, and a hundredth of the number is taken. -/
  | percentage
  /-- The key is two numerals with a slash between them, and the quotient is taken. -/
  | fraction
  deriving DecidableEq

/-- Two numerals with a slash between them. -/
def fraction? (key : Text) : Option (Text × Text) := do
  let (num, den) ← Text.cutFirst? '/' key
  if num ≠ [] && den ≠ [] && num.all Text.isDecimal && den.all Text.isDecimal then some (num, den)
  else none

/-- The fault of a key, by the use that is made of it. A fraction whose denominator is zero
has none. -/
def NumberUse.fault? : NumberUse → Text → Option Error
  | .count, key => if Text.isDigits key then numeralFault? key else none
  | .percentage, key =>
      if Text.isDigits key then
        (numeralFault? key).or (quotientFault? (numeralValue key) 100)
      else none
  | .fraction, key =>
      match fraction? key with
      | none => none
      | some (num, den) =>
          (numeralFault? den).or
            (if numeralValue den = 0 then none
            else (numeralFault? num).or (quotientFault? (numeralValue num) (numeralValue den)))

theorem NumberUse.eq_of_fault? {use : NumberUse} {key : Text} {error : Error}
    (hfault : use.fault? key = some error) :
    error = .unreadableNumber ∨ error = .quotientTooLarge := by
  cases use with
  | count => grind [NumberUse.fault?, numeralFault?]
  | percentage => grind [NumberUse.fault?, numeralFault?, quotientFault?]
  | fraction => grind [NumberUse.fault?, numeralFault?, quotientFault?]

/-- Whether a key is a number to a use. -/
def NumberUse.isNumber : NumberUse → Text → Bool
  | .count, key | .percentage, key => Text.isDigits key
  | .fraction, key => (fraction? key).isSome

/-! ## Keys with a fault -/

theorem isDigit_of_isDecimal {c : Char} (hc : Text.isDecimal c = true) : Text.isDigit c = true := by
  rw [Text.isDigit, hc, Bool.true_or]

theorem ne_of_isDigit {c d : Char} (hc : Text.isDigit c = true) (hd : Text.isDigit d = false) :
    d ≠ c := by
  rintro rfl
  rw [hc] at hd
  cases hd

theorem isDigit_newline : Text.isDigit '\n' = false := by decide +kernel

theorem isDigit_slash : Text.isDigit '/' = false := by decide +kernel

theorem isDigit_bracket : Text.isDigit '[' = false := by decide +kernel

theorem isDigits_iff {key : Text} :
    Text.isDigits key = true ↔ key ≠ [] ∧ ∀ c ∈ key, Text.isDigit c = true := by
  simp [Text.isDigits]

theorem not_mem_of_isDigits {key : Text} (hkey : Text.isDigits key = true) {d : Char}
    (hd : Text.isDigit d = false) : d ∉ key := by
  intro hmem
  exact ne_of_isDigit ((isDigits_iff.mp hkey).2 d hmem) hd rfl

theorem eq_of_cutFirst? {c : Char} {t before after : Text}
    (hcut : Text.cutFirst? c t = some (before, after)) : t = before ++ c :: after := by
  induction t generalizing before with
  | nil => cases hcut
  | cons d rest ih =>
      simp only [Text.cutFirst?] at hcut
      split at hcut
      · rename_i hd
        obtain ⟨rfl, rfl⟩ := Prod.mk.inj (Option.some.inj hcut)
        rw [hd, List.nil_append]
      · obtain ⟨⟨front, back⟩, hrest, hpair⟩ := Option.map_eq_some_iff.mp hcut
        obtain ⟨rfl, rfl⟩ := Prod.mk.inj hpair
        rw [ih hrest, List.cons_append]

/-- A fraction is two decimal numerals, neither of them empty. -/
structure IsFraction (key num den : Text) : Prop where
  eq : key = num ++ '/' :: den
  num_ne : num ≠ []
  den_ne : den ≠ []
  decimal : ∀ c ∈ num ++ den, Text.isDecimal c = true

theorem isFraction_of_fraction? {key num den : Text} (hkey : fraction? key = some (num, den)) :
    IsFraction key num den := by
  obtain ⟨⟨before, after⟩, hcut, htests⟩ := Option.bind_eq_some_iff.mp hkey
  dsimp only at htests
  split at htests
  · rename_i hshape
    obtain ⟨rfl, rfl⟩ := Prod.mk.inj (Option.some.inj htests)
    simp only [Bool.and_eq_true, decide_eq_true_eq, List.all_eq_true] at hshape
    obtain ⟨⟨⟨hnum, hden⟩, hnumDecimal⟩, hdenDecimal⟩ := hshape
    refine ⟨eq_of_cutFirst? hcut, hnum, hden, ?_⟩
    intro c hc
    exact (List.mem_append.mp hc).elim (hnumDecimal c) (hdenDecimal c)
  · cases htests

namespace NumberUse

/-- A key with a fault consists of digits, and of a slash in between if it is a fraction. -/
theorem digits_of_fault? {use : NumberUse} {key : Text} {error : Error}
    (hfault : use.fault? key = some error) :
    Text.isDigits key = true ∨ ∃ num den, IsFraction key num den := by
  cases use with
  | fraction =>
      simp only [fault?] at hfault
      split at hfault
      · cases hfault
      · rename_i num den hfraction
        exact .inr ⟨num, den, isFraction_of_fraction? hfraction⟩
  | _ =>
      simp only [fault?] at hfault
      split at hfault
      · exact .inl ‹_›
      · cases hfault

/-- A key with a fault begins with a digit and has no newline. -/
theorem exists_digit {use : NumberUse} {key : Text} {error : Error}
    (hfault : use.fault? key = some error) :
    ∃ c rest, key = c :: rest ∧ Text.isDigit c = true ∧ '\n' ∉ key := by
  rcases digits_of_fault? hfault with hkey | ⟨num, den, hkey⟩
  · obtain ⟨hne, hdigits⟩ := isDigits_iff.mp hkey
    obtain ⟨c, rest, rfl⟩ := List.exists_cons_of_ne_nil hne
    exact ⟨c, rest, rfl, hdigits c List.mem_cons_self, not_mem_of_isDigits hkey isDigit_newline⟩
  · have hdigits : ∀ c ∈ num ++ den, Text.isDigit c = true := fun c hc =>
      isDigit_of_isDecimal (hkey.decimal c hc)
    obtain ⟨c, rest, rfl⟩ := List.exists_cons_of_ne_nil hkey.num_ne
    refine ⟨c, rest ++ '/' :: den, hkey.eq, hdigits c (by simp), ?_⟩
    intro hmem
    rw [hkey.eq] at hmem
    have hnewline : '\n' ∈ c :: rest ++ den := by
      rcases List.mem_append.mp hmem with hnum | hbehind
      · exact List.mem_append_left _ hnum
      · exact List.mem_append_right _ (List.mem_of_ne_of_mem (by decide) hbehind)
    exact ne_of_isDigit (hdigits _ hnewline) isDigit_newline rfl

/-- A key with a fault is no number any more if something follows it behind a slash. -/
theorem isNumber_append {use : NumberUse} {key : Text} {error : Error}
    (hfault : use.fault? key = some error) (modifier : Text) :
    use.isNumber (key ++ '/' :: modifier) = false := by
  have hdigits : Text.isDigits (key ++ '/' :: modifier) = false := by
    rw [Bool.eq_false_iff]
    intro hkey
    exact not_mem_of_isDigits hkey isDigit_slash (by simp)
  cases use with
  | fraction =>
      simp only [fault?] at hfault
      split at hfault
      · cases hfault
      · rename_i num den hfraction
        have hkey := isFraction_of_fraction? hfraction
        have hslash : '/' ∉ num := by
          intro hmem
          have hdigit := isDigit_of_isDecimal (hkey.decimal _ (List.mem_append_left _ hmem))
          exact ne_of_isDigit hdigit isDigit_slash rfl
        -- The key is cut at its first slash, so that the second one falls into the denominator.
        have hdecimal : Text.isDecimal '/' = false := by decide +kernel
        have hbehind : (den ++ '/' :: modifier).all Text.isDecimal = false := by
          rw [List.all_append, List.all_cons, hdecimal, Bool.false_and, Bool.and_false]
        rw [isNumber, hkey.eq, List.append_assoc, fraction?, List.cons_append,
          Token.cutFirst?_append hslash]
        simp only [Option.bind_eq_bind, Option.bind_some, hbehind, Bool.and_false,
          Bool.false_eq_true, if_false, Option.isSome_none]
  | _ => exact hdigits

end NumberUse

/-! ## Values of keys -/

theorem fault?_bind_pure {α β : Type} (act : Except Error α) (f : α → β) :
    fault? (do return f (← act)) = fault? act := by
  cases act <;> rfl

theorem fault?_map {α β : Type} (f : α → β) (act : Except Error α) :
    fault? (act.map f) = fault? act := by
  cases act <;> rfl

theorem fault?_bind_of_ok {α β : Type} {next : α → Except Error β}
    (hnext : ∀ a, ∃ b, next a = .ok b) (act : Except Error α) :
    fault? (act >>= next) = fault? act := by
  cases act with
  | error error => rfl
  | ok a =>
      obtain ⟨b, hb⟩ := hnext a
      rw [ok_bind, hb]
      rfl

theorem eq_error_of_fault? {α : Type} {act : Except Error α} {error : Error}
    (hfault : fault? act = some error) : act = .error error := by
  cases act with
  | ok a => cases hfault
  | error other => rw [Option.some.inj hfault]

/-- The text begins with a digit or a digit sign. -/
def startsWithDigit (t : Text) : Bool := t.head?.any Text.isDigit

theorem ne_of_startsWithDigit {key word : Text} (hkey : startsWithDigit key = true)
    (hword : startsWithDigit word = false) : key ≠ word := by
  rintro rfl
  rw [hkey] at hword
  cases hword

theorem isBracketed_of_startsWithDigit {key : Text} (hkey : startsWithDigit key = true) :
    Payload.isBracketed key = false := by
  cases key with
  | nil => rfl
  | cons c rest =>
      have hc : ('[' == c) = false := beq_false_of_ne (ne_of_isDigit hkey isDigit_bracket)
      simp [Payload.isBracketed, Text.startsWith, List.isPrefixOf, hc]

theorem get?_of_startsWithDigit {α : Type} {table : Table Text α} {key : Text}
    (htable : table.keys.all (!startsWithDigit ·) = true) (hkey : startsWithDigit key = true) :
    table.get? key = none := by
  apply Table.get?_of_not_mem
  intro hmem
  have hword := List.all_eq_true.mp htable key hmem
  exact ne_of_startsWithDigit hkey (by simpa using hword) rfl

theorem startsWithDigit_of_isDigits {key : Text} (hkey : Text.isDigits key = true) :
    startsWithDigit key = true := by
  obtain ⟨hne, hdigits⟩ := isDigits_iff.mp hkey
  obtain ⟨c, rest, rfl⟩ := List.exists_cons_of_ne_nil hne
  exact hdigits c List.mem_cons_self

theorem readNat_of_isDigits {key : Text} (hkey : Text.isDigits key = true) :
    Css.readNat key =
      if isReadable key then .ok (numeralValue key) else .error .unreadableNumber :=
  readNat_eq (isDigits_iff.mp hkey).1

namespace Catalog

theorem fault?_isPositive (key : Text) : fault? (isPositive key) = NumberUse.count.fault? key := by
  rw [isPositive, NumberUse.fault?, numeralFault?]
  split
  · rename_i hdigits
    rw [readNat_of_isDigits hdigits]
    split <;> rfl
  · rfl

theorem fault?_hundredths (amount : Nat) :
    fault? (hundredths amount) = quotientFault? amount 100 := by
  rw [hundredths, fault?_bind_pure, fault?_divide]

theorem quotientFault?_percent : ∀ amount ≤ 100, (quotientFault? amount 100).isNone = true := by
  decide +kernel

/-- An opacity is at most a hundred, and hundredths of that can always be had. -/
theorem fault?_opacityValue (key : Text) (theme : Theme) :
    fault? (opacityValue key theme) = NumberUse.count.fault? key := by
  rw [opacityValue, NumberUse.fault?, numeralFault?]
  by_cases hdigits : Text.isDigits key = true
  · rw [isBracketed_of_startsWithDigit (startsWithDigit_of_isDigits hdigits),
      if_neg Bool.false_ne_true, if_pos hdigits, if_pos hdigits, readNat_of_isDigits hdigits]
    split
    · rw [ok_bind]
      split
      · rename_i hamount
        rw [fault?_bind_pure, fault?_hundredths]
        exact Option.isNone_iff_eq_none.mp (quotientFault?_percent _ hamount)
      · rfl
    · rfl
  · rw [if_neg hdigits, if_neg hdigits]
    split <;> rfl

theorem fault?_factor (key : Text) : fault? (factor key) = NumberUse.percentage.fault? key := by
  rw [factor, NumberUse.fault?, numeralFault?]
  by_cases hdigits : Text.isDigits key = true
  · rw [isBracketed_of_startsWithDigit (startsWithDigit_of_isDigits hdigits),
      if_neg Bool.false_ne_true, if_pos hdigits, if_pos hdigits, readNat_of_isDigits hdigits]
    split
    · rw [ok_bind, fault?_bind_pure, fault?_hundredths, Option.none_or]
    · rfl
  · rw [if_neg hdigits, if_neg hdigits]
    split <;> rfl

end Catalog

theorem beforeTail?_newline {key : Text} (hline : '\n' ∉ key) :
    Text.beforeTail? ['\n'] key = none := by
  rw [Option.eq_none_iff_forall_ne_some]
  intro front hfront
  rw [Text.beforeTail?, List.isSuffixOf?_eq_some_iff_append_eq] at hfront
  exact hline (by simp [← hfront])

theorem fractionParts?_eq {key : Text} (hline : '\n' ∉ key) :
    Css.fractionParts? key = fraction? key := by
  rw [Css.fractionParts?, beforeTail?_newline hline, Option.getD_none, fraction?]

theorem fault?_fraction {key : Text} (hline : '\n' ∉ key) :
    fault? (Css.fraction key) = NumberUse.fraction.fault? key := by
  rw [Css.fraction, fractionParts?_eq hline, NumberUse.fault?]
  cases hfraction : fraction? key with
  | none => rfl
  | some parts =>
      obtain ⟨num, den⟩ := parts
      have hparts := isFraction_of_fraction? hfraction
      dsimp only
      rw [readNat_eq hparts.den_ne, readNat_eq hparts.num_ne]
      simp only [numeralFault?]
      split
      · rw [ok_bind, Option.none_or]
        split
        · rfl
        · split
          · rw [ok_bind, fault?_bind_pure, fault?_divide, Option.none_or]
          · rfl
      · rfl

end UtilityCss
