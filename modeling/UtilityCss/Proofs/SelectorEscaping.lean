import UtilityCss.Proofs.BodyParts
import UtilityCss.Proofs.HistoryIndependence

/-!
# Escaped class names read back

An identifier of CSS is read by undoing its escapes: a backslash with up to six
hexadecimal digits, and one space after them, stands for a code point, and a backslash
before any other character stands for that character. A class name whose blanks are all
plain spaces is what its escaped form reads back to, so no two such names have one
selector.
-/

namespace UtilityCss

namespace Selector

/-- The number that hexadecimal digits denote. -/
def ofHexValues (values : List Nat) : Nat := values.foldl (fun n d => 16 * n + d) 0

/-- The values of the hexadecimal digits that a text begins with, up to a limit. -/
def hexLead : Nat → Text → List Nat
  | limit + 1, c :: rest =>
      match Css.hexValue? c with
      | some value => value :: hexLead limit rest
      | none => []
  | _, _ => []

/-- The text without a space that it begins with. -/
def dropSpace : Text → Text
  | ' ' :: rest => rest
  | t => t

theorem length_dropSpace_le (t : Text) : (dropSpace t).length ≤ t.length := by
  unfold dropSpace
  split
  · exact Nat.le_succ _
  · exact Nat.le_refl _

/-- The name that an identifier stands for. -/
def unescape : Text → Text
  | '\\' :: c :: rest =>
      match hexLead 6 (c :: rest) with
      | [] => c :: unescape rest
      | value :: others =>
          Char.ofNat (ofHexValues (value :: others)) ::
            unescape (dropSpace (rest.drop others.length))
  | c :: rest => c :: unescape rest
  | [] => []
termination_by t => t.length
decreasing_by
  · simp only [List.length_cons]
    omega
  · have hspace := length_dropSpace_le (rest.drop others.length)
    simp only [List.length_cons, List.length_drop] at hspace ⊢
    omega
  · simp

section Numerals

theorem hexValue?_digitChar {d : Nat} (hd : d < 16) : Css.hexValue? d.digitChar = some d := by
  have hall : ∀ d : Fin 16, Css.hexValue? (Nat.digitChar d) = some d.val := by decide
  exact hall ⟨d, hd⟩

theorem ofHexValues_concat (values : List Nat) (d : Nat) :
    ofHexValues (values ++ [d]) = 16 * ofHexValues values + d := by
  simp [ofHexValues]

/-- A numeral has digits, and they denote its number. -/
theorem exists_hexValues (n : Nat) :
    ∃ values, (Text.hex n).map Css.hexValue? = values.map some ∧ ofHexValues values = n := by
  induction n using Nat.strongRecOn with
  | ind n ih =>
    unfold Text.hex at ih ⊢
    by_cases hsmall : n < 16
    · refine ⟨[n], ?_, by simp [ofHexValues]⟩
      rw [Nat.toDigits_of_lt_base hsmall]
      simp [hexValue?_digitChar hsmall]
    · obtain ⟨values, hvalues, hnumber⟩ := ih (n / 16) (by omega)
      refine ⟨values ++ [n % 16], ?_, ?_⟩
      · rw [Nat.toDigits_of_base_le (by omega) (by omega)]
        simp [hvalues, hexValue?_digitChar (Nat.mod_lt n (by omega : 0 < 16))]
      · rw [ofHexValues_concat, hnumber]
        omega

/-- Digits are read up to a space if there are not too many. -/
theorem hexLead_append_space {t rest : Text} {values : List Nat} {limit : Nat}
    (hvalues : t.map Css.hexValue? = values.map some) (hlimit : t.length ≤ limit) :
    hexLead limit (t ++ ' ' :: rest) = values := by
  induction t generalizing values limit with
  | nil =>
      cases values with
      | cons value others => cases hvalues
      | nil =>
          cases limit with
          | zero => rfl
          | succ limit => rfl
  | cons c t ih =>
      cases values with
      | nil => cases hvalues
      | cons value others =>
          simp only [List.map_cons, List.cons.injEq] at hvalues
          cases limit with
          | zero => simp at hlimit
          | succ limit =>
              simp only [List.length_cons] at hlimit
              simp only [List.cons_append, hexLead, hvalues.1]
              rw [ih hvalues.2 (by omega)]

end Numerals

section Steps

theorem unescape_cons {c : Char} (hc : c ≠ '\\') (rest : Text) :
    unescape (c :: rest) = c :: unescape rest := by
  rw [unescape]
  rintro _ _ rfl
  exact absurd rfl hc

theorem unescape_quoted {c : Char} (hc : Css.hexValue? c = none) (rest : Text) :
    unescape ('\\' :: c :: rest) = c :: unescape rest := by
  rw [unescape]
  simp only [hexLead, hc]

/-- The numeral of a code point and the space that ends it stand for that code point. -/
theorem unescape_hex (c : Char) (rest : Text) :
    unescape ('\\' :: Text.hex c.toNat ++ ' ' :: rest) = c :: unescape rest := by
  obtain ⟨values, hvalues, hnumber⟩ := exists_hexValues c.toNat
  -- Code points lie below 0x110000, so that six digits are enough.
  have hlimit : (Text.hex c.toNat).length ≤ 6 := by
    apply (Nat.length_toDigits_le_iff (by omega) (by omega)).mpr
    have hvalid : c.toNat.isValidChar := c.valid
    unfold Nat.isValidChar at hvalid
    omega
  have hlead : hexLead 6 (Text.hex c.toNat ++ ' ' :: rest) = values :=
    hexLead_append_space hvalues hlimit
  have hlength : (Text.hex c.toNat).length = values.length := by
    simpa using congrArg List.length hvalues
  cases hdigits : Text.hex c.toNat with
  | nil => exact absurd hdigits Nat.toDigits_ne_nil
  | cons digit digits =>
      rw [hdigits] at hlead hlength
      cases values with
      | nil => simp at hlength
      | cons value others =>
          simp only [List.length_cons, Nat.add_right_cancel_iff] at hlength
          simp only [List.cons_append] at hlead ⊢
          rw [unescape]
          simp only [hlead, hnumber, Char.ofNat_toNat, ← hlength, List.drop_left, dropSpace]

theorem hexValue?_of_reserved {c : Char} (hc : reserved.contains c = true) :
    Css.hexValue? c = none := by
  have hall : reserved.all (fun c => Css.hexValue? c == none) = true := by decide
  exact eq_of_beq (List.all_eq_true.mp hall c (List.contains_iff_mem.mp hc))

/-- One escaped character reads back, whatever follows it. -/
theorem unescape_escapeChar (leading : Bool) {c : Char} (hc : Text.isBlank c = true → c = ' ')
    (rest : Text) : unescape (escapeChar leading c ++ rest) = c :: unescape rest := by
  unfold escapeChar
  by_cases hreserved : reserved.contains c = true
  · rw [if_pos hreserved]
    exact unescape_quoted (hexValue?_of_reserved hreserved) rest
  · rw [if_neg hreserved]
    by_cases hblank : Text.isBlank c = true
    · rw [if_pos hblank, hc hblank]
      exact unescape_quoted (by decide) rest
    · rw [if_neg hblank]
      split
      · rw [List.append_assoc]
        exact unescape_hex c rest
      · apply unescape_cons
        rintro rfl
        exact hreserved (by decide)

end Steps

/-- The blanks of a name are plain spaces. -/
def IsSpaced (name : Text) : Prop := ∀ c ∈ name, Text.isBlank c = true → c = ' '

instance (name : Text) : Decidable (IsSpaced name) :=
  decidable_of_iff (name.all (fun c => !Text.isBlank c || c == ' ') = true) (by
    simp only [IsSpaced, List.all_eq_true, Bool.or_eq_true, Bool.not_eq_true', beq_iff_eq]
    exact forall₂_congr fun c _ => by cases Text.isBlank c <;> simp)

theorem unescape_flatMap {name : Text} (hname : IsSpaced name) :
    unescape (name.flatMap (escapeChar false)) = name := by
  induction name with
  | nil => rw [List.flatMap_nil, unescape]
  | cons c rest ih =>
      rw [List.flatMap_cons, unescape_escapeChar false (hname c List.mem_cons_self)]
      rw [ih fun d hd => hname d (List.mem_cons_of_mem _ hd)]

theorem unescape_escape {name : Text} (hname : IsSpaced name) : unescape (escape name) = name := by
  have htail : ∀ {c rest}, IsSpaced (c :: rest) →
      unescape (escapeChar true c ++ rest.flatMap (escapeChar false)) = c :: rest := by
    intro c rest hspaced
    rw [unescape_escapeChar true (hspaced c List.mem_cons_self)]
    rw [unescape_flatMap fun d hd => hspaced d (List.mem_cons_of_mem _ hd)]
  unfold escape
  split
  · rw [unescape]
  · rw [List.cons_append, unescape_cons (by decide)]
    rw [htail fun d hd => hname d (List.mem_cons_of_mem _ hd)]
  · exact htail hname

theorem ofClass_injective {first second : Text} (hfirst : IsSpaced first)
    (hsecond : IsSpaced second) (hselector : ofClass first = ofClass second) : first = second := by
  have hescaped : escape first = escape second := List.tail_eq_of_cons_eq hselector
  rw [← unescape_escape hfirst, hescaped, unescape_escape hsecond]

/-- Other blanks are written as spaces too, so that names with them can share a selector. -/
example : ofClass "p-[1\tx]" = ofClass "p-[1 x]" := by decide

end Selector

/-- A name is read with itself as the class name of its token, after every history. -/
theorem Engine.raw_of_read {engine : Engine} {history : List Call} {raw : Text} {token : Token}
    (hread : (engine.perform (.read raw) (engine.after history)).1 = .ok token) :
    token.raw = raw := by
  have hsettled := engine.settles_lift (engine.settles_read raw)
  exact Token.raw_of_readAnswer (hsettled.eq_of_run (engine.faithful_after history) hread)

/-- Escaping can be undone on names whose blanks are plain spaces. Hence no two of them have
one selector, and tokens read from two of them have two base selectors. -/
theorem Selector.escape_decodable :
    (∀ name, IsSpaced name → unescape (escape name) = name) ∧
      (∀ first second, IsSpaced first → IsSpaced second → ofClass first = ofClass second →
        first = second) ∧
      ∀ (engine : Engine) (history later : List Call) (first second : Text) (token other : Token),
        IsSpaced first → IsSpaced second →
        (engine.perform (.read first) (engine.after history)).1 = .ok token →
        (engine.perform (.read second) (engine.after later)).1 = .ok other →
        first ≠ second → ofClass token.raw ≠ ofClass other.raw := by
  refine ⟨fun _ => unescape_escape, fun _ _ => ofClass_injective, ?_⟩
  intro engine history later first second token other hfirst hsecond hread hother hne hselector
  rw [Engine.raw_of_read hread, Engine.raw_of_read hother] at hselector
  exact hne (ofClass_injective hfirst hsecond hselector)

/-- Two names with a leading digit, one of them no decimal digit, and a space. -/
theorem Selector.escape_decodable_leading :
    unescape (escape "2xl:p-[1 2]") = "2xl:p-[1 2]" ∧
      ofClass "2xl:p-[1 2]" ≠ ofClass "-²xl" ∧
      ∃ token other : Token,
        ((⟨{}, [], false⟩ : Engine).perform (.read "p-2") {}).1 = .ok token ∧
        ((⟨{}, [], false⟩ : Engine).perform (.read "-p-²") {}).1 = .ok other ∧
        ofClass token.raw ≠ ofClass other.raw := by
  obtain ⟨hundo, hinjective, hbase⟩ := escape_decodable
  refine ⟨hundo _ (by decide), fun hselector => ?_, ?_⟩
  · exact absurd (hinjective _ _ (by decide) (by decide) hselector) (by decide)
  · have hread : ∃ token, ((⟨{}, [], false⟩ : Engine).perform (.read "p-2") {}).1 = .ok token :=
      ⟨_, rfl⟩
    have hother : ∃ token, ((⟨{}, [], false⟩ : Engine).perform (.read "-p-²") {}).1 = .ok token :=
      ⟨_, rfl⟩
    obtain ⟨token, hread⟩ := hread
    obtain ⟨other, hother⟩ := hother
    refine ⟨token, other, hread, hother, ?_⟩
    exact hbase _ [] [] _ _ token other (by decide) (by decide) hread hother (by decide)

end UtilityCss
