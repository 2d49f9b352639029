import UtilityCss.Css.Value

/-!
# Spellings of a word

A word of ASCII without capitals agrees up to case with a text if each character of the text is
one of a few forms of the character in its place. So the spellings of a word can be listed, and
what holds of each of them can be checked.
-/

namespace UtilityCss

namespace Text

/-- A character of ASCII that is no capital. -/
def isSmallAscii (d : Char) : Bool := d.toNat < 65 || (90 < d.toNat && d.toNat < 128)

/-- The forms of a character up to case: itself, its capital, and the members of its orbits. -/
def caseForms (d : Char) : List Char :=
  d :: ((if 97 ≤ d.toNat ∧ d.toNat ≤ 122 then [Char.ofNat (d.toNat - 32)] else []) ++
    (wideOrbits.filter (·.contains d)).flatten)

/-- Only a capital is the partner of such a character. -/
theorem toNat_of_casePartner? {c d : Char} (hd : isSmallAscii d = true)
    (hpartner : casePartner? c = some d) :
    c.toNat + 32 = d.toNat ∧ 97 ≤ d.toNat ∧ d.toNat ≤ 122 := by
  obtain ⟨⟨first, last, distance⟩, hrun, hsome⟩ := List.exists_of_findSome?_eq_some hpartner
  have hcode {n : Nat} (hn : n.isValidChar) (hsame : Char.ofNat n = d) : n = d.toNat := by
    have hofNat : Char.ofNat n = Char.ofNatAux n hn := dif_pos hn
    rw [← hsame, hofNat]
    rfl
  simp only [isSmallAscii, Bool.or_eq_true, Bool.and_eq_true, decide_eq_true_eq] at hd
  simp only [capitalRuns, List.mem_cons, Prod.mk.injEq, List.not_mem_nil, or_false] at hrun
  simp only [Bool.and_eq_true, decide_eq_true_eq] at hsome
  split at hsome
  · have hn := hcode (by change _ ∨ _; omega) (Option.some.inj hsome)
    omega
  · split at hsome
    · have hn := hcode (by change _ ∨ _; omega) (Option.some.inj hsome)
      omega
    · cases hsome

theorem mem_caseForms {c d : Char} (hd : isSmallAscii d = true) (hmem : d ∈ caseOrbit c) :
    c ∈ caseForms d := by
  unfold caseOrbit at hmem
  rw [caseForms, List.mem_cons, List.mem_append]
  split at hmem
  next orbit horbit =>
    have hc : c ∈ orbit := by
      simpa using @List.find?_some _ (fun orbit : List Char => orbit.contains c) _ _ horbit
    refine .inr (.inr (List.mem_flatten.mpr ⟨orbit, ?_, hc⟩))
    rw [List.mem_filter, List.contains_iff_mem]
    exact ⟨List.mem_of_find?_eq_some horbit, hmem⟩
  next =>
    rcases List.mem_cons.mp hmem with hsame | hpartner
    · exact .inl hsame.symm
    · obtain ⟨hcode, hletter⟩ := toNat_of_casePartner? hd (Option.mem_toList.mp hpartner)
      refine .inr (.inl ?_)
      rw [if_pos hletter, List.mem_singleton, ← hcode, Nat.add_sub_cancel, Char.ofNat_toNat]

/-- The texts that agree with a word up to case. -/
def spellings : Text → List Text
  | [] => [[]]
  | d :: rest => (caseForms d).flatMap fun c => (spellings rest).map (c :: ·)

theorem mem_spellings {word t : Text} (hword : word.all isSmallAscii = true)
    (ht : Css.agreesUpToCase word t = true) : t ∈ spellings word := by
  induction word generalizing t with
  | nil =>
      cases t with
      | nil => exact List.mem_singleton_self _
      | cons c rest => cases ht
  | cons d word ih =>
      rw [List.all_cons, Bool.and_eq_true] at hword
      cases t with
      | nil => cases ht
      | cons c rest =>
          rw [Css.agreesUpToCase, List.zip_cons_cons, List.all_cons, Bool.and_eq_true,
            Bool.and_eq_true, List.contains_iff_mem, beq_iff_eq, List.length_cons,
            List.length_cons] at ht
          have hrest : Css.agreesUpToCase word rest = true := by
            rw [Css.agreesUpToCase, Bool.and_eq_true, beq_iff_eq]
            exact ⟨Nat.succ.inj ht.1, ht.2.2⟩
          rw [spellings, List.mem_flatMap]
          exact ⟨c, mem_caseForms hword.1 ht.2.1, List.mem_map_of_mem (ih hword.2 hrest)⟩

end Text

end UtilityCss
