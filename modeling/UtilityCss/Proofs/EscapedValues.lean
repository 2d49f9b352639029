import UtilityCss.Proofs.AlphaChannels

/-!
# Values written for brackets

A value in brackets has underscores for its spaces, and a backslash before the underscores that
are its own. To read it is to write spaces for the underscores that no backslash precedes, and
then to drop the backslashes before the others. The first of these rewrites leaves no underscore
without a backslash, so that the second one finds only what was escaped, and one pass does both.

A backslash before a space is the one thing that cannot be written this way: with an underscore
for the space it is read as an escape.
-/

namespace UtilityCss

namespace Payload

/-! ## Reading in two rewrites -/

/-- Write spaces for the underscores that do not follow a backslash; `escaped` tells whether the
text itself follows one. -/
def writeSpaces : (escaped : Bool) → Text → Text
  | _, [] => []
  | escaped, c :: rest =>
      (if c = '_' ∧ escaped = false then ' ' else c) :: writeSpaces (c == '\\') rest

/-- Drop the backslashes before underscores. -/
def dropEscapes : Text → Text
  | '\\' :: '_' :: rest => '_' :: dropEscapes rest
  | c :: rest => c :: dropEscapes rest
  | [] => []

theorem head?_writeSpaces (t : Text) : (writeSpaces false t).head? ≠ some '_' := by
  cases t with
  | nil => simp [writeSpaces]
  | cons c rest =>
      by_cases hc : c = '_'
      · simp [writeSpaces, hc]
      · simp [writeSpaces, hc]

/-- What a text follows makes no difference if it does not begin with an underscore. -/
theorem writeSpaces_of_head? {t : Text} (ht : t.head? ≠ some '_') (escaped : Bool) :
    writeSpaces escaped t = writeSpaces false t := by
  cases t with
  | nil => rfl
  | cons c rest =>
      have hc : c ≠ '_' := by simpa using ht
      simp [writeSpaces, hc]

theorem dropEscapes_cons {c : Char} {rest : Text} (hrest : rest.head? ≠ some '_') :
    dropEscapes (c :: rest) = c :: dropEscapes rest := by
  rw [dropEscapes]
  rintro others - rfl
  exact hrest rfl

/-- One pass does both rewrites. -/
theorem normalize_eq_rewrites (t : Text) : normalize t = dropEscapes (writeSpaces false t) := by
  induction t using normalize.induct with
  | case1 rest ih =>
      rw [normalize, ih]
      rfl
  | case2 c rest hplain ih =>
      have hrest : writeSpaces (c == '\\') rest = writeSpaces false rest := by
        by_cases hc : c = '\\'
        · apply writeSpaces_of_head?
          intro hhead
          obtain ⟨others, hothers⟩ := List.head?_eq_some_iff.mp hhead
          exact hplain others hc hothers
        · rw [beq_eq_false_iff_ne.mpr hc]
      rw [normalize.eq_2 _ _ hplain, ih, writeSpaces, hrest,
        dropEscapes_cons (head?_writeSpaces rest)]
      simp
  | case3 => rfl

/-! ## Writing and reading back -/

/-- Write a value for brackets: escape its underscores, then write underscores for its spaces. -/
def escape (value : Text) : Text := Text.substitute ' ' "_" (Text.substitute '_' "\\_" value)

theorem escape_cons (c : Char) (rest : Text) :
    escape (c :: rest) =
      (if c = '_' then ['\\', '_'] else if c = ' ' then ['_'] else [c]) ++ escape rest := by
  unfold escape Text.substitute
  rw [List.flatMap_cons, List.flatMap_append]
  congr 1
  split
  · rfl
  · simp

theorem space_not_mem_escape (value : Text) : ' ' ∉ escape value := by
  intro hspace
  rcases Text.of_mem_substitute hspace with hmem | ⟨-, hne⟩
  · simp at hmem
  · exact hne rfl

/-- An underscore at the start stands for a space; one of the value has a backslash before it. -/
theorem head?_escape {value : Text} :
    (escape value).head? = some '_' ↔ value.head? = some ' ' := by
  cases value with
  | nil => simp [escape, Text.substitute]
  | cons c rest =>
      rw [escape_cons]
      by_cases hunderscore : c = '_'
      · simp [hunderscore]
      · by_cases hspace : c = ' '
        · simp [hspace]
        · simp [hunderscore, hspace]

theorem normalize_cons {c : Char} {rest : Text} (hplain : ¬ (c = '\\' ∧ rest.head? = some '_')) :
    normalize (c :: rest) = (if c = '_' then ' ' else c) :: normalize rest := by
  rw [normalize]
  rintro others rfl rfl
  exact hplain ⟨rfl, rfl⟩

/-- Every character comes back, except a backslash before a space. -/
theorem normalize_escape_cons {c : Char} {rest : Text}
    (hkept : ¬ (c = '\\' ∧ rest.head? = some ' ')) :
    normalize (escape (c :: rest)) = c :: normalize (escape rest) := by
  rw [escape_cons]
  split
  next hunderscore =>
    subst hunderscore
    rfl
  next hunderscore =>
    split
    next hspace =>
      subst hspace
      rfl
    next =>
      rw [← head?_escape] at hkept
      rw [List.singleton_append, normalize_cons hkept, if_neg hunderscore]

theorem normalize_escape_space (rest : Text) :
    normalize (escape ('\\' :: ' ' :: rest)) = '_' :: normalize (escape rest) := rfl

theorem normalize_escape_iff (value : Text) :
    normalize (escape value) = value ↔ ¬ ['\\', ' '] <:+: value := by
  induction value with
  | nil => simp [escape, Text.substitute, normalize]
  | cons c rest ih =>
      rw [List.infix_cons_iff]
      by_cases hlost : c = '\\' ∧ rest.head? = some ' '
      · obtain ⟨rfl, hspace⟩ := hlost
        obtain ⟨others, rfl⟩ := List.head?_eq_some_iff.mp hspace
        rw [normalize_escape_space]
        simp
      · have hfirst : ¬ ['\\', ' '] <+: c :: rest := by
          rintro ⟨others, hothers⟩
          obtain ⟨rfl, rfl⟩ := List.cons.inj hothers
          exact hlost ⟨rfl, rfl⟩
        rw [normalize_escape_cons hlost, List.cons.injEq, ih]
        simp [hfirst]

/-- A value in brackets is read in two rewrites, of which the first one writes the spaces and the
second one drops the escapes. What is written for a value has no spaces, and is read back as the
value exactly if the value has no space behind a backslash. -/
theorem escape_reads_back (value : Text) :
    normalize (escape value) = dropEscapes (writeSpaces false (escape value)) ∧
      ' ' ∉ escape value ∧
      (normalize (escape value) = value ↔ ¬ ['\\', ' '] <:+: value) :=
  ⟨normalize_eq_rewrites _, space_not_mem_escape value, normalize_escape_iff value⟩

end Payload

end UtilityCss
