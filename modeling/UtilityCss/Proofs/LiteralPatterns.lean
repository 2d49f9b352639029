import Mathlib.Data.List.Induction
import UtilityCss.Proofs.PatternShapes

/-!
# Patterns for one text

The escaped form of a text is read as a pattern that matches this text and nothing else.
-/

namespace UtilityCss

namespace PatternReader

/-- A character as it stands in a pattern for one text. -/
def escapedChar (c : Char) : Text := if Pattern.specials.contains c then ['\\', c] else [c]

theorem escaped?_of_special {c : Char} (hc : c ∈ Pattern.specials) :
    escaped? c = some (.single c) := by
  have hspecials : Pattern.specials.all (fun d => escaped? d = some (.single d)) = true := by decide
  simpa using List.all_eq_true.mp hspecials c hc

/-- A character that has no meaning of its own is none of those that begin another lexeme. -/
theorem lexeme?_of_plain {c : Char} (hc : c ∉ Pattern.specials) (rest : Text) :
    lexeme? (c :: rest) = some (.single (literal c), rest) := by
  have hspecial : ['\\', '.', '^', '$', '|', ')', '(', '[', '*', '+', '?', '\x7b'].all
      Pattern.specials.contains = true := by decide
  have hne (d : Char)
      (hd : d ∈ ['\\', '.', '^', '$', '|', ')', '(', '[', '*', '+', '?', '\x7b']) : c ≠ d := by
    rintro rfl
    exact hc (List.contains_iff_mem.mp (List.all_eq_true.mp hspecial _ hd))
  -- All other cases begin with a special character.
  unfold lexeme?
  split <;> simp_all

theorem lexeme?_escapedChar (c : Char) (rest : Text) :
    lexeme? (escapedChar c ++ rest) = some (.single (literal c), rest) := by
  unfold escapedChar
  split
  · rename_i hc
    have hitem := escaped?_of_special (List.contains_iff_mem.mp hc)
    simp [lexeme?, hitem, literal]
  · rename_i hc
    apply lexeme?_of_plain
    simpa using hc

theorem lexemes?_escape (t : Text) {fuel : Nat} (hfuel : t.length ≤ fuel) :
    lexemes? fuel (Pattern.escape t) = some (t.map fun c => .single (literal c)) := by
  induction t generalizing fuel with
  | nil => cases fuel <;> rfl
  | cons c t ih =>
      obtain ⟨fuel, rfl⟩ := Nat.exists_eq_succ_of_ne_zero (Nat.ne_of_gt (Nat.zero_lt_of_lt hfuel))
      have hescape : Pattern.escape (c :: t) = escapedChar c ++ Pattern.escape t := rfl
      obtain ⟨d, rest, hcons⟩ : ∃ d rest, escapedChar c ++ Pattern.escape t = d :: rest := by
        unfold escapedChar
        split <;> exact ⟨_, _, rfl⟩
      have hlexeme := lexeme?_escapedChar c (Pattern.escape t)
      rw [hescape, hcons] at *
      simp only [lexemes?, hlexeme, Option.bind_eq_bind, Option.bind_some,
        ih (Nat.le_of_succ_le_succ hfuel), List.map_cons]

/-- The parts of a pattern for one text, latest first. -/
def literalParts (t : Text) : List (PatternNode × Bool) :=
  (t.map fun c => (literal c, true)).reverse

theorem assemble?_literals (t : Text) (frame : Frame) :
    assemble? (t.map fun c => .single (literal c)) frame [] 0 [] =
      some ⟨{ frame with parts := literalParts t ++ frame.parts }.node, 0, []⟩ := by
  induction t generalizing frame with
  | nil => rfl
  | cons c t ih =>
      rw [List.map_cons, assemble?, ih]
      simp [literalParts, Frame.add]

theorem length_le_escape (t : Text) : t.length ≤ (Pattern.escape t).length := by
  induction t with
  | nil => exact Nat.le_refl 0
  | cons c t ih =>
      have hescape : Pattern.escape (c :: t) = escapedChar c ++ Pattern.escape t := rfl
      rw [hescape, List.length_append, List.length_cons]
      unfold escapedChar
      split <;> simp <;> omega

theorem read?_escape (t : Text) :
    read? (Pattern.escape t) = some ⟨sequence (literalParts t), 0, []⟩ := by
  rw [read?, lexemes?_escape t (length_le_escape t), Option.bind_eq_bind, Option.bind_some,
    assemble?_literals, List.append_nil]
  rfl

theorem advances_of_literalParts {t : Text} {cursor next : Cursor}
    (hreads : (sequence (literalParts t)).Reads false cursor next) : cursor.Advances t next := by
  induction t using List.reverseRecOn generalizing next with
  | nil =>
      obtain rfl := hreads
      exact .refl _
  | append_singleton t c ih =>
      have hparts : literalParts (t ++ [c]) = (literal c, true) :: literalParts t := by
        simp [literalParts]
      rw [hparts] at hreads
      -- A sequence of one part is the part itself, without an empty pattern before it.
      cases hearlier : literalParts t with
      | nil =>
          obtain rfl : t = [] := by simpa [literalParts] using hearlier
          rw [hearlier] at hreads
          exact (PatternNode.reads_literal hreads).1
      | cons part earlier =>
          rw [hearlier] at hreads ih
          obtain ⟨middle, hfirst, hlast⟩ := hreads
          exact (ih hfirst).trans (PatternNode.reads_literal hlast).1

theorem prefers_literal (c : Char) (rest : Text) (position : Nat) (captures : List (Nat × Text)) :
    (literal c).Prefers ⟨position, c :: rest, captures⟩ ⟨position + 1, rest, captures⟩ := by
  apply PatternNode.prefers_oneOf
  simp [CharSet.holds, SetItem.holds]

theorem prefers_literalParts (t rest : Text) (position : Nat) (captures : List (Nat × Text)) :
    (sequence (literalParts t)).Prefers ⟨position, t ++ rest, captures⟩
      ⟨position + t.length, rest, captures⟩ := by
  induction t using List.reverseRecOn generalizing rest with
  | nil => exact fun _ _ haccept => haccept
  | append_singleton t c ih =>
      have hparts : literalParts (t ++ [c]) = (literal c, true) :: literalParts t := by
        simp [literalParts]
      have hlast := prefers_literal c rest (position + t.length) captures
      rw [hparts, List.append_assoc, List.length_append, ← Nat.add_assoc]
      cases hearlier : literalParts t with
      | nil =>
          obtain rfl : t = [] := by simpa [literalParts] using hearlier
          exact hlast
      | cons part earlier =>
          have hfirst := ih (c :: rest)
          rw [hearlier] at hfirst
          intro accept final haccept
          apply hfirst
          apply hlast
          exact haccept

end PatternReader

/-- The pattern for one text matches that text. -/
theorem Pattern.exists_matchWhole_escape {t : Text} {pattern : Pattern}
    (hpattern : Pattern.read? (Pattern.escape t) false = some pattern) :
    ∃ found, pattern.matchWhole t = some found := by
  rw [Pattern.read?, PatternReader.read?_escape] at hpattern
  obtain rfl := Option.some.inj hpattern
  have hprefers := PatternReader.prefers_literalParts t [] 0 []
  rw [List.append_nil] at hprefers
  have hrun := hprefers (fun cursor => if cursor.rest = [] then some cursor else none) _ (if_pos rfl)
  exact ⟨_, congrArg (Option.map _) hrun⟩

/-- The pattern for one text matches that text only. -/
theorem Pattern.eq_of_matchWhole_escape {t body : Text} {found : Match} {pattern : Pattern}
    (hpattern : Pattern.read? (Pattern.escape t) false = some pattern)
    (hmatch : pattern.matchWhole body = some found) : body = t := by
  rw [Pattern.read?, PatternReader.read?_escape] at hpattern
  obtain rfl := Option.some.inj hpattern
  obtain ⟨next, hreads, hend, -, -⟩ := Pattern.reads_of_matchWhole hmatch
  have hadvance := (PatternReader.advances_of_literalParts hreads).rest
  rwa [hend, List.append_nil] at hadvance

end UtilityCss
