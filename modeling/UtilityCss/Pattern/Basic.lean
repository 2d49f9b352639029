import UtilityCss.Text.Case
import UtilityCss.Text.Letter

/-!
# Patterns

The pattern language: sets of characters, anchors, sequence, alternation,
repetition, capturing groups and lookahead. A pattern is tried at a cursor in a
text and hands each way to match it, in order of preference, to a continuation;
the first way that the continuation accepts decides.

A repetition first makes its required rounds. A further round is not begun where
the round before it began, so that rounds which read nothing come to an end.
-/

namespace UtilityCss

/-- The named classes of characters. -/
inductive CharKind where
  | digit
  | word
  | blank
  deriving DecidableEq

/-- Whether a character belongs to a named class. -/
def CharKind.holds : CharKind → Char → Bool
  | .digit, c => Text.isDecimal c
  | .word, c => Text.isWordChar c
  | .blank, c => Text.isBlank c

/-- A member of a character set. -/
inductive SetItem where
  | single (c : Char)
  | range (lowest highest : Char)
  | named (kind : CharKind) (negated : Bool)
  deriving DecidableEq

/-- Whether a character is covered by a member of a set. -/
def SetItem.holds : SetItem → Char → Bool
  | .single d, c => c == d
  | .range lowest highest, c => lowest ≤ c && c ≤ highest
  | .named kind negated, c => kind.holds c != negated

/-- A set of characters, given by its members or by those it leaves out. -/
structure CharSet where
  negated : Bool
  items : List SetItem
  deriving DecidableEq

/-- Whether a set has a character, or one equal to it up to case if `foldCase`. -/
def CharSet.holds (set : CharSet) (foldCase : Bool) (c : Char) : Bool :=
  let forms := if foldCase then Text.caseOrbit c else [c]
  (forms.any fun d => set.items.any (·.holds d)) != set.negated

/-- The syntax tree of a pattern. -/
inductive PatternNode where
  /-- The empty text. -/
  | empty
  /-- One character of a set. -/
  | oneOf (set : CharSet)
  /-- One character other than a newline. -/
  | any
  /-- The start of the text. -/
  | start
  /-- The end of the text, or the place before a newline that ends it. -/
  | finish
  | seq (first second : PatternNode)
  /-- The first alternative is preferred. -/
  | alt (first second : PatternNode)
  /-- Remember the text that the body reads. -/
  | group (index : Nat) (body : PatternNode)
  /-- The body matches here, or does not if `negated`; nothing is read. -/
  | ahead (negated : Bool) (body : PatternNode)
  /-- At least `least` and at most `most` rounds, as many as possible if `greedy`. -/
  | repeated (least : Nat) (most : Option Nat) (greedy : Bool) (body : PatternNode)

/-- A place in a text, and what the groups have read so far, latest first. -/
structure Cursor where
  position : Nat
  rest : Text
  captures : List (Nat × Text) := []

/-- What to do after a match: accept a cursor or refuse it. -/
abbrev Continuation := Cursor → Option Cursor

namespace Cursor

/-- Read one character that satisfies a test. -/
def read (cursor : Cursor) (test : Char → Bool) (accept : Continuation) : Option Cursor :=
  match cursor.rest with
  | c :: rest =>
      if test c then accept { cursor with position := cursor.position + 1, rest } else none
  | [] => none

/-- Whether the cursor is at the end, or before a newline at the end. -/
def atFinish (cursor : Cursor) : Bool := cursor.rest == [] || cursor.rest == ['\n']

end Cursor

/-- A number of rounds that must be made. -/
def requiredRounds (body : Cursor → Continuation → Option Cursor) :
    Nat → Cursor → Continuation → Option Cursor
  | 0, cursor, accept => accept cursor
  | rounds + 1, cursor, accept =>
      body cursor fun next => requiredRounds body rounds next accept

/-- Up to a number of rounds that may be made, where the round before began at
`last`. -/
def optionalRounds (greedy : Bool) (body : Cursor → Continuation → Option Cursor) :
    Nat → Option Nat → Cursor → Continuation → Option Cursor
  | 0, _, cursor, accept => accept cursor
  | rounds + 1, last, cursor, accept =>
      if last = some cursor.position then accept cursor
      else
        let another := fun (_ : Unit) => body cursor fun next =>
          optionalRounds greedy body rounds (some cursor.position) next accept
        if greedy then (another ()).orElse fun _ => accept cursor
        else (accept cursor).orElse another

/-- The number of optional rounds worth trying: the bound of the pattern, and never
more than one round beyond the characters that are left. -/
def roundLimit (least : Nat) (most : Option Nat) (cursor : Cursor) : Nat :=
  match most with
  | none => cursor.rest.length + 1
  | some most => min (most - least) (cursor.rest.length + 1)

/-- Try a pattern at a cursor. -/
def PatternNode.run (foldCase : Bool) : PatternNode → Cursor → Continuation → Option Cursor
  | .empty, cursor, accept => accept cursor
  | .oneOf set, cursor, accept => cursor.read (set.holds foldCase) accept
  | .any, cursor, accept => cursor.read (· != '\n') accept
  | .start, cursor, accept => if cursor.position = 0 then accept cursor else none
  | .finish, cursor, accept => if cursor.atFinish then accept cursor else none
  | .seq first second, cursor, accept =>
      first.run foldCase cursor fun next => second.run foldCase next accept
  | .alt first second, cursor, accept =>
      (first.run foldCase cursor accept).orElse fun _ => second.run foldCase cursor accept
  | .group index body, cursor, accept =>
      body.run foldCase cursor fun next =>
        let reading := cursor.rest.take (next.position - cursor.position)
        accept { next with captures := (index, reading) :: next.captures }
  | .ahead negated body, cursor, accept =>
      match body.run foldCase cursor some, negated with
      | some found, false => accept { cursor with captures := found.captures }
      | none, true => accept cursor
      | _, _ => none
  | .repeated least most greedy body, cursor, accept =>
      requiredRounds (fun cursor accept => body.run foldCase cursor accept) least cursor
        fun next =>
          optionalRounds greedy (fun cursor accept => body.run foldCase cursor accept)
            (roundLimit least most next) none next accept

end UtilityCss
