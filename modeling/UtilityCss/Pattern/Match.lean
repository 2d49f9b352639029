import UtilityCss.Error
import UtilityCss.Pattern.Reader

/-!
# Patterns and matches

A pattern keeps its written form beside its tree. It can be matched against a
whole text, at the start of a text, or anywhere in it; the leftmost match wins,
and of those at one place the one that the pattern prefers.
-/

namespace UtilityCss

/-- A pattern that has been read. -/
structure Pattern where
  source : Text
  foldCase : Bool
  root : PatternNode
  groupCount : Nat
  groupNames : Table Text Nat

/-- A match of a pattern in a text: the text before it, its own text and the text
after it, and what the groups read, latest first. -/
structure Match where
  before : Text
  whole : Text
  after : Text
  captures : List (Nat × Text)
  groupCount : Nat
  groupNames : Table Text Nat

namespace Match

/-- What a group read; group zero is the whole match. -/
def group? (found : Match) (index : Nat) : Option Text :=
  if index = 0 then some found.whole else found.captures.lookup index

/-- What a named group read, if it took part. -/
def named (found : Match) (name : Text) : Except Error (Option Text) :=
  match found.groupNames.get? name with
  | some index => .ok (found.group? index)
  | none => .error .unknownGroup

/-- What a named group read. -/
def text (found : Match) (name : Text) : Except Error Text := do
  match ← found.named name with
  | some text => .ok text
  | none => .error .absentGroup

end Match

namespace Pattern

/-- Read a pattern. -/
def read? (source : Text) (foldCase : Bool) : Option Pattern :=
  (PatternReader.read? source).map fun reading =>
    { source, foldCase, root := reading.root, groupCount := reading.groupCount,
      groupNames := reading.groupNames }

/-- The characters that have a meaning in patterns, and the blanks. -/
def specials : Text := "()[]\x7b\x7d?*+-|^$\\.&~# \t\n\r\x0b\x0c"

/-- The pattern text that matches a given text and nothing else. -/
def escape (t : Text) : Text := t.flatMap fun c => if specials.contains c then ['\\', c] else [c]

/-- Try a pattern at a place in a text. -/
def matchAt (pattern : Pattern) (before rest : Text) (accept : Continuation) : Option Match :=
  (pattern.root.run pattern.foldCase { position := before.length, rest } accept).map fun cursor =>
    { before
      whole := rest.take (cursor.position - before.length)
      after := cursor.rest
      captures := cursor.captures
      groupCount := pattern.groupCount
      groupNames := pattern.groupNames }

/-- Match all of a text. -/
def matchWhole (pattern : Pattern) (t : Text) : Option Match :=
  pattern.matchAt [] t fun cursor => if cursor.rest = [] then some cursor else none

/-- Match at the start of a text. -/
def matchStart (pattern : Pattern) (t : Text) : Option Match := pattern.matchAt [] t some

/-- The leftmost match that begins in `rest`. -/
def searchFrom (pattern : Pattern) (before : Text) : Text → Option Match
  | [] => pattern.matchAt before [] some
  | c :: rest =>
      (pattern.matchAt before (c :: rest) some).orElse fun _ =>
        pattern.searchFrom (before ++ [c]) rest

/-- The leftmost match in a text. -/
def search (pattern : Pattern) (t : Text) : Option Match := pattern.searchFrom [] t

end Pattern

end UtilityCss
