import UtilityCss.Group.Lexeme

/-!
# Expansion of variant groups

Each word of a group is written out behind the labels of the groups around it,
the outermost first. A chunk whose groups are malformed is split at its blanks
instead, so that it does not spoil its neighbours.
-/

namespace UtilityCss

namespace Group

/-- The words of some lexemes behind the labels of their groups, of which `labels`
are open, innermost first. None if a closing parenthesis is missing or too many. -/
def expand? : List Text → List Lexeme → Option (List Text)
  | [], [] => some []
  | _ :: _, [] => none
  | labels, .word word :: rest =>
      (expand? labels rest).map ((labels.reverse.flatten ++ word) :: ·)
  | labels, .opening label :: rest => expand? (label :: labels) rest
  | _ :: labels, .closing :: rest => expand? labels rest
  | [], .closing :: _ => none

/-- The tokens of a chunk if its groups are well formed. -/
def tokens? (chunk : Text) : Option (List Text) := do
  let lexemes ← lexemes? chunk.length chunk
  expand? [] lexemes

/-- The tokens of a chunk without blanks outside brackets. -/
def expandChunk (chunk : Text) : List Text :=
  if chunk.contains '(' then (tokens? chunk).getD (Text.words chunk) else [chunk]

/-- The tokens of a text, with its variant groups written out. -/
def expand (t : Text) : List Text := (Brackets.splitBlanks t).flatMap expandChunk

end Group

end UtilityCss
