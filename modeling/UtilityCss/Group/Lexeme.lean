import UtilityCss.Text.Brackets

/-!
# Lexemes of variant groups

A variant group is a label, such as `dark:hover:`, directly followed by items in
parentheses. Labels and words are made of pieces: single characters, and bracketed
stretches without blanks. A word may also hold parentheses around a stretch without
blanks and parentheses.

A label is preferred to a word. Between items only spaces, tabs, form feeds and
line ends are skipped; another blank is no lexeme, and neither is a bracket that
opens no piece.
-/

namespace UtilityCss

namespace Group

/-- A lexeme of a text with variant groups. -/
inductive Lexeme where
  /-- A label with its opening parenthesis. -/
  | opening (label : Text)
  | word (text : Text)
  | closing
  deriving DecidableEq

/-- Whether a character may stand between items. -/
def isGap (c : Char) : Bool := c == ' ' || c == '\t' || c == '\x0c' || c == '\r' || c == '\n'

/-- Whether a character is a piece of its own. -/
def isPlain (c : Char) : Bool := !Text.isBlank c && !Brackets.isBracket c

/-- A stretch without blanks in square brackets, up to the first closing one. -/
def bracketed? : Text → Option (Text × Text)
  | '[' :: rest =>
      match rest.span fun c => c != ']' && !Text.isBlank c with
      | (inner, ']' :: rest) => some ('[' :: inner ++ [']'], rest)
      | _ => none
  | _ => none

/-- A stretch without blanks and parentheses in parentheses. -/
def parenthesized? : Text → Option (Text × Text)
  | '(' :: rest =>
      match rest.span fun c => c != '(' && c != ')' && !Text.isBlank c with
      | (inner, ')' :: rest) => some ('(' :: inner ++ [')'], rest)
      | _ => none
  | _ => none

/-- A character that is a piece of its own. -/
def plain? : Text → Option (Text × Text)
  | c :: rest => if isPlain c then some ([c], rest) else none
  | [] => none

/-- The first piece of a label. -/
def labelPiece? (t : Text) : Option (Text × Text) := (plain? t).orElse fun _ => bracketed? t

/-- The first piece of a word. -/
def wordPiece? (t : Text) : Option (Text × Text) :=
  (labelPiece? t).orElse fun _ => parenthesized? t

/-- As many pieces as there are, and what follows them. Each is at least one
character, so the length of the text is enough fuel. -/
def pieces (piece? : Text → Option (Text × Text)) : Nat → Text → List Text × Text
  | 0, t => ([], t)
  | fuel + 1, t =>
      match piece? t with
      | none => ([], t)
      | some (piece, rest) =>
          let (others, rest) := pieces piece? fuel rest
          (piece :: others, rest)

/-- Whether pieces form segments that are not empty, each closed by a colon; `filled`
says whether the current segment has a piece. -/
def isLabelFrom : Bool → List Text → Bool
  | _, [] => false
  | filled, [piece] => filled && piece == [':']
  | filled, piece :: rest =>
      if piece == [':'] then filled && isLabelFrom false rest else isLabelFrom true rest

/-- A label and what follows its opening parenthesis. -/
def label? (t : Text) : Option (Text × Text) :=
  match pieces labelPiece? t.length t with
  | (parts, '(' :: rest) => if isLabelFrom false parts then some (parts.flatten, rest) else none
  | _ => none

/-- A word and what follows it. -/
def word? (t : Text) : Option (Text × Text) :=
  match pieces wordPiece? t.length t with
  | ([], _) => none
  | (parts, rest) => some (parts.flatten, rest)

/-- The first lexeme of a text that begins with no gap. -/
def lexeme? (t : Text) : Option (Lexeme × Text) :=
  match t with
  | ')' :: rest => some (.closing, rest)
  | _ =>
      match label? t with
      | some (label, rest) => some (.opening label, rest)
      | none => (word? t).map fun (word, rest) => (.word word, rest)

/-- The lexemes of a text; none if some part of it is no lexeme. Each is at least one
character, so the length of the text is enough fuel. -/
def lexemes? : Nat → Text → Option (List Lexeme)
  | _, [] => some []
  | 0, _ :: _ => none
  | fuel + 1, c :: rest =>
      if isGap c then lexemes? fuel rest
      else do
        let (lexeme, rest) ← lexeme? (c :: rest)
        let others ← lexemes? fuel rest
        some (lexeme :: others)

end Group

end UtilityCss
