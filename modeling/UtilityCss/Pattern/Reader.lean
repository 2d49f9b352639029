import UtilityCss.Pattern.Basic
import UtilityCss.Table

/-!
# Reading patterns

The written form of a pattern is cut into lexemes, and the lexemes are put
together with a stack of the groups that are still open. Both passes are total;
a text that is no pattern gives nothing.

Not read: backreferences, lookbehind, inline flags and boundaries.
-/

namespace UtilityCss

namespace PatternReader

/-- What an opening parenthesis begins. -/
inductive Opening where
  | plain
  | capturing (name : Option Text)
  | ahead (negated : Bool)

/-- A lexeme of a written pattern. -/
inductive Lexeme where
  /-- A part that reads one character; it can be repeated. -/
  | single (node : PatternNode)
  /-- An anchor; it cannot be repeated. -/
  | anchor (node : PatternNode)
  | bar
  | opening (opening : Opening)
  | closing
  | rounds (least : Nat) (most : Option Nat) (greedy : Bool)

/-- One given character. -/
def literal (c : Char) : PatternNode := .oneOf ⟨false, [.single c]⟩

/-- The member of a character set that a backslash and a character denote. Letters
and digits denote nothing unless listed; other characters stand for themselves. -/
def escaped? : Char → Option SetItem
  | 'd' => some (.named .digit false)
  | 'D' => some (.named .digit true)
  | 'w' => some (.named .word false)
  | 'W' => some (.named .word true)
  | 's' => some (.named .blank false)
  | 'S' => some (.named .blank true)
  | 'n' => some (.single '\n')
  | 't' => some (.single '\t')
  | 'r' => some (.single '\r')
  | 'f' => some (.single '\x0c')
  | 'v' => some (.single '\x0b')
  | 'a' => some (.single '\x07')
  | c => if c.isAlphanum then none else some (.single c)

/-- One member of a written character set, a range apart. -/
def setItem? : Text → Option (SetItem × Text)
  | [] => none
  | ['\\'] => none
  | '\\' :: c :: rest => (escaped? c).map (·, rest)
  | c :: rest => some (.single c, rest)

/-- The members of a written character set and what follows its closing bracket.
The first character is a member even if it is a closing bracket. -/
def setItems? : Nat → Bool → Text → Option (List SetItem × Text)
  | 0, _, _ => none
  | _ + 1, false, ']' :: rest => some ([], rest)
  | fuel + 1, _, t => do
      let (item, rest) ← setItem? t
      match rest with
      | '-' :: ']' :: rest => some ([item, .single '-'], rest)
      | '-' :: rest => do
          let (bound, rest) ← setItem? rest
          match item, bound with
          | .single lowest, .single highest =>
              if highest < lowest then none
              else do
                let (items, rest) ← setItems? fuel false rest
                some (.range lowest highest :: items, rest)
          | _, _ => none
      | rest => do
          let (items, rest) ← setItems? fuel false rest
          some (item :: items, rest)

/-- A written character set, from after its opening bracket. -/
def set? (t : Text) : Option (CharSet × Text) :=
  match t with
  | '^' :: rest =>
      (setItems? (rest.length + 1) true rest).map fun (items, rest) => (⟨true, items⟩, rest)
  | _ => (setItems? (t.length + 1) true t).map fun (items, rest) => (⟨false, items⟩, rest)

/-- Whether a repetition sign is followed by the mark for as few rounds as possible. -/
def greediness : Text → Bool × Text
  | '?' :: rest => (false, rest)
  | rest => (true, rest)

/-- A bound between braces, from after the opening brace: one number, or two of which
either may be missing. Anything else is no bound. -/
def bounds? (t : Text) : Option ((Option Nat × Option Nat) × Text) :=
  let number := fun (digits : Text) =>
    if digits = [] then none else some (Text.ofDigitValues (digits.map fun c => c.toNat - 48))
  let (least, rest) := t.span Char.isDigit
  match rest with
  | '\x7d' :: rest => if least = [] then none else some ((number least, number least), rest)
  | ',' :: rest =>
      match rest.span Char.isDigit with
      | (most, '\x7d' :: rest) => some ((number least, number most), rest)
      | _ => none
  | _ => none

/-- Whether a text can name a group. -/
def isGroupName : Text → Bool
  | [] => false
  | c :: rest => (c == '_' || Text.isLetter c) && rest.all Text.isWordChar

/-- What an opening parenthesis begins, from after it. -/
def opening? : Text → Option (Opening × Text)
  | '?' :: ':' :: rest => some (.plain, rest)
  | '?' :: '=' :: rest => some (.ahead false, rest)
  | '?' :: '!' :: rest => some (.ahead true, rest)
  | '?' :: 'P' :: '<' :: rest =>
      match rest.span (· != '>') with
      | (name, _ :: rest) => if isGroupName name then some (.capturing (some name), rest) else none
      | _ => none
  | '?' :: _ => none
  | rest => some (.capturing none, rest)

/-- The first lexeme of a written pattern. -/
def lexeme? : Text → Option (Lexeme × Text)
  | [] => none
  | ['\\'] => none
  | '\\' :: c :: rest => (escaped? c).map fun item => (.single (.oneOf ⟨false, [item]⟩), rest)
  | '.' :: rest => some (.single .any, rest)
  | '^' :: rest => some (.anchor .start, rest)
  | '$' :: rest => some (.anchor .finish, rest)
  | '|' :: rest => some (.bar, rest)
  | ')' :: rest => some (.closing, rest)
  | '(' :: rest => (opening? rest).map fun (opening, rest) => (.opening opening, rest)
  | '[' :: rest => (set? rest).map fun (set, rest) => (.single (.oneOf set), rest)
  | '*' :: rest => let (greedy, rest) := greediness rest; some (.rounds 0 none greedy, rest)
  | '+' :: rest => let (greedy, rest) := greediness rest; some (.rounds 1 none greedy, rest)
  | '?' :: rest => let (greedy, rest) := greediness rest; some (.rounds 0 (some 1) greedy, rest)
  | '\x7b' :: rest =>
      match bounds? rest with
      | none => some (.single (literal '\x7b'), rest)
      | some ((least, most), rest) =>
          let (greedy, rest) := greediness rest
          some (.rounds (least.getD 0) most greedy, rest)
  | c :: rest => some (.single (literal c), rest)

/-- The lexemes of a written pattern. Each reads at least one character, so the
length of the text is enough fuel. -/
def lexemes? : Nat → Text → Option (List Lexeme)
  | _, [] => some []
  | 0, _ :: _ => none
  | fuel + 1, t => do
      let (lexeme, rest) ← lexeme? t
      let others ← lexemes? fuel rest
      some (lexeme :: others)

/-- How an open group is closed. -/
inductive Closing where
  | plain
  | capturing (index : Nat)
  | ahead (negated : Bool)

/-- A group under construction: its finished alternatives and the parts of the current
one, each with whether it can be repeated; both latest first. -/
structure Frame where
  closing : Closing
  alternatives : List PatternNode := []
  parts : List (PatternNode × Bool) := []

/-- The sequence of some parts, latest first. -/
def sequence : List (PatternNode × Bool) → PatternNode
  | [] => .empty
  | [(node, _)] => node
  | (node, _) :: earlier => .seq (sequence earlier) node

namespace Frame

def add (frame : Frame) (node : PatternNode) (repeatable : Bool) : Frame :=
  { frame with parts := (node, repeatable) :: frame.parts }

/-- The node of a frame: its alternatives in the order of writing. -/
def node (frame : Frame) : PatternNode :=
  frame.alternatives.foldl (fun later earlier => .alt earlier later) (sequence frame.parts)

/-- The node of a closed group. -/
def close (frame : Frame) : PatternNode :=
  match frame.closing with
  | .plain => frame.node
  | .capturing index => .group index frame.node
  | .ahead negated => .ahead negated frame.node

end Frame

/-- A pattern read to the end: its tree, the number of its groups and their names. -/
structure Reading where
  root : PatternNode
  groupCount : Nat
  groupNames : Table Text Nat

/-- Put lexemes together: the innermost open group, the groups around it, and the
groups counted and named so far. -/
def assemble? : List Lexeme → Frame → List Frame → Nat → Table Text Nat → Option Reading
  | [], frame, [], count, names => some ⟨frame.node, count, names⟩
  | [], _, _ :: _, _, _ => none
  | lexeme :: rest, frame, outer, count, names =>
      match lexeme with
      | .single node => assemble? rest (frame.add node true) outer count names
      | .anchor node => assemble? rest (frame.add node false) outer count names
      | .bar =>
          let frame := { frame with
            alternatives := sequence frame.parts :: frame.alternatives, parts := [] }
          assemble? rest frame outer count names
      | .opening .plain => assemble? rest { closing := .plain } (frame :: outer) count names
      | .opening (.ahead negated) =>
          assemble? rest { closing := .ahead negated } (frame :: outer) count names
      | .opening (.capturing none) =>
          assemble? rest { closing := .capturing (count + 1) } (frame :: outer) (count + 1) names
      | .opening (.capturing (some name)) =>
          if names.hasKey name then none
          else assemble? rest { closing := .capturing (count + 1) } (frame :: outer) (count + 1)
            (names.put name (count + 1))
      | .closing =>
          match outer with
          | [] => none
          | enclosing :: outer => assemble? rest (enclosing.add frame.close true) outer count names
      | .rounds least most greedy =>
          match frame.parts with
          | (node, true) :: earlier =>
              if most.any (· < least) then none
              else
                let parts := (.repeated least most greedy node, false) :: earlier
                assemble? rest { frame with parts } outer count names
          | _ => none

/-- Read a written pattern. -/
def read? (source : Text) : Option Reading := do
  let lexemes ← lexemes? source.length source
  assemble? lexemes { closing := .plain } [] 0 []

end PatternReader

end UtilityCss
