import UtilityCss.Text.Brackets
import UtilityCss.Text.Case

/-!
# Bracketed payloads

A value in square brackets is taken as it is written, except that an underscore
stands for a space and a backslash before an underscore for the underscore. A
payload may begin with a type hint: letters and dashes before a colon.
-/

namespace UtilityCss

namespace Payload

/-- Write spaces for underscores, and underscores for escaped ones. -/
def normalize : Text → Text
  | '\\' :: '_' :: rest => '_' :: normalize rest
  | c :: rest => (if c = '_' then ' ' else c) :: normalize rest
  | [] => []

/-- Whether a text has square brackets around it. -/
def isBracketed (t : Text) : Bool := Text.startsWith t "[" && Text.endsWith t "]"

/-- Whether a text has square brackets somewhere with something between them. -/
def occursIn : Text → Bool
  | [] => false
  | c :: rest =>
      let closed := match rest.span (· != ']') with
        | (_ :: _, _ :: _) => true
        | _ => false
      (c == '[' && closed) || occursIn rest

/-- The text before a final closing bracket, after which one newline may stand. The
text is not empty and has no newline. -/
def beforeClosing? (t : Text) : Option Text := do
  let t := (Text.beforeTail? ['\n'] t).getD t
  let inner ← Text.beforeTail? [']'] t
  if inner = [] || inner.contains '\n' then none else some inner

/-- Whether a character can be part of a type hint. -/
def isHintChar (c : Char) : Bool := c == '-' || Text.isLatinLetter c

/-- A bracketed text as a type hint and a normalized value. A hint is one only if
something follows its colon. -/
def read? (t : Text) : Option (Option Text × Text) :=
  match t with
  | '[' :: inner =>
      let hinted := match inner.span isHintChar with
        | (hint, ':' :: rest) =>
            if hint = [] then none else (beforeClosing? rest).map fun value => (some hint, value)
        | _ => none
      let found := hinted.orElse fun _ => (beforeClosing? inner).map fun value => (none, value)
      found.map fun (hint, value) => (hint, normalize value)
  | _ => none

end Payload

end UtilityCss
