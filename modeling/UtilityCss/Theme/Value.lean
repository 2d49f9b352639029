import UtilityCss.Table
import UtilityCss.Text.Quoted

/-!
# Theme values

A theme is a table of values of any kind: texts, numbers, lists and tables of values.
Two themes merge key by key; where both have tables the tables merge, and elsewhere the
later value stands.
-/

namespace UtilityCss

/-- A value of a theme. -/
inductive Value where
  | null
  | bool (value : Bool)
  | int (value : Int)
  | text (value : Text)
  | list (items : List Value)
  | table (entries : List (Text × Value))

/-- Named values, in order. -/
abbrev Theme := Table Text Value

namespace Value

/-- The name of the kind of a value in messages. -/
def kindName : Value → Text
  | .null => "NoneType"
  | .bool _ => "bool"
  | .int _ => "int"
  | .text _ => "str"
  | .list _ => "list"
  | .table _ => "dict"

/-- The text of a value, if it is one. -/
def text? : Value → Option Text
  | .text value => some value
  | _ => none

/-- The entries of a value, if it is a table. -/
def table? : Value → Option Theme
  | .table entries => some entries
  | _ => none

/-- Whether a value counts as present: not null, false, zero or empty. -/
def isPresent : Value → Bool
  | .null => false
  | .bool value => value
  | .int value => value != 0
  | .text value => value != []
  | .list items => !items.isEmpty
  | .table entries => !entries.isEmpty

mutual

/-- The written form of a value, with its texts quoted. -/
def written : Value → Text
  | .null => "None"
  | .bool value => if value then "True" else "False"
  | .int value => Text.ofInt value
  | .text value => Text.quote value
  | .list items => "[" ++ Text.join ", " (writtenItems items) ++ "]"
  | .table entries => "\x7b" ++ Text.join ", " (writtenEntries entries) ++ "\x7d"

/-- The written forms of some values. -/
def writtenItems : List Value → List Text
  | [] => []
  | item :: rest => written item :: writtenItems rest

/-- The written forms of some entries. -/
def writtenEntries : List (Text × Value) → List Text
  | [] => []
  | (key, value) :: rest => (Text.quote key ++ ": " ++ written value) :: writtenEntries rest

end

/-- A value as the text of a declaration: a text as it is, anything else in written
form. -/
def plainText : Value → Text
  | .text value => value
  | value => written value

mutual

/-- The value that `current` becomes when `extra` is merged into it. -/
def merge (current : Value) : Value → Value
  | .table extra =>
      match current with
      | .table base => .table (mergeEntries base extra)
      | _ => .table extra
  | extra => extra

/-- A table with entries merged into it, in their order. -/
def mergeEntries (base : Theme) : List (Text × Value) → Theme
  | [] => base
  | (key, value) :: rest =>
      let merged := match base.get? key with
        | some current => merge current value
        | none => value
      mergeEntries (base.put key merged) rest

end

/-- A table of texts. -/
def texts (entries : List (Text × Text)) : Value :=
  .table (entries.map fun (key, value) => (key, .text value))

end Value

namespace Theme

/-- A theme with another merged into it. -/
def merge (base extra : Theme) : Theme := Value.mergeEntries base extra

/-- The value under a key of a section, if the section is a table that has it. -/
def lookup? (theme : Theme) (scale key : Text) : Option Value := do
  let values ← (← theme.get? scale).table?
  values.get? key

/-- The text under a key of a section. -/
def text? (theme : Theme) (scale key : Text) : Option Text := do
  (← theme.lookup? scale key).text?

end Theme

end UtilityCss
