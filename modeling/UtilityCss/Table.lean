/-!
# Ordered tables

A table is a list of keys with values, in the order in which the keys were first
put. Putting a key that is present replaces its value and keeps its place.
-/

namespace UtilityCss

/-- Keys with values, in insertion order. -/
abbrev Table (κ : Type u) (α : Type v) := List (κ × α)

namespace Table

variable {κ : Type u} {α : Type v} [DecidableEq κ]

/-- The value of a key. -/
def get? (table : Table κ α) (key : κ) : Option α := table.lookup key

/-- The keys in order. -/
def keys (table : Table κ α) : List κ := table.map (·.1)

/-- Whether a key is present. -/
def hasKey (table : Table κ α) (key : κ) : Bool := table.any (·.1 == key)

/-- Give a key a value: in place if it is present, else at the end. -/
def put (key : κ) (value : α) : Table κ α → Table κ α
  | [] => [(key, value)]
  | (other, old) :: rest =>
      if other = key then (key, value) :: rest else (other, old) :: put key value rest

/-- Put all entries of `extra`, in their order. -/
def putAll (table extra : Table κ α) : Table κ α :=
  extra.foldl (fun table (key, value) => put key value table) table

/-- The table of some entries; of two with one key, the first gives the place and
the last the value. -/
def ofEntries (entries : List (κ × α)) : Table κ α := putAll [] entries

end Table

end UtilityCss
