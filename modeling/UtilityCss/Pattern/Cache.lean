import UtilityCss.Number.Binary64
import UtilityCss.Pattern.Match

/-!
# The pattern cache

Patterns are read once and kept under a name and a flag word. The first pattern
that is stored under a key stays there until the cache is cleared, whatever text
later lookups bring. A text that cannot be read counts as a miss and takes no key.
-/

namespace UtilityCss

/-- What a lookup brings: the text of a pattern, or a pattern read in advance. -/
inductive PatternSource where
  | text (source : Text)
  | ready (pattern : Pattern)

/-- The flag that makes patterns fold case. -/
def foldCaseFlag : Nat := 2

/-- The flag that every pattern read in advance carries. -/
def readyFlag : Nat := 32

/-- Whether a flag word asks to fold case. -/
def foldsCase (flags : Nat) : Bool := flags.testBit 1

/-- Patterns under their keys, with the counts of lookups that found one and of
those that did not. -/
structure PatternCache where
  entries : Table (Text × Nat) Pattern := []
  hits : Nat := 0
  misses : Nat := 0

/-- Computations that look patterns up. The cache they leave behind is there after an
error too. -/
abbrev Cached := ExceptT Error (StateM PatternCache)

namespace PatternCache

/-- The pattern that a source denotes. -/
def pattern? (source : PatternSource) (flags : Nat) : Option Pattern :=
  match source with
  | .text source => Pattern.read? source (foldsCase flags)
  | .ready pattern => some pattern

/-- The pattern under a key, and the cache after the lookup. -/
def lookup (cache : PatternCache) (name : Text) (source : PatternSource) (flags : Nat) :
    Except Error Pattern × PatternCache :=
  match cache.entries.get? (name, flags) with
  | some pattern => (.ok pattern, { cache with hits := cache.hits + 1 })
  | none =>
      let cache := { cache with misses := cache.misses + 1 }
      match pattern? source flags with
      | some pattern =>
          (.ok pattern, { cache with entries := cache.entries ++ [((name, flags), pattern)] })
      | none => (.error .invalidPattern, cache)

/-- Look a pattern up. -/
def fetch (name : Text) (source : PatternSource) (flags : Nat := 0) : Cached Pattern :=
  fun cache => cache.lookup name source flags

/-- Whether the pattern under a key occurs in a text. -/
def test (name : Text) (source : PatternSource) (t : Text) (flags : Nat := 0) : Cached Bool := do
  let pattern ← fetch name source flags
  return (pattern.search t).isSome

/-- What the first group of the pattern under a key reads in a text. -/
def extract (name : Text) (source : PatternSource) (t : Text) (flags : Nat := 0) :
    Cached (Option Text) := do
  let pattern ← fetch name source flags
  return (pattern.search t).bind (·.captures.lookup 1)

/-- Whether there is a pattern under a name, with any flags. -/
def hasName (cache : PatternCache) (name : Text) : Bool := cache.entries.any (·.1.1 == name)

/-- Whether there is a pattern under a name and a flag word. -/
def hasEntry (cache : PatternCache) (name : Text) (flags : Nat) : Bool :=
  cache.entries.hasKey (name, flags)

def size (cache : PatternCache) : Nat := cache.entries.length

/-- The share of lookups that found a pattern, in percent. -/
def hitRate (cache : PatternCache) : Binary64 :=
  let lookups := cache.hits + cache.misses
  if lookups = 0 then .zero else (Binary64.ofRatio false cache.hits lookups).scale 100 1

end PatternCache

end UtilityCss
