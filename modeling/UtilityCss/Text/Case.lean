import UtilityCss.Text.Basic

/-!
# Letter case

Two characters match without regard to case when they lie in one orbit. The
orbits of `k`, `s` and `i` reach beyond ASCII: the Kelvin sign, the long s, and
the dotted capital and the dotless small i. Case pairs outside Latin, Greek,
Cyrillic, the Roman numerals and the fullwidth forms are left apart.
-/

namespace UtilityCss

namespace Text

/-- Orbits of more than two characters. -/
def wideOrbits : List (List Char) :=
  [['k', 'K', '\u212a'], ['s', 'S', '\u017f'], ['i', 'I', '\u0130', '\u0131'],
    ['\u00b5', '\u03bc', '\u039c'], ['\u00e5', '\u00c5', '\u212b'], ['\u00df', '\u1e9e'],
    ['\u03c3', '\u03a3', '\u03c2'], ['\u00ff', '\u0178']]

/-- Runs of capitals whose small forms lie at a fixed distance: first, last, distance. -/
def capitalRuns : List (Nat × Nat × Nat) :=
  [(0x41, 0x5A, 32), (0xC0, 0xD6, 32), (0xD8, 0xDE, 32), (0x391, 0x3A1, 32), (0x3A3, 0x3AB, 32),
    (0x410, 0x42F, 32), (0x400, 0x40F, 80), (0x2160, 0x216F, 16), (0xFF21, 0xFF3A, 32)]

/-- The other member of a pair of capital and small letter. -/
def casePartner? (c : Char) : Option Char :=
  capitalRuns.findSome? fun (first, last, distance) =>
    if first ≤ c.toNat && c.toNat ≤ last then some (Char.ofNat (c.toNat + distance))
    else if first + distance ≤ c.toNat && c.toNat ≤ last + distance then
      some (Char.ofNat (c.toNat - distance))
    else none

/-- The characters that equal `c` up to case, `c` among them. -/
def caseOrbit (c : Char) : List Char :=
  match wideOrbits.find? (·.contains c) with
  | some orbit => orbit
  | none => c :: (casePartner? c).toList

/-- The small letters of the Latin alphabet, and all characters equal to one of
them up to case. -/
def isLatinLetter (c : Char) : Bool :=
  (caseOrbit c).any fun d => 'a' ≤ d && d ≤ 'z'

/-- Write ASCII capitals as small letters. -/
def lowerAscii (t : Text) : Text := t.map Char.toLower

end Text

end UtilityCss
