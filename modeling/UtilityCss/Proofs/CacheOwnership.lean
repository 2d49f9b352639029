import UtilityCss.Pattern.Cache
import UtilityCss.Proofs.Settled

/-!
# Owners of cache keys

The cache returns what was first stored under a key, whatever a later lookup brings.
Answers nevertheless do not depend on its contents, as long as every key belongs to
one lookup: the first with that key in the order in which lookups are made. A cache is
faithful if each of its patterns is that of the owner of its key.

Rules, computed variants and mapping rules are tried in order, with one lookup each.
A sweep over such lookups meets the owner of a key before any other lookup with the
key, so it sees the pattern of the owner from every faithful cache.
-/

namespace UtilityCss

/-- A lookup that a program makes: the name it asks for and the pattern it brings. -/
structure Lookup where
  name : Text
  source : PatternSource
  flags : Nat := 0

namespace Lookup

/-- The key under which the cache keeps the pattern. -/
def key (lookup : Lookup) : Text × Nat := (lookup.name, lookup.flags)

/-- The pattern that the lookup brings, if it can be read. -/
def pattern? (lookup : Lookup) : Option Pattern :=
  PatternCache.pattern? lookup.source lookup.flags

def fetch (lookup : Lookup) : Cached Pattern :=
  PatternCache.fetch lookup.name lookup.source lookup.flags

end Lookup

/-- The pattern that belongs to a key: that of the first lookup with the key. -/
def owned (lookups : List Lookup) (key : Text × Nat) : Except Error Pattern :=
  match (lookups.find? fun lookup => lookup.key = key).bind Lookup.pattern? with
  | some pattern => .ok pattern
  | none => .error .invalidPattern

/-- A lookup owns its key if no lookup before it has the key. -/
theorem owned_of_first {before : List Lookup} (after : List Lookup) {lookup : Lookup}
    (hfirst : ∀ earlier ∈ before, earlier.key ≠ lookup.key) :
    owned (before ++ lookup :: after) lookup.key = match lookup.pattern? with
      | some pattern => .ok pattern
      | none => .error .invalidPattern := by
  have hfind : (before ++ lookup :: after).find? (fun other => other.key = lookup.key) =
      some lookup := by
    rw [List.find?_append, List.find?_eq_none.mpr (by simpa using hfirst)]
    simp
  rw [owned, hfind]
  rfl

/-- One more entry at the end of a table gives its key a value if the key has none yet. -/
theorem Table.get?_append_single {κ α : Type} [DecidableEq κ] (table : Table κ α)
    (key other : κ) (value : α) :
    Table.get? (table ++ [(key, value)]) other =
      (table.get? other).or (if other = key then some value else none) := by
  simp only [Table.get?, List.lookup_append, List.lookup_cons, List.lookup_nil]
  by_cases hkey : other = key
  · simp [hkey]
  · simp [hkey, beq_eq_false_iff_ne.mpr hkey]

namespace PatternCache

/-- Every pattern kept under the key of one of the lookups is that of the key's owner. -/
def Faithful (lookups : List Lookup) (cache : PatternCache) : Prop :=
  ∀ lookup ∈ lookups, ∀ pattern, cache.entries.get? lookup.key = some pattern →
    owned lookups lookup.key = .ok pattern

theorem faithful_empty (lookups : List Lookup) : Faithful lookups {} := by
  intro lookup _ pattern hentry
  simp [Table.get?] at hentry

/-- Keys of the first cache are keys of the second. -/
def KeysWithin (first second : PatternCache) : Prop :=
  ∀ key, (first.entries.get? key).isSome → (second.entries.get? key).isSome

/-- What a fetch finds: the pattern kept under its key, if there is one. -/
theorem fetch_of_present {cache : PatternCache} {lookup : Lookup} {pattern : Pattern}
    (hentry : cache.entries.get? lookup.key = some pattern) :
    (lookup.fetch cache).1 = .ok pattern ∧ (lookup.fetch cache).2.entries = cache.entries := by
  have hrun : lookup.fetch cache = (.ok pattern, { cache with hits := cache.hits + 1 }) := by
    change cache.lookup lookup.name lookup.source lookup.flags = _
    rw [Lookup.key] at hentry
    simp only [PatternCache.lookup, hentry]
  simp [hrun]

/-- A fetch under a new key stores the pattern it brings. -/
theorem fetch_of_absent {cache : PatternCache} {lookup : Lookup}
    (hentry : cache.entries.get? lookup.key = none) :
    match lookup.pattern? with
    | some pattern => (lookup.fetch cache).1 = .ok pattern ∧
        (lookup.fetch cache).2.entries = cache.entries ++ [(lookup.key, pattern)]
    | none => (lookup.fetch cache).1 = .error .invalidPattern ∧
        (lookup.fetch cache).2.entries = cache.entries := by
  change match lookup.pattern? with
    | some pattern => (cache.lookup lookup.name lookup.source lookup.flags).1 = _ ∧
        (cache.lookup lookup.name lookup.source lookup.flags).2.entries = _
    | none => (cache.lookup lookup.name lookup.source lookup.flags).1 = _ ∧
        (cache.lookup lookup.name lookup.source lookup.flags).2.entries = _
  rw [Lookup.key] at hentry
  simp only [PatternCache.lookup, hentry, Lookup.pattern?]
  cases PatternCache.pattern? lookup.source lookup.flags with
  | none => exact ⟨rfl, rfl⟩
  | some pattern => exact ⟨rfl, rfl⟩

/-- A cache stays faithful when it takes in the pattern of the owner of a key. -/
theorem Faithful.append_single {lookups : List Lookup} {cache next : PatternCache}
    (hcache : Faithful lookups cache) {key : Text × Nat} {pattern : Pattern}
    (howned : owned lookups key = .ok pattern)
    (hentries : next.entries = cache.entries ++ [(key, pattern)]) : Faithful lookups next := by
  intro other hother kept hkept
  rw [hentries, Table.get?_append_single] at hkept
  cases hold : cache.entries.get? other.key with
  | some old =>
      rw [hold, Option.some_or] at hkept
      exact Option.some.inj hkept ▸ hcache other hother old hold
  | none =>
      rw [hold, Option.none_or] at hkept
      split at hkept
      next hkey => rw [hkey, howned, Option.some.inj hkept]
      next => cases hkept

/-- From a faithful cache that has the key of a lookup as soon as an earlier lookup has it,
the fetch gives the pattern of the owner. The cache stays faithful, keeps its keys and, if
the pattern can be read, has the key of the lookup. -/
theorem fetch_owned {before after : List Lookup} {lookup : Lookup} {cache : PatternCache}
    (hcache : Faithful (before ++ lookup :: after) cache)
    (hseen : ∀ earlier ∈ before, earlier.key = lookup.key →
      (cache.entries.get? lookup.key).isSome) :
    (lookup.fetch cache).1 = owned (before ++ lookup :: after) lookup.key ∧
      Faithful (before ++ lookup :: after) (lookup.fetch cache).2 ∧
      KeysWithin cache (lookup.fetch cache).2 ∧
      (∀ pattern, (lookup.fetch cache).1 = .ok pattern →
        ((lookup.fetch cache).2.entries.get? lookup.key).isSome) := by
  cases hentry : cache.entries.get? lookup.key with
  | some pattern =>
      obtain ⟨hanswer, hentries⟩ := fetch_of_present hentry
      refine ⟨?_, ?_, ?_, ?_⟩
      · rw [hanswer, hcache lookup (by simp) pattern hentry]
      · simpa only [Faithful, hentries] using hcache
      · intro key hkey
        rwa [hentries]
      · intro _ _
        simp [hentries, hentry]
  | none =>
      have hfirst : ∀ earlier ∈ before, earlier.key ≠ lookup.key := by
        intro earlier hearlier hkey
        simpa [hentry] using hseen earlier hearlier hkey
      have howned := owned_of_first after hfirst
      have hfetch := fetch_of_absent hentry
      cases hpattern : lookup.pattern? with
      | none =>
          simp only [hpattern] at howned hfetch
          obtain ⟨hanswer, hentries⟩ := hfetch
          refine ⟨by rw [hanswer, howned], ?_, ?_, by simp [hanswer]⟩
          · simpa only [Faithful, hentries] using hcache
          · intro key hkey
            rwa [hentries]
      | some pattern =>
          simp only [hpattern] at howned hfetch
          obtain ⟨hanswer, hentries⟩ := hfetch
          refine ⟨by rw [hanswer, howned], hcache.append_single howned hentries, ?_, ?_⟩
          · intro key hkey
            rw [hentries, Table.get?_append_single]
            simp [hkey]
          · intro _ _
            rw [hentries, Table.get?_append_single]
            simp

/-- A lookup that does not share its key with a lookup listed before it settles on the
pattern of the owner of its key. -/
theorem settles_fetch {before after : List Lookup} {lookup : Lookup}
    (hfirst : ∀ earlier ∈ before, earlier.key ≠ lookup.key) :
    Settles (Faithful (before ++ lookup :: after)) lookup.fetch
      (owned (before ++ lookup :: after) lookup.key) := by
  intro cache hcache
  have hseen : ∀ earlier ∈ before, earlier.key = lookup.key →
      (cache.entries.get? lookup.key).isSome :=
    fun earlier hearlier hkey => absurd hkey (hfirst earlier hearlier)
  obtain ⟨hanswer, hkept, _⟩ := fetch_owned hcache hseen
  exact ⟨hanswer, hkept⟩

theorem settles_fetch_pattern {before after : List Lookup} {lookup : Lookup} {pattern : Pattern}
    (hfirst : ∀ earlier ∈ before, earlier.key ≠ lookup.key)
    (hpattern : lookup.pattern? = some pattern) :
    Settles (Faithful (before ++ lookup :: after)) lookup.fetch (.ok pattern) := by
  have hsettles := @settles_fetch before after lookup hfirst
  rwa [owned_of_first after hfirst, hpattern] at hsettles

end PatternCache

section Sweep

variable {ι α : Type}

/-- Try items in order. Each looks its pattern up and then decides with it: it fails, it
gives an answer, or it hands on to the next one. -/
def sweep (toLookup : ι → Lookup) (verdict : ι → Pattern → Except Error (Option α)) :
    List ι → Cached (Option α)
  | [] => return none
  | item :: rest => do
      let pattern ← (toLookup item).fetch
      match ← verdict item pattern with
      | some answer => return some answer
      | none => sweep toLookup verdict rest

/-- What a sweep finds if every lookup gives the pattern that its key belongs to. -/
def sweepOwned (lookups : List Lookup) (toLookup : ι → Lookup)
    (verdict : ι → Pattern → Except Error (Option α)) : List ι → Except Error (Option α)
  | [] => .ok none
  | item :: rest => do
      let pattern ← owned lookups (toLookup item).key
      match ← verdict item pattern with
      | some answer => .ok (some answer)
      | none => sweepOwned lookups toLookup verdict rest

/-- The rest of a sweep, from a cache that has the keys of the items passed. -/
theorem sweep_from {toLookup : ι → Lookup} {verdict : ι → Pattern → Except Error (Option α)}
    {lookups before after : List Lookup} (passed : List ι) {rest : List ι}
    (hlookups : lookups = before ++ (passed ++ rest).map toLookup ++ after)
    (hapart : ∀ lookup ∈ before, ∀ item ∈ rest, lookup.key ≠ (toLookup item).key)
    {cache : PatternCache} (hcache : cache.Faithful lookups)
    (hpassed : ∀ item ∈ passed, (cache.entries.get? (toLookup item).key).isSome) :
    (sweep toLookup verdict rest cache).1 = sweepOwned lookups toLookup verdict rest ∧
      (sweep toLookup verdict rest cache).2.Faithful lookups := by
  induction rest generalizing passed cache with
  | nil => exact ⟨rfl, hcache⟩
  | cons item rest ih =>
      have hsplit : lookups = (before ++ passed.map toLookup) ++
          toLookup item :: (rest.map toLookup ++ after) := by
        simp [hlookups]
      have hseen : ∀ earlier ∈ before ++ passed.map toLookup,
          earlier.key = (toLookup item).key →
            (cache.entries.get? (toLookup item).key).isSome := by
        intro earlier hearlier hkey
        rcases List.mem_append.mp hearlier with hbefore | hmapped
        · exact absurd hkey (hapart earlier hbefore item List.mem_cons_self)
        · obtain ⟨other, hother, rfl⟩ := List.mem_map.mp hmapped
          rw [← hkey]
          exact hpassed other hother
      obtain ⟨hanswer, hkept, hkeys, hpresent⟩ :=
        PatternCache.fetch_owned (hsplit ▸ hcache) hseen
      rw [← hsplit] at hanswer hkept
      simp only [sweep, sweepOwned]
      rw [run_bind, ← hanswer]
      rcases hfetch : (toLookup item).fetch cache with ⟨error | pattern, next⟩
      · rw [hfetch] at hkept
        exact ⟨rfl, hkept⟩
      · rw [hfetch] at hkept hkeys hpresent
        dsimp only at hkept hkeys hpresent ⊢
        rw [run_bind, run_lift, ok_bind]
        cases hverdict : verdict item pattern with
        | error error => exact ⟨rfl, hkept⟩
        | ok found =>
            cases found with
            | some answer => exact ⟨rfl, hkept⟩
            | none =>
                refine ih (passed ++ [item]) (by simpa using hlookups) ?_ hkept ?_
                · intro lookup hlookup other hother
                  exact hapart lookup hlookup other (List.mem_cons_of_mem item hother)
                · intro other hother
                  rcases List.mem_append.mp hother with hold | hnew
                  · exact hkeys _ (hpassed other hold)
                  · rw [List.mem_singleton.mp hnew]
                    exact hpresent pattern rfl

/-- A sweep over lookups that do not share a key with lookups listed before them settles on
what the owners of their keys give. -/
theorem settles_sweep {toLookup : ι → Lookup}
    (verdict : ι → Pattern → Except Error (Option α)) {lookups before after : List Lookup}
    {items : List ι} (hlookups : lookups = before ++ items.map toLookup ++ after)
    (hapart : ∀ lookup ∈ before, ∀ item ∈ items, lookup.key ≠ (toLookup item).key) :
    Settles (PatternCache.Faithful lookups) (sweep toLookup verdict items)
      (sweepOwned lookups toLookup verdict items) := by
  intro cache hcache
  exact sweep_from [] hlookups hapart hcache (by simp)

end Sweep

end UtilityCss
