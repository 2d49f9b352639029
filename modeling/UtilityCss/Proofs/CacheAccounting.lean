import UtilityCss.Proofs.FirstAnswers
import UtilityCss.Proofs.OrderedTables

/-!
# What a cache counts and keeps

A lookup is counted before its pattern is read, so one that fails counts as a miss, too. The
cache has an entry for every key under which a lookup has succeeded since the last clearing,
and the entry is the pattern that the first of these lookups brought. The invariant ties the
cache to the lookups since then and to what came of them.
-/

namespace UtilityCss

namespace PatternCache

/-- What is asked of the pattern that a lookup finds. -/
inductive Query where
  /-- The pattern itself. -/
  | whole
  /-- Whether it occurs in a text. -/
  | occurs (t : Text)
  /-- What its first group reads in a text. -/
  | group (t : Text)

/-- What a call returns. -/
inductive Reply where
  | pattern (pattern : Pattern)
  | occurs (found : Bool)
  | group (reading : Option Text)
  | cleared

/-- What a pattern replies. -/
def Query.reply (query : Query) (pattern : Pattern) : Reply :=
  match query with
  | .whole => .pattern pattern
  | .occurs t => .occurs (pattern.search t).isSome
  | .group t => .group ((pattern.search t).bind (·.captures.lookup 1))

/-- A call to a cache. -/
inductive Call where
  | lookup (lookup : Lookup) (query : Query)
  | clear

/-- Make a call. -/
def Call.run : Call → Cached Reply
  | .lookup ⟨name, source, flags⟩ .whole => return .pattern (← fetch name source flags)
  | .lookup ⟨name, source, flags⟩ (.occurs t) => return .occurs (← test name source t flags)
  | .lookup ⟨name, source, flags⟩ (.group t) => return .group (← extract name source t flags)
  | .clear => fun _ => (.ok .cleared, {})

/-! ## Histories -/

/-- A lookup that was made, and what came of it. -/
structure Event where
  lookup : Lookup
  answer : Except Error Reply

def Event.succeeded (event : Event) : Bool := event.answer.isOk

@[simp] theorem Event.succeeded_ok (lookup : Lookup) (reply : Reply) :
    (Event.mk lookup (.ok reply)).succeeded = true := rfl

/-- A cache in use, with the lookups since the last clearing. -/
structure History where
  recent : List Event := []
  cache : PatternCache := {}

namespace History

/-- Make a call and take it down. -/
def make (history : History) (call : Call) : History :=
  let (answer, cache) := call.run history.cache
  match call with
  | .lookup lookup _ => ⟨history.recent ++ [⟨lookup, answer⟩], cache⟩
  | .clear => ⟨[], cache⟩

/-- The history of calls to a new cache. -/
def ofCalls (calls : List Call) : History := calls.foldl make {}

end History

/-- The first lookup with a key that has succeeded. -/
def firstSuccess (recent : List Event) (key : Text × Nat) : Option Lookup :=
  (recent.find? fun event => event.succeeded && event.lookup.key = key).map (·.lookup)

theorem firstSuccess_concat (recent : List Event) (event : Event) (key : Text × Nat) :
    firstSuccess (recent ++ [event]) key =
      (firstSuccess recent key).or
        (if event.succeeded && event.lookup.key = key then some event.lookup else none) := by
  rw [firstSuccess, firstSuccess, List.find?_append, Option.map_or, List.find?_singleton]
  split <;> rfl

/-! ## One lookup -/

/-- What a lookup can do: find a pattern, store its own, or fail. -/
inductive Outcome (lookup : Lookup) (cache : PatternCache) :
    Except Error Pattern × PatternCache → Prop
  | hit {pattern : Pattern} (found : cache.entries.get? lookup.key = some pattern) :
      Outcome lookup cache (.ok pattern, { cache with hits := cache.hits + 1 })
  | stored {pattern : Pattern} (new : cache.entries.get? lookup.key = none)
      (read : lookup.pattern? = some pattern) :
      Outcome lookup cache (.ok pattern, { cache with
        misses := cache.misses + 1
        entries := cache.entries ++ [(lookup.key, pattern)] })
  | failed (new : cache.entries.get? lookup.key = none) (unread : lookup.pattern? = none) :
      Outcome lookup cache (.error .invalidPattern, { cache with misses := cache.misses + 1 })

theorem outcome_fetch (lookup : Lookup) (cache : PatternCache) :
    Outcome lookup cache (lookup.fetch cache) := by
  change Outcome lookup cache (cache.lookup lookup.name lookup.source lookup.flags)
  unfold PatternCache.lookup
  split
  next pattern hfound => exact .hit hfound
  next hnew =>
    dsimp only
    split
    next pattern hread => exact .stored hnew hread
    next hunread => exact .failed hnew hunread

theorem Call.run_lookup (lookup : Lookup) (query : Query) (cache : PatternCache) :
    (Call.lookup lookup query).run cache =
      ((lookup.fetch cache).1.map query.reply, (lookup.fetch cache).2) := by
  have hfetch : PatternCache.fetch lookup.name lookup.source lookup.flags = lookup.fetch := rfl
  cases query with
  | whole =>
      rw [Call.run, run_bind, hfetch]
      rcases lookup.fetch cache with ⟨_ | _, _⟩ <;> rfl
  | occurs t =>
      rw [Call.run, test, hfetch, run_bind, run_bind]
      rcases lookup.fetch cache with ⟨_ | _, _⟩ <;> rfl
  | group t =>
      rw [Call.run, extract, hfetch, run_bind, run_bind]
      rcases lookup.fetch cache with ⟨_ | _, _⟩ <;> rfl

/-! ## All calls -/

/-- The cache is accounted for by the lookups since the last clearing. -/
structure Accounts (recent : List Event) (cache : PatternCache) : Prop where
  lookups : cache.hits + cache.misses = recent.length
  misses : cache.misses = cache.size + recent.countP (!·.succeeded)
  /-- A lookup that succeeds first can be read. -/
  readable : ∀ {key first}, firstSuccess recent key = some first → first.pattern?.isSome
  entries : ∀ key, cache.entries.get? key = (firstSuccess recent key).bind Lookup.pattern?

namespace Accounts

variable {recent : List Event} {cache : PatternCache}

theorem new : Accounts [] {} where
  lookups := rfl
  misses := rfl
  readable := by rintro key first ⟨⟩
  entries := fun _ => rfl

/-- A key without an entry has had no success. -/
theorem firstSuccess_eq_none (haccounts : Accounts recent cache) {key : Text × Nat}
    (hnew : cache.entries.get? key = none) : firstSuccess recent key = none := by
  rw [Option.eq_none_iff_forall_ne_some]
  intro first hfirst
  have hread := haccounts.readable hfirst
  rw [haccounts.entries, hfirst, Option.bind_some] at hnew
  rw [hnew] at hread
  cases hread

/-- A lookup that stores nothing is only counted. -/
theorem of_kept (haccounts : Accounts recent cache) {event : Event} {next : PatternCache}
    (hlookups : next.hits + next.misses = cache.hits + cache.misses + 1)
    (hmisses : next.misses = cache.misses + if event.succeeded then 0 else 1)
    (hentries : next.entries = cache.entries)
    (hfirst : ∀ key, firstSuccess (recent ++ [event]) key = firstSuccess recent key) :
    Accounts (recent ++ [event]) next where
  lookups := by rw [hlookups, haccounts.lookups, List.length_append, List.length_singleton]
  misses := by
    rw [hmisses, haccounts.misses, size, size, hentries, List.countP_append, List.countP_singleton]
    cases event.succeeded <;> rfl
  readable := by
    intro key first hsuccess
    rw [hfirst] at hsuccess
    exact haccounts.readable hsuccess
  entries := by
    intro key
    rw [hentries, hfirst, haccounts.entries]

/-- A key has its pattern already, and the first success stays the first. -/
theorem make_hit (haccounts : Accounts recent cache) {lookup : Lookup} {pattern : Pattern}
    (hfound : cache.entries.get? lookup.key = some pattern) (reply : Reply) :
    Accounts (recent ++ [⟨lookup, .ok reply⟩]) { cache with hits := cache.hits + 1 } := by
  refine haccounts.of_kept (Nat.succ_add _ _) rfl rfl ?_
  intro key
  rw [firstSuccess_concat]
  cases hfirst : firstSuccess recent key with
  | some first => rfl
  | none =>
      rw [Option.none_or, if_neg]
      rw [Bool.and_eq_true, decide_eq_true_eq]
      rintro ⟨-, rfl⟩
      rw [haccounts.entries, hfirst] at hfound
      cases hfound

/-- A new key has its first success, and one more entry. -/
theorem make_stored (haccounts : Accounts recent cache) {lookup : Lookup} {pattern : Pattern}
    (hnew : cache.entries.get? lookup.key = none) (hread : lookup.pattern? = some pattern)
    (reply : Reply) :
    Accounts (recent ++ [⟨lookup, .ok reply⟩]) { cache with
      misses := cache.misses + 1, entries := cache.entries ++ [(lookup.key, pattern)] } where
  lookups := by
    rw [List.length_append, List.length_singleton, ← haccounts.lookups]
    exact (Nat.add_assoc _ _ _).symm
  misses := by
    rw [haccounts.misses, size, size, List.length_append, List.countP_append]
    exact Nat.add_right_comm _ _ _
  readable := by
    intro key first hsuccess
    rw [firstSuccess_concat, Option.or_eq_some_iff] at hsuccess
    rcases hsuccess with hsuccess | ⟨-, hsuccess⟩
    · exact haccounts.readable hsuccess
    · split at hsuccess
      · obtain rfl := Option.some.inj hsuccess
        exact Option.isSome_of_eq_some hread
      · cases hsuccess
  entries := by
    intro key
    rw [Table.get?_append_single, haccounts.entries, firstSuccess_concat]
    by_cases hkey : lookup.key = key
    · rw [← hkey, haccounts.firstSuccess_eq_none hnew, if_pos rfl, if_pos (by simp)]
      exact hread.symm
    · rw [if_neg (Ne.symm hkey), if_neg (by simp [hkey]), Option.or_none, Option.or_none]

/-- A failure is a miss, and no success of any key. -/
theorem make_failed (haccounts : Accounts recent cache) (lookup : Lookup) (error : Error) :
    Accounts (recent ++ [⟨lookup, .error error⟩]) { cache with misses := cache.misses + 1 } := by
  refine haccounts.of_kept rfl rfl rfl ?_
  intro key
  rw [firstSuccess_concat]
  exact Option.or_none

/-- A lookup and what came of it are added to the account. -/
theorem make_lookup (haccounts : Accounts recent cache) (lookup : Lookup) (query : Query) :
    Accounts (recent ++ [⟨lookup, ((Call.lookup lookup query).run cache).1⟩])
      ((Call.lookup lookup query).run cache).2 := by
  rw [Call.run_lookup]
  have houtcome := outcome_fetch lookup cache
  generalize lookup.fetch cache = result at houtcome
  cases houtcome with
  | hit hfound => exact haccounts.make_hit hfound _
  | stored hnew hread => exact haccounts.make_stored hnew hread _
  | failed => exact haccounts.make_failed lookup _

/-- What a lookup answers is settled by the account. -/
theorem answer_eq (haccounts : Accounts recent cache) (lookup : Lookup) (query : Query) :
    ((Call.lookup lookup query).run cache).1 =
      ((firstSuccess recent lookup.key).getD lookup).own.map query.reply := by
  rw [Call.run_lookup]
  have houtcome := outcome_fetch lookup cache
  generalize lookup.fetch cache = result at houtcome
  cases houtcome with
  | hit hfound =>
      rw [haccounts.entries] at hfound
      obtain ⟨first, hfirst, hread⟩ := Option.bind_eq_some_iff.mp hfound
      rw [hfirst, Option.getD_some, Lookup.own, hread]
  | stored hnew hread =>
      rw [haccounts.firstSuccess_eq_none hnew, Option.getD_none, Lookup.own, hread]
  | failed hnew hunread =>
      rw [haccounts.firstSuccess_eq_none hnew, Option.getD_none, Lookup.own, hunread]

/-- Only a success occupies a key. -/
theorem hasEntry_eq (haccounts : Accounts recent cache) (name : Text) (flags : Nat) :
    cache.hasEntry name flags = (firstSuccess recent (name, flags)).isSome := by
  rw [hasEntry, Table.hasKey_eq, haccounts.entries]
  cases hfirst : firstSuccess recent (name, flags) with
  | none => rfl
  | some first => exact haccounts.readable hfirst

end Accounts

namespace History

theorem accounts (calls : List Call) :
    Accounts (ofCalls calls).recent (ofCalls calls).cache := by
  suffices hfrom : ∀ history : History, Accounts history.recent history.cache →
      Accounts (calls.foldl make history).recent (calls.foldl make history).cache from
    hfrom {} Accounts.new
  induction calls with
  | nil => exact fun _ haccounts => haccounts
  | cons call rest ih =>
      intro history haccounts
      apply ih
      cases call with
      | lookup lookup query => exact haccounts.make_lookup lookup query
      | clear => exact Accounts.new

/-- After any calls, a lookup answers with the pattern of the first lookup of its key that has
succeeded since the last clearing, or with its own if none has. Every lookup since then counts
as a hit or as a miss, and the misses are the entries and the failures. A key is occupied exactly
if a lookup of it has succeeded. -/
theorem lookups_accounted (calls : List Call) :
    let history := ofCalls calls
    (∀ lookup query, ((Call.lookup lookup query).run history.cache).1 =
      ((firstSuccess history.recent lookup.key).getD lookup).own.map query.reply) ∧
    history.cache.hits + history.cache.misses = history.recent.length ∧
    history.cache.misses = history.cache.size + history.recent.countP (!·.succeeded) ∧
    ∀ name flags, history.cache.hasEntry name flags =
      (firstSuccess history.recent (name, flags)).isSome := by
  have haccounts := accounts calls
  exact ⟨haccounts.answer_eq, haccounts.lookups, haccounts.misses, haccounts.hasEntry_eq⟩

-- A failure leaves its key free, and the first pattern under the key stays.
example :
    let fetch source := Call.lookup ⟨"key", .text source, 0⟩ .whole
    let cache := (ofCalls [fetch "(", fetch "a", .clear, fetch "(", fetch "b", fetch "c"]).cache
    (cache.hits, cache.misses, cache.size) = (1, 2, 1) ∧
      (cache.entries.get? ("key", 0)).map (·.source) = some "b".toList := by
  decide

end History

end PatternCache

end UtilityCss
