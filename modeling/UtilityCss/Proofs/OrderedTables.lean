import Mathlib.Data.List.Induction
import Mathlib.Data.List.Nodup
import UtilityCss.Table

/-!
# What ordered tables hold

The table of some entries has each key once, at the place of its first entry and with
the value of its last.
-/

namespace UtilityCss

theorem eraseDups_concat {α : Type} [BEq α] [LawfulBEq α] (items : List α) (item : α) :
    (items ++ [item]).eraseDups =
      if item ∈ items then items.eraseDups else items.eraseDups ++ [item] := by
  rw [List.eraseDups_append]
  by_cases hmem : item ∈ items
  · simp [List.removeAll, hmem]
  · simp [List.removeAll, hmem, List.eraseDups_cons]

theorem nodup_eraseDups {α : Type} [BEq α] [LawfulBEq α] (items : List α) :
    items.eraseDups.Nodup := by
  induction items using List.reverseRecOn with
  | nil => exact List.nodup_nil
  | append_singleton items item ih =>
    rw [eraseDups_concat]
    split
    · exact ih
    · rename_i hnew
      rw [← List.mem_eraseDups] at hnew
      exact ih.append (List.nodup_singleton item) (by simpa using hnew)

namespace Table

variable {κ α : Type} [DecidableEq κ]

theorem keys_put (key : κ) (value : α) (table : Table κ α) :
    (table.put key value).keys = if key ∈ table.keys then table.keys else table.keys ++ [key] := by
  induction table with
  | nil => rfl
  | cons entry rest ih =>
    simp only [keys, put, List.map_cons, List.mem_cons] at ih ⊢
    by_cases hkey : entry.1 = key
    · simp [hkey]
    · have hkey' : ¬ key = entry.1 := fun h => hkey h.symm
      rw [if_neg hkey, List.map_cons, ih]
      by_cases hmem : key ∈ rest.map (·.1) <;> simp [hmem, hkey']

theorem get?_cons (entry : κ × α) (rest : Table κ α) (key : κ) :
    get? (entry :: rest) key = if key = entry.1 then some entry.2 else rest.get? key := by
  by_cases hkey : key = entry.1
  · rw [if_pos hkey, get?, hkey, List.lookup_cons_self]
  · rw [if_neg hkey, get?, List.lookup_cons, beq_false_of_ne hkey]
    rfl

theorem get?_of_not_mem {table : Table κ α} {key : κ} (hkey : key ∉ table.keys) :
    table.get? key = none := by
  induction table with
  | nil => rfl
  | cons entry rest ih =>
    simp only [keys, List.map_cons, List.mem_cons, not_or] at hkey
    rw [get?_cons, if_neg hkey.1, ih hkey.2]

theorem mem_of_get? {table : Table κ α} {key : κ} {value : α}
    (hvalue : table.get? key = some value) : (key, value) ∈ table := by
  induction table with
  | nil => cases hvalue
  | cons entry rest ih =>
      rw [get?_cons] at hvalue
      split at hvalue
      · rename_i hkey
        rw [hkey, ← Option.some.inj hvalue]
        exact List.mem_cons_self
      · exact List.mem_cons_of_mem _ (ih hvalue)

theorem exists_get?_of_mem {table : Table κ α} {key : κ} (hkey : key ∈ table.keys) :
    ∃ value, table.get? key = some value := by
  induction table with
  | nil => cases hkey
  | cons entry rest ih =>
      rw [get?_cons]
      by_cases hentry : key = entry.1
      · exact ⟨entry.2, if_pos hentry⟩
      · rw [if_neg hentry]
        simp only [keys, List.map_cons, List.mem_cons] at hkey
        exact ih (hkey.resolve_left hentry)

theorem hasKey_eq (table : Table κ α) (key : κ) :
    table.hasKey key = (table.get? key).isSome := by
  induction table with
  | nil => rfl
  | cons entry rest ih =>
      rw [get?_cons, hasKey, List.any_cons]
      by_cases hentry : key = entry.1
      · simp [hentry]
      · rw [if_neg hentry, beq_false_of_ne (Ne.symm hentry)]
        exact ih

/-- A change of the values is a change of what is found. -/
theorem get?_map {β : Type} (f : α → β) (table : Table κ α) (key : κ) :
    get? (table.map fun entry => (entry.1, f entry.2)) key = (table.get? key).map f := by
  induction table with
  | nil => rfl
  | cons entry rest ih =>
      rw [List.map_cons, get?_cons, get?_cons, ih]
      split <;> rfl

theorem get?_put (key other : κ) (value : α) (table : Table κ α) :
    (table.put key value).get? other = if other = key then some value else table.get? other := by
  induction table with
  | nil => exact get?_cons (key, value) [] other
  | cons entry rest ih =>
    rw [put]
    split
    case isTrue hkey =>
      rw [get?_cons, get?_cons, hkey]
      split <;> rfl
    case isFalse hkey =>
      rw [get?_cons, get?_cons, ih]
      by_cases hother : other = entry.1
      · rw [if_pos hother, if_pos hother, if_neg (hother ▸ hkey)]
      · rw [if_neg hother, if_neg hother]

/-- Tables with the same distinct keys in the same order are told apart by their values. -/
theorem ext_of_nodup {table other : Table κ α}
    (hnodup : table.keys.Nodup) (hkeys : table.keys = other.keys)
    (hvalues : ∀ key, table.get? key = other.get? key) : table = other := by
  induction table generalizing other with
  | nil => exact (List.map_eq_nil_iff.mp hkeys.symm).symm
  | cons entry rest ih =>
      cases other with
      | nil => cases hkeys
      | cons first others =>
          simp only [keys, List.map_cons, List.nodup_cons] at hnodup
          have hkey : entry.1 = first.1 := (List.cons.inj hkeys).1
          have hrest : keys rest = keys others := (List.cons.inj hkeys).2
          have hvalue := hvalues entry.1
          rw [get?_cons, get?_cons, if_pos rfl, if_pos hkey] at hvalue
          rw [Prod.ext hkey (Option.some.inj hvalue), ih hnodup.2 hrest]
          intro key
          have hother := hvalues key
          rw [get?_cons, get?_cons, ← hkey] at hother
          by_cases hsame : key = entry.1
          · subst hsame
            have habsent : entry.1 ∉ Table.keys others := hrest ▸ hnodup.1
            rw [get?_of_not_mem hnodup.1, get?_of_not_mem habsent]
          · rwa [if_neg hsame, if_neg hsame] at hother

theorem putAll_append (table extra more : Table κ α) :
    table.putAll (extra ++ more) = (table.putAll extra).putAll more :=
  List.foldl_append

theorem ofEntries_concat (entries : List (κ × α)) (entry : κ × α) :
    ofEntries (entries ++ [entry]) = (ofEntries entries).put entry.1 entry.2 :=
  putAll_append [] entries [entry]

theorem keys_ofEntries [BEq κ] [LawfulBEq κ] (entries : List (κ × α)) :
    (ofEntries entries).keys = (entries.map Prod.fst).eraseDups := by
  induction entries using List.reverseRecOn with
  | nil => rfl
  | append_singleton entries entry ih =>
    rw [ofEntries_concat, keys_put, List.map_append, List.map_singleton, eraseDups_concat, ih]
    simp only [List.mem_eraseDups]

theorem get?_ofEntries (entries : List (κ × α)) (key : κ) :
    (ofEntries entries).get? key = Table.get? entries.reverse key := by
  induction entries using List.reverseRecOn with
  | nil => rfl
  | append_singleton entries entry ih =>
    rw [ofEntries_concat, get?_put, ih, List.reverse_append, List.reverse_singleton,
      List.singleton_append]
    exact (get?_cons entry entries.reverse key).symm

theorem ofEntries_ne_nil {entries : List (κ × α)} (hentries : entries ≠ []) :
    ofEntries entries ≠ [] := by
  intro hnil
  have hkeys := keys_ofEntries entries
  rw [hnil] at hkeys
  obtain ⟨entry, hentry⟩ := List.exists_mem_of_ne_nil entries hentries
  have hmem : entry.1 ∈ (entries.map Prod.fst).eraseDups := by
    rw [List.mem_eraseDups]
    exact List.mem_map_of_mem hentry
  rw [← hkeys] at hmem
  exact absurd hmem List.not_mem_nil

end Table

end UtilityCss
