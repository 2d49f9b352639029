import UtilityCss.Proofs.OrderedTables
import UtilityCss.Theme.Value

/-!
# Merging a theme twice

Merging goes entry by entry, and an entry that is there already changes nothing. After a
theme is merged into another, every entry of it is there, so that merging it once more
gives the same theme, in the same order at every level. The themes merged need distinct
keys, in the tables within them too.
-/

namespace UtilityCss

namespace Table

variable {κ α : Type} [DecidableEq κ]

theorem put_of_get? {table : Table κ α} {key : κ} {value : α}
    (hvalue : table.get? key = some value) : table.put key value = table := by
  induction table with
  | nil => cases hvalue
  | cons entry rest ih =>
      rw [get?_cons] at hvalue
      rw [put]
      by_cases hkey : key = entry.1
      · rw [if_pos hkey] at hvalue
        rw [if_pos hkey.symm, ← Option.some.inj hvalue, hkey]
      · rw [if_neg hkey] at hvalue
        rw [if_neg (Ne.symm hkey), ih hvalue]

theorem put_of_not_mem {table : Table κ α} {key : κ} (hkey : key ∉ table.keys) (value : α) :
    table.put key value = table ++ [(key, value)] := by
  induction table with
  | nil => rfl
  | cons entry rest ih =>
      simp only [keys, List.map_cons, List.mem_cons, not_or] at hkey
      rw [put, if_neg (Ne.symm hkey.1), ih hkey.2]
      rfl

theorem get?_of_mem {table : Table κ α} (hkeys : table.keys.Nodup) {entry : κ × α}
    (hentry : entry ∈ table) : table.get? entry.1 = some entry.2 := by
  induction table with
  | nil => cases hentry
  | cons first rest ih =>
      simp only [keys, List.map_cons, List.nodup_cons] at hkeys
      rw [get?_cons]
      rcases List.mem_cons.mp hentry with rfl | hrest
      · rw [if_pos rfl]
      · have hne : entry.1 ≠ first.1 := by
          intro heq
          exact hkeys.1 (heq ▸ List.mem_map_of_mem hrest)
        rw [if_neg hne, ih hkeys.2 hrest]

end Table

namespace Value

/-- The tables within the value have each key once. -/
inductive Keyed : Value → Prop
  | leaf {value : Value} : value.table? = none → Keyed value
  | table {entries : Theme} : entries.keys.Nodup → (∀ entry ∈ entries, Keyed entry.2) →
      Keyed (.table entries)

/-- The value that an entry has after a merge, from the value it had before. -/
def mergedOver (current : Option Value) (value : Value) : Value :=
  match current with
  | some current => merge current value
  | none => value

theorem mergeEntries_cons (base : Theme) (entry : Text × Value) (rest : List (Text × Value)) :
    mergeEntries base (entry :: rest) =
      mergeEntries (base.put entry.1 (mergedOver (base.get? entry.1) entry.2)) rest := by
  rw [mergeEntries]
  rfl

theorem merge_null (value : Value) : merge .null value = value := by
  cases value <;> rfl

/-- What changes nothing when it is merged a second time changes nothing in itself. -/
theorem merge_self {value : Value}
    (hvalue : ∀ current, merge (merge current value) value = merge current value) :
    merge value value = value := by
  have hnull := hvalue .null
  rwa [merge_null] at hnull

/-- Keys keep their places, and new ones follow. -/
theorem keys_prefix_mergeEntries (base : Theme) (extra : List (Text × Value)) :
    base.keys <+: (mergeEntries base extra).keys := by
  induction extra generalizing base with
  | nil => exact List.prefix_rfl
  | cons entry rest ih =>
      rw [mergeEntries_cons]
      refine List.IsPrefix.trans ?_ (ih _)
      rw [Table.keys_put]
      split
      · exact List.prefix_rfl
      · exact List.prefix_append _ _

theorem nodup_keys_mergeEntries {base : Theme} (hbase : base.keys.Nodup)
    (extra : List (Text × Value)) : (mergeEntries base extra).keys.Nodup := by
  induction extra generalizing base with
  | nil => exact hbase
  | cons entry rest ih =>
      rw [mergeEntries_cons]
      apply ih
      rw [Table.keys_put]
      split
      · exact hbase
      next hnew => exact hbase.append (List.nodup_singleton _) (by simpa using hnew)

/-- Entries with new keys are added as they are. -/
theorem mergeEntries_eq_append {base : Theme} {extra : List (Text × Value)}
    (hkeys : (Table.keys (base ++ extra)).Nodup) : mergeEntries base extra = base ++ extra := by
  induction extra generalizing base with
  | nil => exact (List.append_nil base).symm
  | cons entry rest ih =>
      have hnew : entry.1 ∉ base.keys := by
        simp only [Table.keys, List.map_append, List.map_cons] at hkeys
        exact fun hmem => (List.nodup_append.mp hkeys).2.2 _ hmem _ List.mem_cons_self rfl
      rw [mergeEntries_cons, Table.get?_of_not_mem hnew, Table.put_of_not_mem hnew]
      rw [List.append_cons base entry rest] at hkeys ⊢
      exact ih hkeys

theorem get?_mergeEntries (base : Theme) {extra : Theme} (hkeys : extra.keys.Nodup) (key : Text) :
    (mergeEntries base extra).get? key = match extra.get? key with
      | some value => some (mergedOver (base.get? key) value)
      | none => base.get? key := by
  induction extra generalizing base with
  | nil => rfl
  | cons entry rest ih =>
      simp only [Table.keys, List.map_cons, List.nodup_cons] at hkeys
      rw [mergeEntries_cons, ih _ hkeys.2, Table.get?_cons, Table.get?_put]
      by_cases hkey : key = entry.1
      · rw [if_pos hkey, if_pos hkey, hkey, Table.get?_of_not_mem hkeys.1]
      · rw [if_neg hkey, if_neg hkey]

/-- Every entry is there already, with a value that it does not change. -/
def Absorbs (base extra : Theme) : Prop :=
  ∀ entry ∈ extra, ∃ current, base.get? entry.1 = some current ∧ merge current entry.2 = current

theorem mergeEntries_of_absorbs {base extra : Theme} (habsorbs : Absorbs base extra) :
    mergeEntries base extra = base := by
  induction extra with
  | nil => rfl
  | cons entry rest ih =>
      obtain ⟨current, hcurrent, hmerge⟩ := habsorbs entry List.mem_cons_self
      rw [mergeEntries_cons, hcurrent, mergedOver, hmerge, Table.put_of_get? hcurrent]
      exact ih fun other hother => habsorbs other (List.mem_cons_of_mem _ hother)

theorem absorbs_self {entries : Theme} (hkeys : entries.keys.Nodup)
    (hvalues : ∀ entry ∈ entries, merge entry.2 entry.2 = entry.2) : Absorbs entries entries :=
  fun entry hentry => ⟨entry.2, Table.get?_of_mem hkeys hentry, hvalues entry hentry⟩

/-- If no value changes when it is merged a second time, a merge leaves its entries there. -/
theorem absorbs_mergeEntries (base : Theme) {extra : Theme} (hkeys : extra.keys.Nodup)
    (hvalues : ∀ entry ∈ extra, ∀ current,
      merge (merge current entry.2) entry.2 = merge current entry.2) :
    Absorbs (mergeEntries base extra) extra := by
  intro entry hentry
  refine ⟨mergedOver (base.get? entry.1) entry.2, ?_, ?_⟩
  · rw [get?_mergeEntries base hkeys, Table.get?_of_mem hkeys hentry]
  · cases base.get? entry.1 with
    | some current => exact hvalues entry hentry current
    | none => exact merge_self (hvalues entry hentry)

/-- A value changes nothing when it is merged a second time. -/
theorem merge_merge {value : Value} (hvalue : value.Keyed) (current : Value) :
    merge (merge current value) value = merge current value := by
  induction hvalue generalizing current with
  | @leaf value hleaf =>
      cases value with
      | table entries => cases hleaf
      | _ => rfl
  | @table entries hkeys _ ih =>
      cases current with
      | table base =>
          simp only [merge]
          rw [mergeEntries_of_absorbs (absorbs_mergeEntries base hkeys ih)]
      | _ =>
          -- The table replaces what is no table, and then meets itself.
          have hself : Absorbs entries entries :=
            absorbs_self hkeys fun entry hentry => merge_self (ih entry hentry)
          simp only [merge]
          rw [mergeEntries_of_absorbs hself]

end Value

namespace Theme

/-- A theme with distinct keys, in the tables within it too. -/
def Keyed (theme : Theme) : Prop := Value.Keyed (.table theme)

theorem merge_merge (base : Theme) {extra : Theme} (hextra : extra.Keyed) :
    (base.merge extra).merge extra = base.merge extra := by
  have hvalues := Value.merge_merge hextra (.table base)
  simp only [Value.merge, Value.table.injEq] at hvalues
  exact hvalues

theorem nil_merge {theme : Theme} (hkeys : theme.keys.Nodup) : merge [] theme = theme :=
  Value.mergeEntries_eq_append hkeys

/-- A value of the merged theme replaces or extends one that was there before. -/
theorem exists_get?_merge {base : Theme} {key : Text} (hkey : key ∈ base.keys) (extra : Theme) :
    ∃ value, (base.merge extra).get? key = some value :=
  Table.exists_get?_of_mem ((Value.keys_prefix_mergeEntries base extra).subset hkey)

end Theme

end UtilityCss
