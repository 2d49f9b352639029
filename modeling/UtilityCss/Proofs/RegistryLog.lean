import Mathlib.Data.List.Perm.Subperm
import UtilityCss.Proofs.OrderedTables
import UtilityCss.Proofs.RuleNames

/-!
# The trace as a log

Every addition leaves its entry in the trace, and an addition that fails leaves none. After any
steps the trace therefore lists what is registered: the rules and the computed variants one by
one, the static variants with their replacements, and a plug-in for every one that is recorded.
A plug-in that was not installed in full has an entry as well, and so do the additions that it
made before its error.
-/

namespace UtilityCss

namespace Registry

/-- The plug-ins and names of the entries of a kind, in order. -/
def log (registry : Registry) (kind : TraceKind) : List (Text × Text) :=
  registry.trace.filterMap fun entry =>
    if entry.kind = kind then some (entry.plugin, entry.name) else none

/-! ## Single additions -/

namespace Change

variable {registry next : Registry}

theorem log_rule (hchange : Change registry next)
    (hrules : registry.log .rule = registry.rules.map fun entry => (entry.plugin, entry.name)) :
    next.log .rule = next.rules.map fun entry => (entry.plugin, entry.name) := by
  cases hchange <;> simpa [log, traced] using hrules

theorem log_computed (hchange : Change registry next)
    (hnames : (registry.log .computedVariant).map Prod.snd =
      registry.computedVariants.map (·.name)) :
    (next.log .computedVariant).map Prod.snd = next.computedVariants.map (·.name) := by
  cases hchange <;> simpa [log, traced] using hnames

/-- A computed variant is taken under a new name only. -/
theorem nodup_computed (hchange : Change registry next)
    (hnodup : (registry.computedVariants.map (·.name)).Nodup) :
    (next.computedVariants.map (·.name)).Nodup := by
  cases hchange with
  | @computed variant _ hnew =>
      change ((registry.computedVariants ++ [variant]).map (·.name)).Nodup
      rw [List.map_append, List.map_singleton, ← List.concat_eq_append]
      exact hnodup.concat hnew
  | rule | variant | theme | freeze => exact hnodup

/-- A static variant that is replaced keeps its place, and its entries but the first do not
count. -/
theorem log_variant (hchange : Change registry next)
    (hkeys : registry.variants.keys = ((registry.log .variant).map Prod.snd).eraseDups) :
    next.variants.keys = ((next.log .variant).map Prod.snd).eraseDups := by
  cases hchange with
  | variant _ variant =>
      have hlog : (Registry.log ({ registry with
          variants := registry.variants.put variant.name variant }.traced .variant
            variant.name) .variant).map Prod.snd =
          (registry.log .variant).map Prod.snd ++ [variant.name] := by
        simp [log, traced]
      rw [hlog, eraseDups_concat, ← hkeys]
      change (registry.variants.put variant.name variant).keys = _
      rw [Table.keys_put, hkeys]
      simp only [List.mem_eraseDups]
  | rule | computed | theme | freeze => simpa [log, traced] using hkeys

theorem log_plugin (hchange : Change registry next) : next.log .plugin = registry.log .plugin := by
  cases hchange <;> simp [log, traced]

theorem plugins_eq (hchange : Change registry next) : next.plugins = registry.plugins := by
  cases hchange <;> rfl

end Change

/-! ## Runs -/

/-- The trace lists what is registered, while the installation of some plug-ins is under way. -/
structure Logged (underWay : List (Text × Text)) (registry : Registry) : Prop where
  rules : registry.log .rule = registry.rules.map fun entry => (entry.plugin, entry.name)
  computed : (registry.log .computedVariant).map Prod.snd = registry.computedVariants.map (·.name)
  distinct : (registry.computedVariants.map (·.name)).Nodup
  variants : registry.variants.keys = ((registry.log .variant).map Prod.snd).eraseDups
  plugins : (underWay ++ registry.plugins).Subperm (registry.log .plugin)

namespace Logged

variable {underWay : List (Text × Text)} {registry next : Registry}

/-- An addition goes to the trace and to what is registered, or to neither. -/
theorem of_change (hlogged : registry.Logged underWay) (hchange : Change registry next) :
    next.Logged underWay where
  rules := hchange.log_rule hlogged.rules
  computed := hchange.log_computed hlogged.computed
  distinct := hchange.nodup_computed hlogged.distinct
  variants := hchange.log_variant hlogged.variants
  plugins := by
    rw [hchange.log_plugin, hchange.plugins_eq]
    exact hlogged.plugins

/-- An installation begins with its entry. -/
theorem starting (hlogged : registry.Logged underWay) (name version : Text) :
    (registry.starting name version).Logged ((name, version) :: underWay) where
  rules := by simpa [log, Registry.starting, traced] using hlogged.rules
  computed := by simpa [log, Registry.starting, traced] using hlogged.computed
  distinct := hlogged.distinct
  variants := by simpa [log, Registry.starting, traced] using hlogged.variants
  plugins := by
    have hlog : (registry.starting name version).log .plugin =
        registry.log .plugin ++ [(name, version)] := by
      simp [log, Registry.starting, traced]
    have hentry := (List.subperm_cons (name, version)).mpr hlogged.plugins
    rw [hlog]
    exact hentry.trans (List.perm_append_singleton _ _).symm.subperm

end Logged

/-- What is logged before a run is logged after it, whatever fails on the way. -/
theorem Runs.logged {registry next : Registry} (hruns : Runs registry next)
    {underWay : List (Text × Text)} (hlogged : registry.Logged underWay) :
    next.Logged underWay := by
  induction hruns generalizing underWay with
  | stay => exact hlogged
  | change hchange => exact hlogged.of_change hchange
  | andThen _ _ hfirst hsecond => exact hsecond (hfirst hlogged)
  | @install registry filled name version _ _ ih =>
      -- The entry that was set aside for the plug-in is now that of its record.
      have hfilled := ih (hlogged.starting name version)
      have hperm : (underWay ++ (filled.plugins ++ [(name, version)])).Perm
          ((name, version) :: underWay ++ filled.plugins) := by
        rw [← List.append_assoc]
        exact List.perm_append_singleton _ _
      exact ⟨hfilled.rules, hfilled.computed, hfilled.distinct, hfilled.variants,
        hperm.subperm.trans hfilled.plugins⟩
  | @abandon registry filled name version _ _ ih =>
      have hfilled := ih (hlogged.starting name version)
      exact ⟨hfilled.rules, hfilled.computed, hfilled.distinct, hfilled.variants,
        (List.sublist_cons_self _ _).subperm.trans hfilled.plugins⟩

/-- Additions are attributed after a run to the plug-in that they were attributed to before. -/
theorem Runs.currentPlugin_eq {registry next : Registry} (hruns : Runs registry next) :
    next.currentPlugin = registry.currentPlugin := by
  induction hruns with
  | stay => rfl
  | change hchange => cases hchange <;> rfl
  | andThen _ _ hfirst hsecond => exact hsecond.trans hfirst
  | install => rfl
  | abandon => rfl

/-- The index of a rule is its place. -/
theorem Additions.map_index {rules : List RegisteredRule} (hadditions : Additions [] rules) :
    rules.map (·.index) = List.range rules.length := by
  induction hadditions with
  | nothing => rfl
  | entry _ hentry ih =>
      rw [List.map_append, List.map_singleton, ih, hentry.index, List.length_append,
        List.length_singleton, List.range_succ]

/-- After any steps, whether they failed or not, the index of a rule is its place, and the trace
is a log of the registry. Its entries for rules are the plug-ins and names of the rules, in
order. Its entries for computed variants have the names of these, which are distinct. The
static variants stand in the order of the first entries of their names. Every plug-in that is
recorded has an entry of its own, and no plug-in is under way. -/
theorem trace_after (steps : List Step) :
    (after steps).rules.map (·.index) = List.range (after steps).rules.length ∧
    (after steps).log .rule = (after steps).rules.map (fun entry => (entry.plugin, entry.name)) ∧
    ((after steps).log .computedVariant).map Prod.snd =
      (after steps).computedVariants.map (·.name) ∧
    ((after steps).computedVariants.map (·.name)).Nodup ∧
    (after steps).variants.keys = (((after steps).log .variant).map Prod.snd).eraseDups ∧
    (after steps).plugins.Subperm ((after steps).log .plugin) ∧
    (after steps).currentPlugin = directPlugin := by
  have hnew : Logged [] {} := ⟨rfl, rfl, List.nodup_nil, rfl, List.nil_subperm⟩
  have hlogged := (runs_after steps).logged hnew
  exact ⟨(additions_after steps).map_index, hlogged.rules, hlogged.computed, hlogged.distinct,
    hlogged.variants, hlogged.plugins, (runs_after steps).currentPlugin_eq⟩

-- An installation that fails has its entry and keeps the rule and the plug-in added before.
example :
    let registry := after [.install { name := "outer", steps := [
      .install { name := "inner", steps := [] },
      .addRule (.proper { pattern := .literal "a", body := .fixed [] }),
      .addRule (.foreign "int")] }]
    (registry.log .plugin).map Prod.fst = [("outer" : Text), "inner"] ∧
      registry.plugins.map Prod.fst = [("inner" : Text)] ∧
      (registry.log .rule).map Prod.snd = [("outer:a" : Text)] ∧
      registry.currentPlugin = directPlugin := by
  decide

end Registry

end UtilityCss
