import UtilityCss.Proofs.BlockOrder
import UtilityCss.Proofs.JoinedTexts

/-!
# Repeated results

A list echoes another if it says parts of it twice in a row. What a stylesheet takes from a
list of results is told by first and last places alone: a place, a property or a class name
comes in where it is first supplied, and a property has the value that is supplied last. An
echo changes neither, and sorting turns a list that is repeated as a whole into one that
repeats each group of equals.
-/

namespace UtilityCss

/-- The second list is the first one with parts of it said twice in a row. -/
inductive Echoes {α : Type} : List α → List α → Prop where
  | same (items : List α) : Echoes items items
  | twice (items : List α) : Echoes items (items ++ items)
  | append {first second firstEcho secondEcho : List α} (hfirst : Echoes first firstEcho)
      (hsecond : Echoes second secondEcho) : Echoes (first ++ second) (firstEcho ++ secondEcho)

namespace Echoes

variable {α β : Type}

/-- What is done to the parts of a list on their own keeps echoes. -/
theorem image {f : List α → List β} (hf : ∀ a b, f (a ++ b) = f a ++ f b) {items echo : List α}
    (hecho : Echoes items echo) : Echoes (f items) (f echo) := by
  induction hecho with
  | same items => exact .same _
  | twice items =>
      rw [hf]
      exact .twice _
  | append _ _ hfirst hsecond =>
      rw [hf, hf]
      exact hfirst.append hsecond

theorem map (f : α → β) {items echo : List α} (hecho : Echoes items echo) :
    Echoes (items.map f) (echo.map f) :=
  hecho.image fun _ _ => List.map_append

theorem filter (p : α → Bool) {items echo : List α} (hecho : Echoes items echo) :
    Echoes (items.filter p) (echo.filter p) :=
  hecho.image fun _ _ => List.filter_append _ _

theorem flatMap (f : α → List β) {items echo : List α} (hecho : Echoes items echo) :
    Echoes (items.flatMap f) (echo.flatMap f) :=
  hecho.image fun _ _ => List.flatMap_append

theorem mem_iff {items echo : List α} (hecho : Echoes items echo) {item : α} :
    item ∈ echo ↔ item ∈ items := by
  induction hecho with
  | same items => rfl
  | twice items => rw [List.mem_append, or_self]
  | append _ _ hfirst hsecond => rw [List.mem_append, List.mem_append, hfirst, hsecond]

theorem eq_nil_iff {items echo : List α} (hecho : Echoes items echo) : echo = [] ↔ items = [] := by
  simp only [List.eq_nil_iff_forall_not_mem, hecho.mem_iff]

/-- An echo has the same items in the order of their first places. -/
theorem eraseDups_eq [BEq α] [LawfulBEq α] {items echo : List α} (hecho : Echoes items echo) :
    echo.eraseDups = items.eraseDups := by
  -- The second part is looked at without the items of the first.
  suffices hkept : ∀ p : α → Bool, (echo.filter p).eraseDups = (items.filter p).eraseDups by
    simpa using hkept fun _ => true
  induction hecho with
  | same items => exact fun _ => rfl
  | twice items =>
      intro p
      have hnone : (items.filter p).removeAll (items.filter p) = [] := by
        rw [List.removeAll, List.filter_eq_nil_iff]
        simp
      rw [List.filter_append, List.eraseDups_append, hnone, List.eraseDups_nil, List.append_nil]
  | @append first second firstEcho secondEcho hfirst _ ihFirst ihSecond =>
      intro p
      rw [List.filter_append, List.filter_append, List.eraseDups_append, List.eraseDups_append,
        ihFirst]
      congr 1
      have hmembers (item : α) :
          (firstEcho.filter p).elem item = (first.filter p).elem item := by
        rw [Bool.eq_iff_iff, List.elem_iff, List.elem_iff, (hfirst.filter p).mem_iff]
      simp only [List.removeAll, List.filter_filter, hmembers]
      exact ihSecond _

/-- An echo finds the same value in the last place of a key. -/
theorem get?_reverse [DecidableEq α] {entries echo : List (α × β)} (hecho : Echoes entries echo)
    (key : α) : Table.get? echo.reverse key = Table.get? entries.reverse key := by
  have happend (first second : List (α × β)) : Table.get? (first ++ second).reverse key =
      (Table.get? second.reverse key).or (Table.get? first.reverse key) := by
    rw [Table.get?, List.reverse_append, List.lookup_append]
    rfl
  induction hecho with
  | same entries => rfl
  | twice entries => rw [happend, Option.or_self]
  | append _ _ hfirst hsecond => rw [happend, happend, hfirst, hsecond]

theorem ofEntries_eq [DecidableEq α] {entries echo : List (α × β)} (hecho : Echoes entries echo) :
    Table.ofEntries echo = Table.ofEntries entries := by
  apply Table.ext_of_nodup
  · rw [Table.keys_ofEntries]
    exact nodup_eraseDups _
  · rw [Table.keys_ofEntries, Table.keys_ofEntries]
    exact (hecho.map Prod.fst).eraseDups_eq
  · intro key
    rw [Table.get?_ofEntries, Table.get?_ofEntries, hecho.get?_reverse]

end Echoes

/-! ## Sorting -/

section Sorting

variable {α κ : Type} [LinearOrder κ] {key : α → κ}

/-- In a list with rising keys, the items of the least key stand in front. -/
theorem eq_append_of_rising {items : List α} (hrising : items.Pairwise fun a b => key a ≤ key b)
    {k : κ} (hleast : ∀ a ∈ items, k ≤ key a) :
    items = items.filter (key · = k) ++ items.filter (key · ≠ k) := by
  induction items with
  | nil => rfl
  | cons item rest ih =>
      obtain ⟨hitem, hrest⟩ := List.pairwise_cons.mp hrising
      by_cases hkey : key item = k
      · have hsplit := ih hrest fun a ha => hleast a (List.mem_cons_of_mem item ha)
        rw [List.filter_cons_of_pos (by simpa using hkey),
          List.filter_cons_of_neg (by simpa using hkey), List.cons_append, ← hsplit]
      · have hlater : ∀ a ∈ item :: rest, key a ≠ k := by
          intro a ha
          rcases List.mem_cons.mp ha with rfl | ha
          · exact hkey
          · have hless : k < key item :=
              lt_of_le_of_ne (hleast item List.mem_cons_self) (Ne.symm hkey)
            exact (hless.trans_le (hitem a ha)).ne'
        rw [List.filter_eq_nil_iff.mpr (by simpa using hlater),
          List.filter_eq_self.mpr (by simpa using hlater), List.nil_append]

/-- Sorted lists are echoes if they are group by group. -/
theorem echoes_of_rising {items echo : List α}
    (hitems : items.Pairwise fun a b => key a ≤ key b)
    (hecho : echo.Pairwise fun a b => key a ≤ key b)
    (hgroups : ∀ k, Echoes (items.filter (key · = k)) (echo.filter (key · = k))) :
    Echoes items echo := by
  have hmem {a : α} : a ∈ echo ↔ a ∈ items := by
    have hgroup : a ∈ echo.filter (key · = key a) ↔ a ∈ items.filter (key · = key a) :=
      (hgroups (key a)).mem_iff
    simpa using hgroup
  induction hsize : items.length using Nat.strong_induction_on generalizing items echo with
  | _ size ih =>
      cases items with
      | nil =>
          obtain rfl : echo = [] := List.eq_nil_iff_forall_not_mem.mpr fun a ha => by
            simpa using hmem.mp ha
          exact .same []
      | cons first rest =>
          have hleast : ∀ a ∈ first :: rest, key first ≤ key a := by
            intro a ha
            rcases List.mem_cons.mp ha with rfl | ha
            · exact le_rfl
            · exact (List.pairwise_cons.mp hitems).1 a ha
          rw [eq_append_of_rising hitems hleast,
            eq_append_of_rising hecho fun a ha => hleast a (hmem.mp ha)]
          refine (hgroups (key first)).append ?_
          apply ih _ _ (hitems.filter _) (hecho.filter _) _ _ rfl
          · rw [← hsize]
            apply Nat.lt_succ_of_le
            rw [List.filter_cons_of_neg (by simp)]
            exact List.length_filter_le _ _
          · intro k
            rw [List.filter_comm, List.filter_comm (p := (key · = k))]
            exact (hgroups k).filter _
          · intro a
            rw [List.mem_filter, List.mem_filter, hmem]

end Sorting

namespace Stylesheet

/-! ## Stylesheets -/

/-- The blocks in terms of what is supplied: a place, a property and a class name stand where
they are first supplied. -/
theorem merge_eq (supplies : List Supply) :
    merge supplies = (supplies.map Supply.key).eraseDups.map fun key =>
      { atRules := key.1, selector := key.2
        declarations := Table.ofEntries (suppliedTo key supplies)
        sources := ((supplies.filter (·.key = key)).map Supply.raw).eraseDups } := by
  rw [← keys_merge, List.map_map]
  refine ((List.map_congr_left ?_).trans (List.map_id _)).symm
  intro block hblock
  rw [Function.comp_apply, ← declarations_merge hblock, ← sources_merge hblock]
  rfl

theorem merge_of_echoes {supplies echo : List Supply} (hecho : Echoes supplies echo) :
    merge echo = merge supplies := by
  rw [merge_eq, merge_eq, (hecho.map Supply.key).eraseDups_eq]
  apply List.map_congr_left
  intro key _
  have hplace := hecho.filter (·.key = key)
  rw [suppliedTo, suppliedTo, (hplace.flatMap (·.declarations)).ofEntries_eq,
    (hplace.map Supply.raw).eraseDups_eq]

/-- Sorted or not, the results of a layer are echoed. -/
theorem echoes_inLayer (options : Options) {results echo : List Styled}
    (hecho : Echoes results echo) (layer : Layer) :
    Echoes (inLayer options results layer) (inLayer options echo layer) := by
  have hgiven := hecho.filter fun styled => !styled.isEmpty && styled.layer == layer
  have hresults := ordered_inLayer options results layer
  have hechoed := ordered_inLayer options echo layer
  unfold Ordered at hresults hechoed
  cases hsort : options.sortByProperty with
  | false =>
      simp only [hsort, Bool.false_eq_true, if_false] at hresults hechoed
      rw [hresults, hechoed]
      exact hgiven
  | true =>
      simp only [hsort, if_true] at hresults hechoed
      apply echoes_of_rising hresults.rising hechoed.rising
      intro k
      rw [hresults.stable, hechoed.stable]
      exact hgiven.filter _

theorem build_of_echoes (options : Options) {results echo : List Styled}
    (hecho : Echoes results echo) : build options echo = build options results := by
  apply List.flatMap_congr
  intro layer _
  have hlayer := echoes_inLayer options hecho layer
  have hforest : layerForest options echo layer = layerForest options results layer := by
    rw [layerForest, layerForest, merge_of_echoes (hlayer.flatMap supplies)]
  simp only [layerSection, hforest, ne_eq, hlayer.eq_nil_iff]

end Stylesheet

namespace Engine

variable (engine : Engine)

theorem styleAll_append (first second : List Text) :
    engine.styleAll (first ++ second) = (do
      return (← engine.styleAll first) ++ (← engine.styleAll second)) := by
  induction first with
  | nil => simp [styleAll]
  | cons t first ih =>
      simp only [List.cons_append, styleAll, ih, bind_assoc, pure_bind, List.append_assoc]

theorem textStylings_append (first second : List Text) :
    engine.textStylings (first ++ second) = (do
      return (← engine.textStylings first) ++ (← engine.textStylings second)) := by
  rw [textStylings, styleAll_append]
  exact (engine.steady_styleAll first).answer_append (engine.steady_styleAll second)
    engine.faithful_new

end Engine

/-- Results that are given twice come to the same stylesheet. So do class texts on an engine,
whatever calls were made before; if they fail, they fail in the same way. -/
theorem generate_twice :
    (∀ (options : Stylesheet.Options) (results : List Styled),
      Stylesheet.generate options (results ++ results) = Stylesheet.generate options results) ∧
    (∀ (engine : Engine) (options : Stylesheet.Options) (texts : List Text)
      (first second : List Call),
      (engine.compile (texts ++ texts) options (engine.after first)).1 =
        (engine.compile texts options (engine.after second)).1) := by
  have hresults (options : Stylesheet.Options) (results : List Styled) :
      Stylesheet.generate options (results ++ results) = Stylesheet.generate options results := by
    rw [Stylesheet.generate, Stylesheet.generate, Stylesheet.build_of_echoes _ (.twice results)]
  refine ⟨hresults, ?_⟩
  intro engine options texts first second
  rw [engine.compile_after, engine.compile_after, engine.textStylings_append]
  cases engine.textStylings texts with
  | error error => rfl
  | ok results => exact congrArg Except.ok (hresults options results)

end UtilityCss
