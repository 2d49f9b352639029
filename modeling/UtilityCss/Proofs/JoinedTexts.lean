import UtilityCss.Engine.Config
import UtilityCss.Proofs.HistoryIndependence
import UtilityCss.Proofs.NumberFaults
import UtilityCss.Proofs.TextSplitting

/-!
# Class texts that are joined by blanks

A blank outside brackets is a boundary: what stands before it is split and expanded as if
nothing followed, and what stands behind it as if nothing came before. Texts that close their
brackets can therefore be joined by blanks into one text, and both ways lead to the same
stylesheet.

They may fail in different ways. One text is read as a whole before any of its names is styled,
while the texts of a list are read one by one, each after the names before it were styled. So
the one text fails with an error of reading, if there is one, and the list may fail earlier.
-/

namespace UtilityCss

namespace Group

/-- What stands before a blank outside brackets and what stands behind it are expanded on their
own. -/
theorem expand_append_blank {a : Text} (hdepth : Brackets.depth a = 0) {w : Char}
    (hw : Text.isBlank w = true) (b : Text) : expand (a ++ w :: b) = expand a ++ expand b := by
  rw [expand, Brackets.splitBlanks_append_blank hdepth hw, List.flatMap_append]
  rfl

theorem expand_join {texts : List Text} (htexts : ∀ t ∈ texts, Brackets.depth t = 0) :
    expand (Text.join " " texts) = texts.flatMap expand := by
  induction texts with
  | nil => rfl
  | cons t rest ih =>
      have hrest := ih fun other hother => htexts other (List.mem_cons_of_mem t hother)
      cases rest with
      | nil => simp [Text.join]
      | cons next rest =>
          have hjoin : Text.join " " (t :: next :: rest) =
              t ++ ' ' :: Text.join " " (next :: rest) := by
            simp [Text.join, List.intercalate_cons_cons]
          rw [hjoin, expand_append_blank (htexts t List.mem_cons_self) (by decide), hrest]
          rfl

end Group

/-! ## Lists that are read and styled in two parts -/

theorem attempt_bind {σ α β γ : Type} (act : ExceptT Error (StateM σ) α)
    (handle : Except Error α → ExceptT Error (StateM σ) β)
    (next : β → ExceptT Error (StateM σ) γ) :
    attempt act handle >>= next = attempt act fun answer => handle answer >>= next := by
  funext state
  rw [run_bind, attempt, attempt, run_bind]

theorem Token.readEach_append (known : Text → Cached Bool) (first second : List Text) :
    readEach known (first ++ second) = (do
      return (← readEach known first) ++ (← readEach known second)) := by
  induction first with
  | nil => simp [readEach]
  | cons raw first ih =>
      rw [List.cons_append, readEach_cons, readEach_cons, attempt_bind, ih]
      congr 1
      funext answer
      cases answer with
      | ok token => simp only [bind_assoc, pure_bind, List.cons_append]
      | error error => cases error <;> rfl

namespace Engine

variable (engine : Engine)

theorem styleEach_append (first second : List Token) :
    engine.styleEach (first ++ second) = (do
      return (← engine.styleEach first) ++ (← engine.styleEach second)) := by
  induction first with
  | nil => simp [styleEach]
  | cons token first ih =>
      simp only [List.cons_append, styleEach, ih, bind_assoc, pure_bind, List.append_assoc]

/-- What reading some class names comes to when nothing is kept. -/
def readings (raws : List Text) : Except Error (List Token) :=
  (Token.readEach engine.registry.isVariant raws {}).1

/-- What styling some tokens comes to when nothing is kept. -/
def stylings (tokens : List Token) : Except Error (List Styled) := (engine.styleEach tokens {}).1

/-- What styling some texts in turn comes to when nothing is kept. -/
def textStylings (texts : List Text) : Except Error (List Styled) := (engine.styleAll texts {}).1

theorem readings_append (first second : List Text) :
    engine.readings (first ++ second) = (do
      return (← engine.readings first) ++ (← engine.readings second)) := by
  rw [readings, Token.readEach_append]
  exact (engine.steady_readEach first).answer_append (engine.steady_readEach second)
    (PatternCache.faithful_empty engine.lookups)

theorem stylings_append (first second : List Token) :
    engine.stylings (first ++ second) = (do
      return (← engine.stylings first) ++ (← engine.stylings second)) := by
  rw [stylings, styleEach_append]
  exact (engine.steady_styleEach first).answer_append (engine.steady_styleEach second)
    engine.faithful_new

theorem textStylings_cons (t : Text) (rest : List Text) :
    engine.textStylings (t :: rest) = (do
      return (← engine.readings (Group.expand t) >>= engine.stylings) ++
        (← engine.textStylings rest)) := by
  have hread := engine.steady_lift (engine.steady_readAll t)
  have hstyle := hread.bind engine.steady_styleEach
  have hsteps : engine.styleAll (t :: rest) = (do
      return (← liftM (engine.readAll t) >>= engine.styleEach) ++ (← engine.styleAll rest)) := by
    rw [styleAll, bind_assoc]
  rw [textStylings, hsteps,
    hstyle.answer_append (engine.steady_styleAll rest) engine.faithful_new,
    hread.answer_bind engine.steady_styleEach engine.faithful_new]
  rfl

/-! ## Reading first, or in turns with styling -/

/-- The error of the first text that fails to be read. -/
def readingFault? (texts : List Text) : Option Error :=
  texts.findSome? fun t => fault? (engine.readAll t {}).1

theorem fault?_readings (texts : List Text) :
    fault? (engine.readings (texts.flatMap Group.expand)) = engine.readingFault? texts := by
  induction texts with
  | nil => rfl
  | cons t rest ih =>
      have hfirst : engine.readings (Group.expand t) = (engine.readAll t {}).1 := rfl
      rw [List.flatMap_cons, readings_append, hfirst, readingFault?, List.findSome?_cons,
        ← readingFault?, ← ih]
      cases (engine.readAll t {}).1 with
      | error error => rfl
      | ok tokens => cases engine.readings (rest.flatMap Group.expand) <;> rfl

/-- If all texts can be read, it does not matter when they are. -/
theorem textStylings_of_readings {texts : List Text} {tokens : List Token}
    (hread : engine.readings (texts.flatMap Group.expand) = .ok tokens) :
    engine.textStylings texts = engine.stylings tokens := by
  induction texts generalizing tokens with
  | nil =>
      cases hread
      rfl
  | cons t rest ih =>
      rw [List.flatMap_cons, readings_append] at hread
      obtain ⟨first, hfirst, hread⟩ := bind_eq_ok hread
      obtain ⟨second, hsecond, hread⟩ := bind_eq_ok hread
      cases hread
      rw [textStylings_cons, stylings_append, hfirst, ok_bind, ih hsecond]

/-- If a text cannot be read, the texts before it are styled in vain. -/
theorem exists_error_of_readings {texts : List Text} {error : Error}
    (hread : engine.readings (texts.flatMap Group.expand) = .error error) :
    ∃ other, engine.textStylings texts = .error other := by
  induction texts with
  | nil => cases hread
  | cons t rest ih =>
      rw [textStylings_cons]
      cases hstyled : engine.readings (Group.expand t) >>= engine.stylings with
      | error other => exact ⟨other, rfl⟩
      | ok styled =>
          obtain ⟨tokens, htokens, -⟩ := bind_eq_ok hstyled
          rw [List.flatMap_cons, readings_append, htokens, ok_bind] at hread
          have hrest : engine.readings (rest.flatMap Group.expand) = .error error := by
            cases hlater : engine.readings (rest.flatMap Group.expand) with
            | error other =>
                rw [hlater] at hread
                exact hread
            | ok later =>
                rw [hlater] at hread
                cases hread
          obtain ⟨other, hother⟩ := ih hrest
          exact ⟨other, by rw [hother]; rfl⟩

theorem compile_after (texts : List Text) (options : Stylesheet.Options) (history : List Call) :
    (engine.compile texts options (engine.after history)).1 =
      (engine.textStylings texts).map (Stylesheet.generate options) := by
  rw [(engine.steady_compile texts options).answer_eq (engine.faithful_after history)
    engine.faithful_new]
  unfold compile
  rw [(engine.steady_styleAll texts).answer_bind (fun _ => Steady.pure _) engine.faithful_new,
    ← textStylings]
  cases engine.textStylings texts <;> rfl

/-- Styling the joined text is styling the names that are read from all texts. -/
theorem textStylings_join {texts : List Text} (htexts : ∀ t ∈ texts, Brackets.depth t = 0) :
    engine.textStylings [Text.join " " texts] =
      engine.readings (texts.flatMap Group.expand) >>= engine.stylings := by
  rw [textStylings_cons, Group.expand_join htexts]
  cases engine.readings (texts.flatMap Group.expand) >>= engine.stylings with
  | error error => rfl
  | ok styled => exact congrArg Except.ok (List.append_nil styled)

end Engine

/-- A blank that stands outside brackets parts a text into two that are expanded on their own.
On an engine, whatever calls were made before, texts that close their brackets give the same
stylesheet when they are joined by spaces, or both ways fail. The joined text fails as the first
text that cannot be read; if there is none, both ways fail with the same error. -/
theorem generate_join :
    (∀ (a b : Text) (w : Char), Text.isBlank w = true → Brackets.depth a = 0 →
      Group.expand (a ++ w :: b) = Group.expand a ++ Group.expand b) ∧
    (∀ (engine : Engine) (options : Stylesheet.Options) (texts : List Text),
      (∀ t ∈ texts, Brackets.depth t = 0) → ∀ first second : List Call,
      (engine.generate (Text.join " " texts) options (engine.after first)).1.toOption =
          (engine.compile texts options (engine.after second)).1.toOption ∧
        (engine.generate (Text.join " " texts) options (engine.after first)).1 =
          match engine.readingFault? texts with
          | some error => .error error
          | none => (engine.compile texts options (engine.after second)).1) := by
  constructor
  · intro a b w hw hdepth
    exact Group.expand_append_blank hdepth hw b
  · intro engine options texts htexts first second
    rw [Engine.generate, engine.compile_after, engine.compile_after,
      engine.textStylings_join htexts, ← engine.fault?_readings]
    cases hread : engine.readings (texts.flatMap Group.expand) with
    | error error =>
        obtain ⟨other, hother⟩ := engine.exists_error_of_readings hread
        rw [hother]
        exact ⟨rfl, rfl⟩
    | ok tokens =>
        rw [engine.textStylings_of_readings hread]
        exact ⟨rfl, rfl⟩

/-- A group that is malformed and a bracket that closes nothing end outside brackets. -/
theorem generate_join_malformed :
    Text.isBlank '\x85' = true ∧ Brackets.depth "b)" = 0 ∧
      Group.expand ("b)" ++ '\x85' :: "x:(flex a)") = (["b)", "x:flex", "x:a"] : List Text) ∧
      (∀ t ∈ (["flex", "x:([a) flex]", "b)"] : List Text), Brackets.depth t = 0) ∧
      (Engine.handingOn.generate "flex x:([a) flex] b)" {} (Engine.handingOn.after [])).1.toOption =
        (Engine.handingOn.compile ["flex", "x:([a) flex]", "b)"] {}
          (Engine.handingOn.after [.clear])).1.toOption := by
  have hblank : Text.isBlank '\x85' = true := by decide
  have hdepth : Brackets.depth "b)" = 0 := rfl
  have htexts : ∀ t ∈ (["flex", "x:([a) flex]", "b)"] : List Text), Brackets.depth t = 0 := by
    decide
  refine ⟨hblank, hdepth, ?_, htexts, ?_⟩
  · rw [generate_join.1 "b)" "x:(flex a)" '\x85' hblank hdepth]
    decide
  · exact (generate_join.2 Engine.handingOn {} _ htexts [] [.clear]).1

/-- A plug-in with a computed variant whose pattern cannot be read, and a rule that fails. -/
def faltering : Plugin where
  name := "p"
  steps := [
    .addVariant (.proper (.computed ⟨"d", .written "(", fun _ => .ok none⟩)),
    .addRule (.proper
      { pattern := .literal "a", body := .computed fun _ _ => .error (.failure "m") })]

/-- In the list, the rule fails before the second text is read. The joined text is read first,
and fails at the variant. -/
theorem generate_join_faltering : ∃ engine, Engine.ofPlugins {} [faltering] = .ok engine ∧
    (∀ t ∈ (["a", "b:c"] : List Text), Brackets.depth t = 0) ∧
    (engine.compile ["a", "b:c"] {} {}).1 = .error (.failure "m") ∧
    (engine.generate (Text.join " " ["a", "b:c"]) {} {}).1 = .error .invalidPattern := by
  refine ⟨_, rfl, by decide, rfl, rfl⟩

end UtilityCss
