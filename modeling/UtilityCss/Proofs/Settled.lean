import UtilityCss.Error

/-!
# Answers that do not depend on the state

Computations that keep patterns and resolutions carry a state, which is there after
an error too. Such a computation settles on an answer under an invariant if every
state with the invariant gives that answer, be it a value or an error, and leaves a
state with the invariant behind. Settling passes through sequencing, so that a long
computation settles if its parts do.
-/

namespace UtilityCss

variable {σ α β : Type}

/-- From every state with the invariant, the computation gives this answer and keeps
the invariant. -/
def Settles (inv : σ → Prop) (act : ExceptT Error (StateM σ) α) (answer : Except Error α) :
    Prop :=
  ∀ state, inv state → (act state).1 = answer ∧ inv (act state).2

/-- The computation settles on some answer. -/
def Steady (inv : σ → Prop) (act : ExceptT Error (StateM σ) α) : Prop :=
  ∃ answer, Settles inv act answer

/-- A sequence goes on with the value of its first part, and stops at an error of it. -/
theorem run_bind (act : ExceptT Error (StateM σ) α) (next : α → ExceptT Error (StateM σ) β)
    (state : σ) :
    (act >>= next) state = match act state with
      | (.ok a, state) => next a state
      | (.error error, state) => (.error error, state) := by
  simp only [bind, ExceptT.bind, ExceptT.mk, StateT.bind]
  rcases act state with ⟨_ | _, _⟩ <;> rfl

theorem ok_bind (a : α) (next : α → Except Error β) : (Except.ok a >>= next) = next a := rfl

/-- A sequence with a value has passed its first part. -/
theorem bind_eq_ok {act : Except Error α} {next : α → Except Error β} {b : β}
    (hbind : (act >>= next) = .ok b) : ∃ a, act = .ok a ∧ next a = .ok b := by
  cases act with
  | error error => cases hbind
  | ok a => exact ⟨a, rfl, hbind⟩

theorem run_bind_eq_ok {act : ExceptT Error (StateM σ) α}
    {next : α → ExceptT Error (StateM σ) β} {state : σ} {b : β}
    (hbind : ((act >>= next) state).1 = .ok b) :
    ∃ a after, act state = (.ok a, after) ∧ (next a after).1 = .ok b := by
  rw [run_bind] at hbind
  rcases hact : act state with ⟨error | a, after⟩
  · rw [hact] at hbind
    cases hbind
  · rw [hact] at hbind
    exact ⟨a, after, rfl, hbind⟩

theorem eq_ok_of_toOption {answer : Except Error α} {a : α} (hanswer : answer.toOption = some a) :
    answer = .ok a := by
  cases answer with
  | error error => cases hanswer
  | ok b => exact congrArg Except.ok (Option.some.inj hanswer)

theorem run_lift (answer : Except Error α) (state : σ) :
    (liftM answer : ExceptT Error (StateM σ) α) state = (answer, state) := rfl

/-- Run a computation and go on with its answer, an error included. -/
def attempt (act : ExceptT Error (StateM σ) α)
    (handle : Except Error α → ExceptT Error (StateM σ) β) : ExceptT Error (StateM σ) β :=
  fun state => handle (act state).1 (act state).2

namespace Settles

variable {inv : σ → Prop}

theorem pure (a : α) : Settles inv (pure a) (.ok a) :=
  fun _ hstate => ⟨rfl, hstate⟩

theorem throw (error : Error) : Settles inv (throw error) (.error error : Except Error α) :=
  fun _ hstate => ⟨rfl, hstate⟩

/-- What is computed without the state settles. -/
theorem lift (answer : Except Error α) : Settles inv (liftM answer) answer :=
  fun _ hstate => ⟨rfl, hstate⟩

theorem congr {act other : ExceptT Error (StateM σ) α} {answer : Except Error α}
    (hact : Settles inv act answer) (hsame : ∀ state, other state = act state) :
    Settles inv other answer := by
  intro state hstate
  rw [hsame state]
  exact hact state hstate

theorem bind {act : ExceptT Error (StateM σ) α} {next : α → ExceptT Error (StateM σ) β}
    {first : Except Error α} {second : α → Except Error β} (hact : Settles inv act first)
    (hnext : ∀ a, first = .ok a → Settles inv (next a) (second a)) :
    Settles inv (act >>= next) (first >>= second) := by
  intro state hstate
  obtain ⟨hanswer, hkept⟩ := hact state hstate
  rw [run_bind]
  rcases hrun : act state with ⟨error | a, after⟩
  · rw [hrun] at hanswer hkept
    subst hanswer
    exact ⟨rfl, hkept⟩
  · rw [hrun] at hanswer hkept
    subst hanswer
    exact hnext a rfl after hkept

theorem bind_ok {act : ExceptT Error (StateM σ) α} {next : α → ExceptT Error (StateM σ) β}
    {a : α} {answer : Except Error β} (hact : Settles inv act (.ok a))
    (hnext : Settles inv (next a) answer) : Settles inv (act >>= next) answer := by
  change Settles inv (act >>= next) (Except.ok a >>= fun _ => answer)
  refine hact.bind ?_
  rintro _ ⟨⟩
  exact hnext

theorem bind_error {act : ExceptT Error (StateM σ) α} {next : α → ExceptT Error (StateM σ) β}
    {error : Error} (hact : Settles inv act (.error error)) :
    Settles inv (act >>= next) (.error error) := by
  change Settles inv (act >>= next) ((.error error : Except Error α) >>= fun _ => .error error)
  exact hact.bind fun a ha => by cases ha

theorem attempt {act : ExceptT Error (StateM σ) α}
    {handle : Except Error α → ExceptT Error (StateM σ) β} {first : Except Error α}
    {answer : Except Error β} (hact : Settles inv act first)
    (hhandle : Settles inv (handle first) answer) : Settles inv (attempt act handle) answer := by
  intro state hstate
  obtain ⟨hanswer, hkept⟩ := hact state hstate
  simpa only [UtilityCss.attempt, hanswer] using hhandle _ hkept

theorem steady {act : ExceptT Error (StateM σ) α} {answer : Except Error α}
    (hact : Settles inv act answer) : Steady inv act := ⟨answer, hact⟩

/-- A computation settles on one answer only. -/
theorem eq_of_run {act : ExceptT Error (StateM σ) α} {answer given : Except Error α}
    (hact : Settles inv act answer) {state : σ} (hstate : inv state)
    (hrun : (act state).1 = given) : answer = given :=
  (hact state hstate).1.symm.trans hrun

end Settles

namespace Steady

variable {inv : σ → Prop}

theorem pure (a : α) : Steady inv (pure a) := (Settles.pure a).steady

theorem throw (error : Error) : Steady inv (throw error : ExceptT Error (StateM σ) α) :=
  (Settles.throw error).steady

theorem lift (answer : Except Error α) :
    Steady inv (liftM answer : ExceptT Error (StateM σ) α) :=
  (Settles.lift answer).steady

theorem bind {act : ExceptT Error (StateM σ) α} {next : α → ExceptT Error (StateM σ) β}
    (hact : Steady inv act) (hnext : ∀ a, Steady inv (next a)) : Steady inv (act >>= next) := by
  obtain ⟨first, hfirst⟩ := hact
  exact ⟨first >>= fun a => (hnext a).choose, hfirst.bind fun a _ => (hnext a).choose_spec⟩

theorem attempt {act : ExceptT Error (StateM σ) α}
    {handle : Except Error α → ExceptT Error (StateM σ) β} (hact : Steady inv act)
    (hhandle : ∀ answer, Steady inv (handle answer)) : Steady inv (attempt act handle) := by
  obtain ⟨first, hfirst⟩ := hact
  obtain ⟨second, hsecond⟩ := hhandle first
  exact ⟨second, hfirst.attempt hsecond⟩

/-- The answer from one state with the invariant is the answer from all of them. -/
theorem settles {act : ExceptT Error (StateM σ) α} (hact : Steady inv act) {state : σ}
    (hstate : inv state) : Settles inv act (act state).1 := by
  obtain ⟨answer, hanswer⟩ := hact
  rwa [hanswer.eq_of_run hstate rfl] at hanswer

/-- Two states with the invariant give one answer. -/
theorem answer_eq {act : ExceptT Error (StateM σ) α} (hact : Steady inv act) {first second : σ}
    (hfirst : inv first) (hsecond : inv second) : (act first).1 = (act second).1 :=
  ((hact.settles hsecond) first hfirst).1

/-- From a state with the invariant, the parts of a sequence answer as they do at once. -/
theorem answer_bind {act : ExceptT Error (StateM σ) α} {next : α → ExceptT Error (StateM σ) β}
    (hact : Steady inv act) (hnext : ∀ a, Steady inv (next a)) {state : σ} (hstate : inv state) :
    ((act >>= next) state).1 = (act state).1 >>= fun a => (next a state).1 := by
  have hbind := (hact.settles hstate).bind fun a _ => (hnext a).settles hstate
  exact (hbind state hstate).1

theorem answer_append {first second : ExceptT Error (StateM σ) (List α)} (hfirst : Steady inv first)
    (hsecond : Steady inv second) {state : σ} (hstate : inv state) :
    ((do return (← first) ++ (← second) : ExceptT Error (StateM σ) _) state).1 =
      (do return (← (first state).1) ++ (← (second state).1)) := by
  have happend (items : List α) :
      Steady inv (do return items ++ (← second) : ExceptT Error (StateM σ) _) :=
    hsecond.bind fun _ => Steady.pure _
  rw [hfirst.answer_bind happend hstate]
  congr 1
  funext items
  exact hsecond.answer_bind (fun _ => Steady.pure _) hstate

end Steady

end UtilityCss
