import UtilityCss.Lint.Check
import UtilityCss.Proofs.EngineHistory

/-!
# What the checks find, whatever the session holds

Each check settles under faithful sessions. Its answer is a list of findings made from
two answers about each token: how it is read, and how what was read is styled.
-/

namespace UtilityCss

namespace Lint

variable (engine : Engine)

/-- The findings about each token, in order. -/
def findAll (answer : Text → Except Error (Option Diagnostic)) :
    List Text → Except Error (List Diagnostic)
  | [] => .ok []
  | raw :: rest => do
      let found ← answer raw
      let others ← findAll answer rest
      .ok (found.toList ++ others)

theorem settles_eachToken {inv : Session → Prop} {find : Text → Resolving (Option Diagnostic)}
    {answer : Text → Except Error (Option Diagnostic)}
    (hfind : ∀ raw, Settles inv (find raw) (answer raw)) (tokens : List Text) :
    Settles inv (eachToken find tokens) (findAll answer tokens) := by
  induction tokens with
  | nil => exact Settles.pure []
  | cons raw rest ih => exact (hfind raw).bind fun _ _ => ih.bind fun _ _ => Settles.pure _

/-- A reading as the checks see it: nothing if the token is refused as a variant group. -/
def readingOf : Except Error Token → Except Error (Option Token)
  | .ok token => .ok (some token)
  | .error (.variantGroup ..) => .ok none
  | .error error => .error error

/-- How a token is read when nothing is kept. -/
def readingAnswer (raw : Text) : Except Error (Option Token) :=
  readingOf (Token.readAnswer engine.accepts raw)

theorem settles_tryRead (raw : Text) :
    Settles engine.Faithful (liftM (tryRead engine raw) : Resolving _)
      (readingAnswer engine raw) := by
  have htry : tryRead engine raw =
      attempt (engine.read raw) fun answer => liftM (readingOf answer) := by
    funext cache
    simp only [tryRead, attempt]
    rcases engine.read raw cache with ⟨error | token, next⟩
    · cases error <;> rfl
    · rfl
  rw [htry]
  exact engine.settles_lift ((engine.settles_read raw).attempt (Settles.lift _))

/-- The finding about a token that was read so. -/
def unreadOf (raw : Text) : Except Error Token → Except Error (Option Diagnostic)
  | .ok _ => .ok none
  | .error (.variantGroup token position) =>
      .ok (some (unreadFinding raw (.variantGroup token position)))
  | .error error => .error error

/-- The finding about the reading of a token. -/
def unreadAnswer (raw : Text) : Except Error (Option Diagnostic) :=
  unreadOf raw (Token.readAnswer engine.accepts raw)

theorem settles_checkReading (tokens : List Text) :
    Settles engine.Faithful (checkReading engine tokens)
      (findAll (unreadAnswer engine) tokens) := by
  refine settles_eachToken (fun raw => ?_) tokens
  have hread := engine.settles_lift (engine.settles_read raw)
  have hfinding : Settles engine.Faithful
      (attempt (liftM (engine.read raw)) fun answer => liftM (unreadOf raw answer))
      (unreadAnswer engine raw) := hread.attempt (Settles.lift _)
  refine hfinding.congr fun session => ?_
  simp only [attempt, Session.run_lift]
  rcases engine.read raw session.cache with ⟨error | token, cache⟩
  · cases error <;> rfl
  · rfl

/-- The finding about the brackets of a token. -/
def bracketAnswer (raw : Text) : Option Diagnostic :=
  if hasEmptyOpacity raw then none else (bracketFault? raw).map (bracketFinding raw)

theorem settles_checkBrackets {inv : Session → Prop} (tokens : List Text) :
    Settles inv (checkBrackets engine tokens)
      (findAll (fun raw => .ok (bracketAnswer raw)) tokens) := by
  refine settles_eachToken (fun raw => ?_) tokens
  unfold bracketAnswer
  split
  · exact Settles.pure none
  · exact Settles.pure _

/-- The finding about the opacity of a token. -/
def emptyOpacityAnswer (raw : Text) : Option Diagnostic :=
  if hasEmptyOpacity raw then some (emptyOpacityFinding raw) else none

theorem settles_checkEmptyOpacity {inv : Session → Prop} (tokens : List Text) :
    Settles inv (checkEmptyOpacity engine tokens)
      (findAll (fun raw => .ok (emptyOpacityAnswer raw)) tokens) := by
  refine settles_eachToken (fun raw => ?_) tokens
  unfold emptyOpacityAnswer
  cases hasEmptyOpacity raw with
  | true => exact Settles.pure _
  | false => exact Settles.pure none

/-- The finding about the variants of a token. -/
def unknownVariantAnswer (raw : Text) : Except Error (Option Diagnostic) := do
  match ← readingAnswer engine raw with
  | none => .ok none
  | some token => .ok ((unknownVariants token).head?.map (unknownVariantFinding raw))

theorem settles_checkUnknownVariant (tokens : List Text) :
    Settles engine.Faithful (checkUnknownVariant engine tokens)
      (findAll (unknownVariantAnswer engine) tokens) := by
  refine settles_eachToken (fun raw => ?_) tokens
  refine (settles_tryRead engine raw).bind fun reading _ => ?_
  cases reading with
  | none => exact Settles.pure none
  | some token => exact Settles.pure _

/-- Whether another check than that for unknown classes reports a token that can be read. -/
def reportedElsewhere (raw : Text) (token : Token) : Bool :=
  unknownVariants token ≠ [] || (bracketFault? raw).isSome || hasEmptyOpacity raw

/-- The finding about the styling of a token. -/
def unknownClassAnswer (raw : Text) : Except Error (Option Diagnostic) := do
  match ← readingAnswer engine raw with
  | none => .ok none
  | some token =>
      if reportedElsewhere raw token then .ok none
      else
        let styled ← engine.styleAnswer token
        .ok (if styled.isSome then none else some (unknownClassFinding raw))

theorem settles_checkUnknownClass (tokens : List Text) :
    Settles engine.Faithful (checkUnknownClass engine tokens)
      (findAll (unknownClassAnswer engine) tokens) := by
  refine settles_eachToken (fun raw => ?_) tokens
  refine (settles_tryRead engine raw).bind fun reading _ => ?_
  cases reading with
  | none => exact Settles.pure none
  | some token =>
      unfold reportedElsewhere
      dsimp only
      split
      · exact Settles.pure none
      · refine (engine.settles_style token).bind fun styled _ => ?_
        cases styled <;> exact Settles.pure _

/-- The findings about conflicts of tokens with those before them. -/
def conflictAnswers (declared : Declared) : List Text → Except Error (List Diagnostic)
  | [] => .ok []
  | raw :: rest => do
      match ← readingAnswer engine raw with
      | none => conflictAnswers declared rest
      | some token =>
          match ← engine.styleAnswer token with
          | none => conflictAnswers declared rest
          | some styled =>
              let properties := styled.declarations.keys
              let found := conflictsOf declared token.variants raw properties
              let others ← conflictAnswers (declared.record token.variants raw properties) rest
              .ok (found ++ others)

theorem settles_conflictsFrom (declared : Declared) (tokens : List Text) :
    Settles engine.Faithful (conflictsFrom engine declared tokens)
      (conflictAnswers engine declared tokens) := by
  induction tokens generalizing declared with
  | nil => exact Settles.pure []
  | cons raw rest ih =>
      unfold conflictsFrom conflictAnswers
      refine (settles_tryRead engine raw).bind fun reading _ => ?_
      cases reading with
      | none => exact ih declared
      | some token =>
          refine (engine.settles_style token).bind fun styled _ => ?_
          cases styled with
          | none => exact ih declared
          | some styled => exact (ih _).bind fun _ _ => Settles.pure _

/-- The findings of several checks in order, and those of further checks after them. -/
def gather (further : Except Error (List Diagnostic)) :
    List (Except Error (List Diagnostic)) → Except Error (List Diagnostic)
  | [] => further
  | answer :: rest => do
      let found ← answer
      let others ← gather further rest
      .ok (found ++ others)

theorem settles_runAll_cons {inv : Session → Prop} {tokens : List Text} {find : Finder}
    {rest : List Finder} {answer further : Except Error (List Diagnostic)}
    {answers : List (Except Error (List Diagnostic))}
    (hfind : Settles inv (find engine tokens) answer)
    (hrest : Settles inv (runAll engine tokens rest) (gather further answers)) :
    Settles inv (runAll engine tokens (find :: rest)) (gather further (answer :: answers)) :=
  hfind.bind fun _ _ => hrest.bind fun _ _ => Settles.pure _

/-- What the checks answer about tokens without groups. -/
def checkAnswers (tokens : List Text) : List (Except Error (List Diagnostic)) :=
  [findAll (unreadAnswer engine) tokens,
    findAll (fun raw => .ok (bracketAnswer raw)) tokens,
    findAll (fun raw => .ok (emptyOpacityAnswer raw)) tokens,
    findAll (unknownVariantAnswer engine) tokens,
    findAll (unknownClassAnswer engine) tokens,
    conflictAnswers engine [] tokens]

/-- The checks settle on their answers if further checks settle. -/
theorem settles_validate (texts : List Text) {extra : List Finder}
    {further : Except Error (List Diagnostic)}
    (hextra : Settles engine.Faithful (runAll engine (expandAll texts) extra) further) :
    Settles engine.Faithful (validate engine texts extra)
      (gather further (checkAnswers engine (expandAll texts))) := by
  apply settles_runAll_cons engine (settles_checkReading engine _)
  apply settles_runAll_cons engine (settles_checkBrackets engine _)
  apply settles_runAll_cons engine (settles_checkEmptyOpacity engine _)
  apply settles_runAll_cons engine (settles_checkUnknownVariant engine _)
  apply settles_runAll_cons engine (settles_checkUnknownClass engine _)
  exact settles_runAll_cons engine (settles_conflictsFrom engine [] _) hextra

/-- A watch looks at the tokens only. -/
theorem steady_watch {inv : Session → Prop} (watch : Watch) (tokens : List Text) :
    Steady inv (watch.finder engine tokens) := by
  induction tokens with
  | nil => exact Steady.pure []
  | cons raw rest ih =>
      refine Steady.bind ?_ fun _ => ih.bind fun _ => Steady.pure _
      dsimp only
      split
      · exact Steady.pure none
      · exact Steady.pure _

theorem steady_watches {inv : Session → Prop} (watches : List Watch) (tokens : List Text) :
    Steady inv (runAll engine tokens (watches.map Watch.finder)) := by
  induction watches with
  | nil => exact Steady.pure []
  | cons watch rest ih =>
      exact (steady_watch engine watch tokens).bind fun _ => ih.bind fun _ => Steady.pure _

theorem steady_validate (texts : List Text) (watches : List Watch) :
    Steady engine.Faithful (validate engine texts (watches.map Watch.finder)) := by
  obtain ⟨further, hfurther⟩ := steady_watches engine watches (expandAll texts)
  exact (settles_validate engine texts hfurther).steady

end Lint

end UtilityCss
