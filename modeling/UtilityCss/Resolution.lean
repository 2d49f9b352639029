import UtilityCss.Registry.Basic

/-!
# Resolution of class bodies

The first rule in registration order that matches a body in full, and does not hand it on,
resolves it. What a body resolves to is kept, as are the patterns that were looked up on
the way; a body whose resolution ends in an error is not.
-/

namespace UtilityCss

/-- The rule that resolved a body, with what it declares. -/
structure Resolution where
  entry : RegisteredRule
  declarations : Declarations
  /-- Further blocks by selector template. -/
  nested : Table Text Declarations

/-- What is kept between answers: the patterns looked up and the bodies resolved. -/
structure Session where
  cache : PatternCache := {}
  memo : Table Text (Option Resolution) := []

/-- Computations that resolve bodies. The session they leave behind is there after an
error too. -/
abbrev Resolving := ExceptT Error (StateM Session)

namespace Session

/-- Look patterns up in the cache of a session. -/
def withCache (act : Cached α) : Resolving α := fun session =>
  let (result, cache) := act session.cache
  (result, { session with cache })

instance : MonadLift Cached Resolving := ⟨withCache⟩

/-- Forget the bodies resolved. -/
def forget : Resolving Unit := fun session => (.ok (), { session with memo := [] })

/-- Forget all that is kept. -/
def clear : Resolving Unit := fun _ => (.ok (), {})

end Session

namespace RuleBody

/-- The properties for a match; none hands the body on. -/
def properties (found : Match) (theme : Theme) : RuleBody → Except Error (Option Properties)
  | .fixed declarations => .ok (some (Properties.ofDeclarations declarations))
  | .nested properties => .ok (some properties)
  | .computed compute => compute found theme

end RuleBody

namespace Registry

/-- The first of some rules that resolves a body. -/
def scan (theme : Theme) (body : Text) : List RegisteredRule → Cached (Option Resolution)
  | [] => return none
  | entry :: rest => do
      let pattern ← entry.rule.pattern.fetch ("rule:" ++ entry.name)
      match pattern.matchWhole body with
      | none => scan theme body rest
      | some found =>
          match ← entry.rule.body.properties found theme with
          | some properties => return some ⟨entry, properties.declarations, properties.nested⟩
          | none => scan theme body rest

/-- What a body resolves to when nothing is kept. The empty body has no resolution. -/
def resolution (registry : Registry) (body : Text) : Cached (Option Resolution) :=
  if body = [] then return none else scan registry.theme body registry.rules

/-- What a body resolves to, or resolved to before. -/
def resolve (registry : Registry) (body : Text) : Resolving (Option Resolution) := fun session =>
  match session.memo.get? body with
  | some known => (.ok known, session)
  | none =>
      match registry.resolution body session.cache with
      | (.ok found, cache) => (.ok found, { cache, memo := session.memo ++ [(body, found)] })
      | (.error error, cache) => (.error error, { session with cache })

/-- A selector and at-rules after variants, outermost first; none if one is unknown. -/
def applyVariants (registry : Registry) :
    List Text → Text → List Text → Cached (Option (Text × List Text))
  | [], selector, atRules => return some (selector, atRules)
  | name :: rest, selector, atRules => do
      match ← registry.resolveVariant name with
      | none => return none
      | some variant =>
          let (selector, atRules) := variant.apply selector atRules
          registry.applyVariants rest selector atRules

end Registry

end UtilityCss
