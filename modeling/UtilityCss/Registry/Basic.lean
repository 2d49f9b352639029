import UtilityCss.Registry.Rule

/-!
# The registry

The registry holds rules, variants and a theme in the order in which they were added; that
order is the only priority among them. Every addition leaves an entry in the trace, which
names the plug-in on whose behalf it was made. A frozen registry refuses additions.

An operation that fails part of the way keeps what it has added before.
-/

namespace UtilityCss

/-- What a trace entry is about. -/
inductive TraceKind where
  | plugin
  | rule
  | variant
  | computedVariant
  | theme
  deriving DecidableEq

/-- The name of a kind in reports. -/
def TraceKind.label : TraceKind → Text
  | .plugin => "plugin"
  | .rule => "rule"
  | .variant => "variant"
  | .computedVariant => "dynamic_variant"
  | .theme => "theme"

/-- One addition to the registry. -/
structure TraceEntry where
  plugin : Text
  kind : TraceKind
  name : Text
  deriving DecidableEq

/-- A rule in the registry, with the name and the place it was given. -/
structure RegisteredRule where
  rule : Rule
  name : Text
  index : Nat
  plugin : Text

/-- The place of a rule when results are sorted. -/
def RegisteredRule.sortKey (entry : RegisteredRule) : Int := entry.rule.order.getD entry.index

/-- The plug-in that additions outside any plug-in are attributed to. -/
def directPlugin : Text := "<direct>"

/-- Rules, variants and theme values in the order of their addition. -/
structure Registry where
  rules : List RegisteredRule := []
  variants : Table Text Variant := []
  computedVariants : List ComputedVariant := []
  theme : Theme := []
  /-- The plug-ins that were installed in full, with their versions. -/
  plugins : List (Text × Text) := []
  trace : List TraceEntry := []
  currentPlugin : Text := directPlugin
  frozen : Bool := false

/-- Additions to a registry. What was added before an error stays. -/
abbrev Registering := ExceptT Error (StateM Registry)

/-- A static or computed variant. -/
inductive AnyVariant where
  | static (variant : Variant)
  | computed (variant : ComputedVariant)

/-- Something offered to the registry: what it takes, or a thing of another kind. -/
inductive Offered (α : Type) where
  | proper (item : α)
  | foreign (kind : Text)

namespace Registry

/-- The registry after one more trace entry. -/
def traced (registry : Registry) (kind : TraceKind) (name : Text) : Registry :=
  { registry with trace := registry.trace ++ [⟨registry.currentPlugin, kind, name⟩] }

/-- Whether a rule of this name is registered. -/
def hasRule (registry : Registry) (name : Text) : Bool := registry.rules.any (·.name == name)

/-- The name that a rule is registered under: its own, which must be new, or one made from
the plug-in and the literal pattern or the index; the index sets it apart if it is taken. -/
def ruleName (registry : Registry) (rule : Rule) : Except Error Text :=
  let index := registry.rules.length
  if rule.name ≠ [] then
    if registry.hasRule rule.name then .error (.duplicateRule rule.name) else .ok rule.name
  else
    let name := match rule.pattern with
      | .literal text => registry.currentPlugin ++ ":" ++ text
      | _ => registry.currentPlugin ++ "#" ++ Text.ofNat index
    .ok (if registry.hasRule name then name ++ "#" ++ Text.ofNat index else name)

/-- Do something unless the registry is frozen. -/
def whenOpen (act : Registry → Except Error α × Registry) : Registering α := fun registry =>
  if registry.frozen then (.error .frozen, registry) else act registry

/-- Add a rule after all others; the result is its name. -/
def addRule (offer : Offered Rule) : Registering Text := whenOpen fun registry =>
  match offer with
  | .foreign kind => (.error (.unsupportedRule kind), registry)
  | .proper rule =>
      match registry.ruleName rule with
      | .error error => (.error error, registry)
      | .ok name =>
          let entry : RegisteredRule :=
            ⟨rule, name, registry.rules.length, registry.currentPlugin⟩
          (.ok name, { registry with rules := registry.rules ++ [entry] }.traced .rule name)

/-- Add rules in order; the result is their names. -/
def addRules : List (Offered Rule) → Registering (List Text)
  | [] => return []
  | offer :: rest => do
      let name ← addRule offer
      let names ← addRules rest
      return name :: names

/-- Add a variant. A static variant takes the place of one of its name; the names of
computed variants must differ. -/
def addVariant (offer : Offered AnyVariant) : Registering Unit := whenOpen fun registry =>
  match offer with
  | .foreign kind => (.error (.unsupportedVariant kind), registry)
  | .proper (.static variant) =>
      (.ok (), { registry with
        variants := registry.variants.put variant.name variant }.traced .variant variant.name)
  | .proper (.computed variant) =>
      if registry.computedVariants.any (·.name == variant.name) then
        (.error (.duplicateDynamicVariant variant.name), registry)
      else
        (.ok (), { registry with
          computedVariants := registry.computedVariants ++ [variant] }.traced .computedVariant
            variant.name)

/-- Add variants in order. -/
def addVariants : List (Offered AnyVariant) → Registering Unit
  | [] => return ()
  | offer :: rest => do
      addVariant offer
      addVariants rest

/-- Merge values into the theme. -/
def extendTheme (values : Theme) : Registering Unit := whenOpen fun registry =>
  let extended := { registry with theme := registry.theme.merge values }
  (.ok (), values.keys.foldl (fun registry key => registry.traced .theme key) extended)

/-- Refuse further additions. -/
def freeze : Registering Unit := fun registry => (.ok (), { registry with frozen := true })

/-- Make additions on behalf of a plug-in. The plug-in is recorded if they all succeed; an
error other than the refusal of a frozen registry is attributed to it. -/
def onBehalfOf (name version : Text) (additions : Registering Unit) : Registering Unit :=
  whenOpen fun registry =>
    let previous := registry.currentPlugin
    let started := { registry with currentPlugin := name }.traced .plugin version
    match additions started with
    | (.ok _, registry) =>
        (.ok (), { registry with
          currentPlugin := previous, plugins := registry.plugins ++ [(name, version)] })
    | (.error .frozen, registry) => (.error .frozen, { registry with currentPlugin := previous })
    | (.error error, registry) =>
        (.error (.install name error), { registry with currentPlugin := previous })

/-- The first computed variant that resolves a name. -/
def resolveComputed (name : Text) : List ComputedVariant → Cached (Option Variant)
  | [] => return none
  | variant :: rest => do
      let pattern ← variant.pattern.fetch ("variant:" ++ variant.name)
      match pattern.matchWhole name with
      | none => resolveComputed name rest
      | some found =>
          match ← variant.resolve found with
          | some resolved => return some resolved
          | none => resolveComputed name rest

/-- The variant of a name: a static one, else one in brackets, else the first computed one
that resolves it. -/
def resolveVariant (registry : Registry) (name : Text) : Cached (Option Variant) :=
  match registry.variants.get? name with
  | some variant => return some variant
  | none =>
      if Payload.isBracketed name then return Variant.ofBrackets? name
      else resolveComputed name registry.computedVariants

/-- Whether a name is a variant. -/
def isVariant (registry : Registry) (name : Text) : Cached Bool := do
  return (← registry.resolveVariant name).isSome

end Registry

end UtilityCss
