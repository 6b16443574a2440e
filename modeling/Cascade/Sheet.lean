import Cascade.Draft.Reader
import Cascade.Stylesheet

/-!
# Sheets

A sheet is a registry of hooks and a table of conditions over them, built from a
draft: first the hooks, then the conditions.
-/

namespace Cascade

/-- Hooks and the conditions over them. -/
structure Sheet where
  registry : Registry
  conditions : Conditions

namespace Sheet

/-- Registers the hooks of a draft and builds its conditions over them. -/
def build (draft : Draft) : Except Error Sheet := do
  let registry ← (Registry.build draft.hooks).mapError .registry
  let conditions ← (Conditions.build registry.ids draft.conditions).mapError .condition
  return ⟨registry, conditions⟩

/-- The events of `build`. -/
def buildEvents (draft : Draft) : List Event :=
  Registry.buildEvents draft.hooks ++
    match Registry.build draft.hooks with
    | .ok registry => Conditions.buildEvents registry.ids draft.conditions
    | .error _ => []

/-- A sheet from a text. -/
def ofText (s : String) : Except Error Sheet := Draft.ofText s >>= build

/-- A sheet from a text in JSON. -/
def ofJsonText (s : String) : Except Error Sheet := Draft.ofJsonText s >>= build

/-- A short description. -/
def summary (sheet : Sheet) : String :=
  "HookSheet(" ++ sheet.registry.ids.size.repr ++ " hooks, " ++
    sheet.conditions.size.repr ++ " conditions)"

end Sheet

/-- The stylesheet of a registry. -/
def Registry.stylesheet (r : Registry) : Stylesheet := .ofHooks r.entries

/-- The condition under a name, compiled with two literals and resolved. -/
def Conditions.preview (t : Conditions) (name ifTrue ifFalse : String)
    (isActive : HookId → Bool) : Except Error String := do
  let value ← (t.declarationValue name ifTrue ifFalse).mapError .condition
  (Value.resolve isActive value).mapError .resolve

end Cascade
