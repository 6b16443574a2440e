import Cascade.Event
import Cascade.Table

/-!
# Registries

A registry holds hooks under names. Each name stands for one hook; to register
the same hook again under its name changes nothing. The same hook may have
several names.

A registry has a table with the identifiers of its hooks, and beside it a list with
the hooks themselves. The two run in parallel. While a registry is being built there
is a third list, of the registrations that have been made, in which a name is looked
for before it is registered. That the three go together is part of the types.
-/

namespace Cascade

/-- Why a hook cannot be registered. -/
inductive RegistryError where
  | emptyName
  | conflict (name : String) (first second : Hook)
deriving DecidableEq

/-- What is wrong, in words. -/
def RegistryError.message : RegistryError → String
  | emptyName => "hook name must not be empty"
  | conflict name first second =>
    "hook '" ++ name ++ "' registered with conflicting definitions '" ++ first.text ++
      "' and '" ++ second.text ++ "'"

/-- Hooks under distinct names, in the order in which the names came up: their
identifiers under the names, and the hooks with their identifiers. -/
structure Registry where
  ids : Table HookId
  entries : List (Hook × HookId)
  aligned : ∃ hooks : List (String × Hook),
    ids.entries = hooks.map (fun entry => (entry.1, entry.2.id)) ∧
      entries = hooks.map fun entry => (entry.2, entry.2.id)

namespace Registry

/-- The registry without hooks. -/
def empty : Registry := ⟨.empty, [], [], rfl, rfl⟩

/-- The hook under a name. The entries have the order of the names, so the two are
gone through together. -/
def definition? (r : Registry) (name : String) : Option Hook :=
  ((r.ids.names.zip r.entries).find? fun item => item.1 == name).map fun item => item.2.1

/-- A short description. -/
def summary (r : Registry) : String :=
  "HookRegistry(" ++ r.ids.size.repr ++ " hooks)"

/-- A registry that is being built, and the registrations that have been made. -/
structure Builder where
  ids : Table HookId
  entries : List (Hook × HookId)
  seen : List (String × Hook)
  ids_eq : ids.entries = seen.map fun entry => (entry.1, entry.2.id)
  entries_eq : entries = seen.map fun entry => (entry.2, entry.2.id)

namespace Builder

/-- The start, without hooks. -/
def empty : Builder := ⟨.empty, [], [], rfl, rfl⟩

theorem names_ids (b : Builder) : b.ids.names = b.seen.map Prod.fst := by
  rw [Table.names, b.ids_eq, List.map_map]
  rfl

/-- A name that no registration has is not in the table either. -/
theorem not_mem_names_of_lookup {b : Builder} {name : String} (h : b.seen.lookup name = none) :
    name ∉ b.ids.names := by
  rw [List.lookup_eq_none_iff] at h
  rw [names_ids, List.mem_map]
  rintro ⟨entry, hentry, rfl⟩
  simpa using h entry hentry

/-- Adds a hook under a name that no registration has. -/
def add (b : Builder) (name : String) (hook : Hook) (h : b.seen.lookup name = none) : Builder where
  ids := b.ids.insert name hook.id
  entries := b.entries ++ [(hook, hook.id)]
  seen := b.seen ++ [(name, hook)]
  ids_eq := by
    rw [Table.insert_of_not_mem (not_mem_names_of_lookup h), Table.entries_add, b.ids_eq,
      List.map_append]
    rfl
  entries_eq := by
    rw [b.entries_eq, List.map_append]
    rfl

/-- Registers one hook. -/
def register (b : Builder) (entry : String × Hook) : Except RegistryError Builder :=
  if entry.1 = "" then
    .error .emptyName
  else
    match h : b.seen.lookup entry.1 with
    | some first =>
      if first = entry.2 then .ok b else .error (.conflict entry.1 first entry.2)
    | none => .ok (b.add entry.1 entry.2 h)

/-- What has been registered, without the list of registrations. -/
def registry (b : Builder) : Registry := ⟨b.ids, b.entries, b.seen, b.ids_eq, b.entries_eq⟩

end Builder

/-- Registers hooks one after the other. -/
def build (hooks : List (String × Hook)) : Except RegistryError Registry := do
  return (← hooks.foldlM Builder.register .empty).registry

/-- The events of `build`: one for every name that is new. -/
def buildEvents (hooks : List (String × Hook)) : List Event :=
  Event.along Builder.register
    (fun b entry => if b.ids.contains entry.1 then [] else [.hookRegistered entry.1 entry.2])
    .empty hooks

end Registry

end Cascade
