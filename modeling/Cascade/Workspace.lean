import Cascade.Sheet

/-!
# Workspaces

A workspace is where hooks and conditions are collected and built step by step.
Definitions wait until they are built; a build takes all that wait, whether it
succeeds or not. When a build fails, what had been built before stays. Building
conditions or loading a sheet makes the local conditions go, since their parent
is replaced.

Every step gives the workspace after it, the events on the way, and a result.
-/

namespace Cascade

/-- Definitions that wait, and what has been built last. -/
structure Workspace where
  waitingHooks : List (String × Hook)
  waitingConditions : List (String × Condition String)
  waitingLocals : List (String × Condition String)
  registry : Option Registry
  conditions : Option Conditions
  locals : Option LocalConditions
  sheet : Option Sheet

/-- The tables of a workspace that can be looked at. -/
inductive TableName where
  | conditions
  | locals
  | sheet
deriving DecidableEq

/-- What comes of a step. -/
structure Step (α : Type) where
  next : Workspace
  events : List Event
  result : Except Error α

namespace Workspace

/-- The workspace at the start. -/
def empty : Workspace := ⟨[], [], [], none, none, none, none⟩

/-- Lets a hook wait. -/
def addHook (w : Workspace) (name : String) (hook : Hook) : Workspace :=
  { w with waitingHooks := w.waitingHooks ++ [(name, hook)] }

/-- Lets a condition wait. -/
def addCondition (w : Workspace) (name : String) (c : Condition String) : Workspace :=
  { w with waitingConditions := w.waitingConditions ++ [(name, c)] }

/-- Lets a local condition wait. -/
def addLocal (w : Workspace) (name : String) (c : Condition String) : Workspace :=
  { w with waitingLocals := w.waitingLocals ++ [(name, c)] }

/-- The registry built last. -/
def requireRegistry (w : Workspace) : Except Error Registry :=
  match w.registry with
  | some registry => .ok registry
  | none => .error .noRegistry

/-- The sheet loaded last. -/
def requireSheet (w : Workspace) : Except Error Sheet :=
  match w.sheet with
  | some sheet => .ok sheet
  | none => .error .noTable

/-- The table of this name. -/
def table (w : Workspace) (name : TableName) : Except Error Conditions :=
  let found :=
    match name with
    | .conditions => w.conditions
    | .locals => w.locals.map LocalConditions.visible
    | .sheet => w.sheet.map Sheet.conditions
  match found with
  | some t => .ok t
  | none => .error .noTable

/-- Builds a registry from the hooks that wait. -/
def buildRegistry (w : Workspace) : Step Registry :=
  let rest := { w with waitingHooks := [] }
  let events := Registry.buildEvents w.waitingHooks
  match Registry.build w.waitingHooks with
  | .ok registry => ⟨{ rest with registry := some registry }, events, .ok registry⟩
  | .error error => ⟨rest, events, .error (.registry error)⟩

/-- Builds a table from the conditions that wait, over the hooks of the
registry. -/
def buildConditions (w : Workspace) : Step Conditions :=
  let rest := { w with waitingConditions := [] }
  match w.registry with
  | none => ⟨rest, [], .error .noRegistry⟩
  | some registry =>
    let events := Conditions.buildEvents registry.ids w.waitingConditions
    match Conditions.build registry.ids w.waitingConditions with
    | .ok t => ⟨{ rest with conditions := some t, locals := none }, events, .ok t⟩
    | .error error => ⟨rest, events, .error (.condition error)⟩

/-- Builds a table from the local conditions that wait, over the table of
conditions. -/
def buildLocals (w : Workspace) : Step LocalConditions :=
  let rest := { w with waitingLocals := [] }
  match w.conditions with
  | none => ⟨rest, [], .error .noTable⟩
  | some parent =>
    let events := LocalConditions.buildEvents parent w.waitingLocals
    match LocalConditions.build parent w.waitingLocals with
    | .ok t => ⟨{ rest with locals := some t }, events, .ok t⟩
    | .error error => ⟨rest, events, .error (.condition error)⟩

/-- Builds a sheet, and puts its registry and its conditions in place of those
there are. What waits goes on waiting. -/
def load (w : Workspace) (draft : Except Error Draft) : Step Sheet :=
  match draft with
  | .error error => ⟨w, [], .error error⟩
  | .ok draft =>
    let events := Sheet.buildEvents draft
    match Sheet.build draft with
    | .error error => ⟨w, events, .error error⟩
    | .ok sheet =>
      let next :=
        { w with
          sheet := some sheet
          registry := some sheet.registry
          conditions := some sheet.conditions
          locals := none }
      ⟨next, events, .ok sheet⟩

/-- Writes the stylesheet of a registry. -/
def write (w : Workspace) (format : Format) (registry : Registry) : Step String :=
  ⟨w, [registry.stylesheet.event format], .ok (registry.stylesheet.render format)⟩

/-- Writes the stylesheet of the registry built last. -/
def writeRegistry (w : Workspace) (format : Format) : Step String :=
  match w.registry with
  | some registry => w.write format registry
  | none => ⟨w, [], .error .noRegistry⟩

/-- Writes the stylesheet of the sheet loaded last. -/
def writeSheet (w : Workspace) (format : Format) : Step String :=
  match w.sheet with
  | some sheet => w.write format sheet.registry
  | none => ⟨w, [], .error .noTable⟩

/-- The text and the truth of a condition while the hooks with these names are
active. Names that are not registered are passed over. -/
def preview (w : Workspace) (table : TableName) (name ifTrue ifFalse : String)
    (active : List String) : Except Error (String × Bool) := do
  let ids := (← w.requireRegistry).ids
  let isActive (id : HookId) : Bool := active.any fun hook => ids.get? hook == some id
  let t ← w.table table
  let text ← t.preview name ifTrue ifFalse isActive
  let c ← (t.find name).mapError .condition
  return (text, c.eval isActive)

end Workspace

end Cascade
