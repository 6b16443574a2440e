import Cascade.Condition.Compile
import Cascade.Condition.Error
import Cascade.Event
import Cascade.Grammar.Lexeme
import Cascade.Table
import Cascade.Value.Resolve

/-!
# Tables of conditions

Conditions under names, with identifiers of hooks as leaves. A table is built
from conditions over names of hooks. Over a finished table, the parent, local
conditions can be built: their leaves are names of the parent's conditions. A
name of the parent keeps the parent's condition, whatever the local definition
says.

Definitions are taken one after the other and the first that is wrong is
reported. A name that is no identifier is reported before one that is taken, and
that before a leaf that means nothing.
-/

namespace Cascade

/-- Conditions over hooks, under distinct names. -/
abbrev Conditions : Type := Table (Condition HookId)

namespace Conditions

/-- Adds a condition under a name, which has to be a new identifier. -/
def define (t : Conditions) (name : String) (c : Except ConditionError (Condition HookId)) :
    Except ConditionError Conditions :=
  if Grammar.isIdentifier name then
    if h : t.contains name = true then .error (.duplicateName name)
    else c.map fun c => t.add name c fun hmem => h (Table.contains_iff.2 hmem)
  else
    .error (.invalidName name)

/-- Replaces the names of hooks in a condition by their identifiers. -/
def expandHooks (hooks : Table HookId) (name : String) (c : Condition String) :
    Except ConditionError (Condition HookId) :=
  c.mapLeavesM fun hook =>
    match hooks.get? hook with
    | some id => .ok id
    | none => .error (.unknownHook name hook)

/-- Adds one definition over hooks. -/
def step (hooks : Table HookId) (t : Conditions) (entry : String × Condition String) :
    Except ConditionError Conditions :=
  t.define entry.1 (expandHooks hooks entry.1 entry.2)

/-- The table of definitions over hooks. -/
def build (hooks : Table HookId) (definitions : List (String × Condition String)) :
    Except ConditionError Conditions :=
  definitions.foldlM (step hooks) .empty

/-- The events of `build`: one if it succeeds. -/
def buildEvents (hooks : Table HookId) (definitions : List (String × Condition String)) :
    List Event :=
  match build hooks definitions with
  | .ok t => [.conditionsBuilt t.size]
  | .error _ => []

/-- The condition under a name. -/
def find (t : Conditions) (name : String) : Except ConditionError (Condition HookId) :=
  match t.get? name with
  | some c => .ok c
  | none => .error (.undefinedName name)

/-- The declaration value that resolves to `ifTrue` while the condition under
this name holds and to `ifFalse` while it does not. -/
def declarationValue (t : Conditions) (name ifTrue ifFalse : String) :
    Except ConditionError String := do
  return (← t.find name).compile ifTrue ifFalse

/-- A short description. -/
def summary (t : Conditions) : String :=
  "Conditions(" ++ t.size.repr ++ " conditions)"

end Conditions

/-- Local conditions together with their parent. -/
structure LocalConditions where
  parent : Conditions
  locals : Conditions

namespace LocalConditions

/-- Replaces the names of the parent's conditions in a condition by what they
stand for. -/
def expandReferences (parent : Conditions) (name : String) (c : Condition String) :
    Except ConditionError (Condition HookId) :=
  c.expandM fun reference =>
    match parent.get? reference with
    | some c => .ok c
    | none => .error (.unknownCondition name reference)

/-- The condition of a local definition: that of the parent if it has the name. -/
def expandEntry (parent : Conditions) (entry : String × Condition String) :
    Except ConditionError (Condition HookId) :=
  match parent.get? entry.1 with
  | some c => .ok c
  | none => expandReferences parent entry.1 entry.2

/-- Adds one local definition. -/
def step (parent : Conditions) (t : Conditions) (entry : String × Condition String) :
    Except ConditionError Conditions :=
  t.define entry.1 (expandEntry parent entry)

/-- The local conditions with these definitions. -/
def build (parent : Conditions) (definitions : List (String × Condition String)) :
    Except ConditionError LocalConditions := do
  return ⟨parent, ← definitions.foldlM (step parent) .empty⟩

/-- The events of `build`: one for every name of the parent. -/
def buildEvents (parent : Conditions) (definitions : List (String × Condition String)) :
    List Event :=
  Event.along (step parent)
    (fun _ entry => if parent.contains entry.1 then [.parentKept entry.1] else [])
    .empty definitions

/-- The condition under a name: the local one if there is one, and otherwise the
parent's. -/
def get? (t : LocalConditions) (name : String) : Option (Condition HookId) :=
  (t.locals.get? name).or (t.parent.get? name)

/-- The names of the parent, and then the local ones that the parent does not
have. -/
def names (t : LocalConditions) : List String :=
  t.parent.names ++ t.locals.names.filter fun name => !t.parent.contains name

/-- The conditions that can be referred to: those of the parent, and then the
local ones with other names. -/
def visible (t : LocalConditions) : Conditions := t.parent.extend t.locals

end LocalConditions

end Cascade
