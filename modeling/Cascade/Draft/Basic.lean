import Cascade.Condition.Basic
import Cascade.Hook

/-!
# Drafts

A draft is what a sheet says before anything is built from it. Both ways of
writing a sheet lead to one.
-/

namespace Cascade

/-- Hooks and conditions as they were written: the names may be wrong or occur
twice, and the conditions may refer to nothing. -/
structure Draft where
  hooks : List (String × Hook)
  conditions : List (String × Condition String)

namespace Draft

/-- The draft without any definition. -/
def empty : Draft := ⟨[], []⟩

/-- Puts a hook in front. -/
def consHook (name : String) (hook : Hook) (draft : Draft) : Draft :=
  { draft with hooks := (name, hook) :: draft.hooks }

/-- Puts a condition in front. -/
def consCondition (name : String) (c : Condition String) (draft : Draft) : Draft :=
  { draft with conditions := (name, c) :: draft.conditions }

end Draft

end Cascade
