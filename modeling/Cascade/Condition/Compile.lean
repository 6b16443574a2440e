import Cascade.Condition.Basic
import Cascade.Toggle

/-!
# Conditions as declaration values

A condition over hooks becomes a declaration value that resolves to one of two
given literals. Each hook contributes two references, one of which is empty at
any time while the other takes its fallback.

In a conjunction each item has the rest of the conjunction in place of the
literal for true, so that literal is written once. A disjunction is the same
with the literals exchanged.
-/

namespace Cascade.Condition

/-- A declaration value that takes two literals. -/
abbrev Choice : Type := String → String → String

/-- The two references to a hook: the first stands for `ifTrue` while the hook is
active, the second for `ifFalse` while it is not. -/
def compileHook (id : HookId) : Choice := fun ifTrue ifFalse =>
  "var(" ++ id.on ++ ", " ++ ifTrue ++ ") var(" ++ id.off ++ ", " ++ ifFalse ++ ")"

theorem compileHook_eq (id : HookId) (t f : String) :
    compileHook id t f =
      "var(" ++ id.on ++ ", " ++ t ++ ") var(" ++ id.off ++ ", " ++ f ++ ")" := rfl

/-- The declaration value that resolves to the first literal when the condition
holds and to the second when it does not. -/
def compile : Condition HookId → Choice :=
  fold compileHook
    (fun items ifTrue ifFalse => items.foldr (fun item rest => item rest ifFalse) ifTrue)
    (fun items ifTrue ifFalse => items.foldr (fun item rest => item ifTrue rest) ifFalse)
    (fun item ifTrue ifFalse => item ifFalse ifTrue)

@[simp] theorem compile_leaf (id : HookId) : (leaf id).compile = compileHook id := rfl

@[simp] theorem compile_all (items : List (Condition HookId)) (t f : String) :
    (all items).compile t f = items.foldr (fun item rest => item.compile rest f) t := by
  simp only [compile, fold, foldList_eq_map, List.foldr_map]

@[simp] theorem compile_any (items : List (Condition HookId)) (t f : String) :
    (any items).compile t f = items.foldr (fun item rest => item.compile t rest) f := by
  simp only [compile, fold, foldList_eq_map, List.foldr_map]

@[simp] theorem compile_not (c : Condition HookId) (t f : String) :
    (not c).compile t f = c.compile f t := rfl

end Cascade.Condition
