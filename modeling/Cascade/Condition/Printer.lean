import Cascade.Condition.Basic

/-!
# Writing conditions

Every node is written in parentheses, so the text shows the whole structure. The
two empty nodes are written as the constants they stand for.
-/

namespace Cascade.Condition

variable {α : Type}

/-- The texts of items with an operator between each two, in parentheses; a
constant if there are none. -/
def renderNode (operator constant : String) : List String → String
  | [] => constant
  | items => "(" ++ String.intercalate (" " ++ operator ++ " ") items ++ ")"

/-- The text of a condition, given that of its leaves. -/
def render (leafText : α → String) : Condition α → String :=
  fold leafText (renderNode "AND" "TRUE") (renderNode "OR" "FALSE")
    (fun item => "(NOT " ++ item ++ ")")

@[simp] theorem render_leaf (leafText : α → String) (a : α) :
    (leaf a).render leafText = leafText a := rfl

@[simp] theorem render_all (leafText : α → String) (items : List (Condition α)) :
    (all items).render leafText = renderNode "AND" "TRUE" (items.map (render leafText)) := by
  simp only [render, fold, foldList_eq_map]

@[simp] theorem render_any (leafText : α → String) (items : List (Condition α)) :
    (any items).render leafText = renderNode "OR" "FALSE" (items.map (render leafText)) := by
  simp only [render, fold, foldList_eq_map]

@[simp] theorem render_not (leafText : α → String) (c : Condition α) :
    (not c).render leafText = "(NOT " ++ c.render leafText ++ ")" := rfl

/-- The text of a condition over texts. -/
def text : Condition String → String := render id

end Cascade.Condition
