import Cascade.Condition.Basic

/-!
# Conditions item by item

`Condition.consInduction` takes a node as its first item and the node of the
others, so that a proof about conditions is one induction. Where two traversals
are compared no induction is needed, since all of them are folds: `map_fold` says
when a function carries one fold to another.

The first results say what becomes of the leaves, of the shape and of the truth of
a condition when its leaves are replaced. They follow from `fold_expand`.
-/

namespace Cascade.Condition

variable {α β γ : Type}

/-! ## Folds -/

/-- A function that carries the operations of one fold to those of another carries
the result. -/
theorem map_fold {φ : β → γ} {onLeaf : α → β} {onAll onAny : List β → β} {onNot : β → β}
    {onLeaf' : α → γ} {onAll' onAny' : List γ → γ} {onNot' : γ → γ}
    (hleaf : ∀ a, φ (onLeaf a) = onLeaf' a)
    (hall : ∀ items, φ (onAll items) = onAll' (items.map φ))
    (hany : ∀ items, φ (onAny items) = onAny' (items.map φ))
    (hnot : ∀ item, φ (onNot item) = onNot' (φ item)) (c : Condition α) :
    φ (c.fold onLeaf onAll onAny onNot) = c.fold onLeaf' onAll' onAny' onNot' := by
  induction c using Condition.induction with
  | leaf a => exact hleaf a
  | all items ih =>
    rw [fold, fold, hall, foldList_eq_map, foldList_eq_map, List.map_map]
    exact congrArg onAll' (List.map_congr_left ih)
  | any items ih =>
    rw [fold, fold, hany, foldList_eq_map, foldList_eq_map, List.map_map]
    exact congrArg onAny' (List.map_congr_left ih)
  | not c ih => rw [fold, fold, hnot, ih]

/-! ## Nodes as first item and others -/

/-- What holds of leaves, of both empty nodes, of a node whenever it holds of its
first item and of the node of the other items, and of a negation whenever it
holds of what is negated, holds of every condition. -/
theorem consInduction {motive : Condition α → Prop} (leaf : ∀ a, motive (leaf a))
    (all_nil : motive (all []))
    (all_cons : ∀ c cs, motive c → motive (all cs) → motive (all (c :: cs)))
    (any_nil : motive (any []))
    (any_cons : ∀ c cs, motive c → motive (any cs) → motive (any (c :: cs)))
    (not : ∀ c, motive c → motive (not c)) (c : Condition α) : motive c := by
  induction c using Condition.induction with
  | leaf a => exact leaf a
  | all items ih =>
    induction items with
    | nil => exact all_nil
    | cons c cs ihs =>
      rw [List.forall_mem_cons] at ih
      exact all_cons c cs ih.1 (ihs ih.2)
  | any items ih =>
    induction items with
    | nil => exact any_nil
    | cons c cs ihs =>
      rw [List.forall_mem_cons] at ih
      exact any_cons c cs ih.1 (ihs ih.2)
  | not c ih => exact not c ih

theorem leaves_all_cons (c : Condition α) (cs : List (Condition α)) :
    (all (c :: cs)).leaves = c.leaves ++ (all cs).leaves := by
  rw [leaves_all, leaves_all, List.flatMap_cons]

theorem leaves_any_cons (c : Condition α) (cs : List (Condition α)) :
    (any (c :: cs)).leaves = c.leaves ++ (any cs).leaves := by
  rw [leaves_any, leaves_any, List.flatMap_cons]

theorem eval_all_cons (holds : α → Bool) (c : Condition α) (cs : List (Condition α)) :
    (all (c :: cs)).eval holds = (c.eval holds && (all cs).eval holds) := by
  rw [eval_all, eval_all, List.all_cons]

theorem eval_any_cons (holds : α → Bool) (c : Condition α) (cs : List (Condition α)) :
    (any (c :: cs)).eval holds = (c.eval holds || (any cs).eval holds) := by
  rw [eval_any, eval_any, List.any_cons]

/-- The truth of a condition depends on what holds of its leaves. -/
theorem eval_congr {holds holds' : α → Bool} {c : Condition α}
    (h : ∀ a ∈ c.leaves, holds a = holds' a) : c.eval holds = c.eval holds' := by
  induction c using consInduction with
  | leaf a => exact h a (by simp)
  | all_nil => rfl
  | all_cons c cs ih ihs =>
    rw [leaves_all_cons, List.forall_mem_append] at h
    rw [eval_all_cons, eval_all_cons, ih h.1, ihs h.2]
  | any_nil => rfl
  | any_cons c cs ih ihs =>
    rw [leaves_any_cons, List.forall_mem_append] at h
    rw [eval_any_cons, eval_any_cons, ih h.1, ihs h.2]
  | not c ih => rw [eval_not, eval_not, ih h]

/-! ## Replacing leaves -/

/-- Replaces every leaf by a condition. -/
def expand (f : α → Condition β) : Condition α → Condition β := fold f all any not

@[simp] theorem expand_leaf (f : α → Condition β) (a : α) : (leaf a).expand f = f a := rfl

@[simp] theorem expand_all (f : α → Condition β) (items : List (Condition α)) :
    (all items).expand f = all (items.map (expand f)) := by
  simp only [expand, fold, foldList_eq_map]

@[simp] theorem expand_any (f : α → Condition β) (items : List (Condition α)) :
    (any items).expand f = any (items.map (expand f)) := by
  simp only [expand, fold, foldList_eq_map]

@[simp] theorem expand_not (f : α → Condition β) (c : Condition α) :
    (not c).expand f = not (c.expand f) := rfl

/-- To replace leaves by leaves is a case of replacing them by conditions. -/
theorem mapLeaves_eq_expand (f : α → β) (c : Condition α) :
    c.mapLeaves f = c.expand fun a => leaf (f a) := rfl

/-- A fold goes on through the conditions that leaves have been replaced by. -/
theorem fold_expand (f : α → Condition β) (onLeaf : β → γ) (onAll onAny : List γ → γ)
    (onNot : γ → γ) (c : Condition α) :
    (c.expand f).fold onLeaf onAll onAny onNot =
      c.fold (fun a => (f a).fold onLeaf onAll onAny onNot) onAll onAny onNot := by
  apply map_fold
  · intro a
    rfl
  · intro items
    rw [fold, foldList_eq_map]
  · intro items
    rw [fold, foldList_eq_map]
  · intro item
    rfl

/-- A leaf that has been replaced holds if the condition in its place does. -/
theorem eval_expand (f : α → Condition β) (holds : β → Bool) (c : Condition α) :
    (c.expand f).eval holds = c.eval fun a => (f a).eval holds :=
  fold_expand f holds _ _ _ c

theorem eval_mapLeaves (f : α → β) (holds : β → Bool) (c : Condition α) :
    (c.mapLeaves f).eval holds = c.eval fun a => holds (f a) := by
  rw [mapLeaves_eq_expand, eval_expand]
  rfl

/-- The leaves of the conditions in the places of the leaves, one after the other. -/
theorem leaves_expand (f : α → Condition β) (c : Condition α) :
    (c.expand f).leaves = c.leaves.flatMap fun a => (f a).leaves := by
  have hnode : ∀ items : List (List α), items.flatten.flatMap (fun a => (f a).leaves) =
      (items.map fun as => as.flatMap fun a => (f a).leaves).flatten := by
    intro items
    rw [List.flatten_eq_flatMap, List.flatMap_assoc]
    rfl
  rw [leaves, fold_expand]
  symm
  apply map_fold (φ := fun as : List α => as.flatMap fun a => (f a).leaves) _ hnode hnode
  · intro item
    rfl
  · intro a
    exact List.flatMap_singleton ..

theorem leaves_mapLeaves (f : α → β) (c : Condition α) :
    (c.mapLeaves f).leaves = c.leaves.map f := by
  rw [mapLeaves_eq_expand, leaves_expand, List.map_eq_flatMap]
  rfl

/-- A condition keeps its shape exactly if its leaves are replaced by leaves. -/
theorem sameShape_expand_iff (f : α → Condition β) (c : Condition α) :
    c.sameShape (c.expand f) = true ↔ ∀ a ∈ c.leaves, ∃ b, f a = leaf b := by
  induction c using consInduction with
  | leaf a =>
    rw [expand_leaf, leaves_leaf, List.forall_mem_singleton]
    cases f a <;> simp [sameShape]
  | all_nil => simp [sameShape, sameShapes]
  | all_cons c cs ih ihs =>
    rw [expand_all, sameShape] at ihs
    rw [expand_all, sameShape, List.map_cons, sameShapes, Bool.and_eq_true, ih, ihs,
      leaves_all_cons, List.forall_mem_append]
  | any_nil => simp [sameShape, sameShapes]
  | any_cons c cs ih ihs =>
    rw [expand_any, sameShape] at ihs
    rw [expand_any, sameShape, List.map_cons, sameShapes, Bool.and_eq_true, ih, ihs,
      leaves_any_cons, List.forall_mem_append]
  | not c ih => rwa [expand_not, sameShape, leaves_not]

theorem sameShape_mapLeaves (f : α → β) (c : Condition α) :
    c.sameShape (c.mapLeaves f) = true := by
  rw [mapLeaves_eq_expand, sameShape_expand_iff]
  intro a _
  exact ⟨f a, rfl⟩

end Cascade.Condition
