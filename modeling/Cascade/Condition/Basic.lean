/-!
# Conditions

A condition is a boolean combination of leaves. What the leaves are depends on
where the condition comes from: names of hooks, names of other conditions, or
identifiers of hooks.

`Condition.fold` replaces the constructors by operations of the same kind, and
is the one recursion here: every other traversal is a fold, and comes with one
equation for each constructor. Proofs about conditions go by
`Condition.induction`.
-/

namespace Cascade

/-- A boolean combination of leaves. All of no conditions holds, and any of no
conditions does not. -/
inductive Condition (α : Type) where
  | leaf (a : α)
  | all (items : List (Condition α))
  | any (items : List (Condition α))
  | not (item : Condition α)
deriving Inhabited

namespace Condition

variable {α β : Type}

/-! ## Recursion and induction -/

mutual

/-- Replaces each constructor by an operation. -/
def fold (onLeaf : α → β) (onAll onAny : List β → β) (onNot : β → β) : Condition α → β
  | leaf a => onLeaf a
  | all items => onAll (foldList onLeaf onAll onAny onNot items)
  | any items => onAny (foldList onLeaf onAll onAny onNot items)
  | not item => onNot (fold onLeaf onAll onAny onNot item)

/-- Folds every condition of a list. -/
def foldList (onLeaf : α → β) (onAll onAny : List β → β) (onNot : β → β) :
    List (Condition α) → List β
  | [] => []
  | item :: items =>
    fold onLeaf onAll onAny onNot item :: foldList onLeaf onAll onAny onNot items

end

theorem foldList_eq_map (onLeaf : α → β) (onAll onAny : List β → β) (onNot : β → β)
    (items : List (Condition α)) :
    foldList onLeaf onAll onAny onNot items = items.map (fold onLeaf onAll onAny onNot) := by
  induction items with
  | nil => rfl
  | cons item items ih => simp [foldList, ih]

/-- What holds of a node whenever it holds of its items holds of every
condition. -/
theorem induction {motive : Condition α → Prop} (leaf : ∀ a, motive (leaf a))
    (all : ∀ items, (∀ c ∈ items, motive c) → motive (all items))
    (any : ∀ items, (∀ c ∈ items, motive c) → motive (any items))
    (not : ∀ c, motive c → motive (not c)) (c : Condition α) : motive c :=
  @Condition.rec α motive (fun items => ∀ c ∈ items, motive c)
    leaf all any not (by simp) (fun _ _ hc hcs => by simpa using ⟨hc, hcs⟩) c

/-! ## Leaves -/

/-- The leaves from left to right. -/
def leaves : Condition α → List α :=
  fold (fun a => [a]) List.flatten List.flatten id

@[simp] theorem leaves_leaf (a : α) : (leaf a).leaves = [a] := rfl

@[simp] theorem leaves_all (items : List (Condition α)) :
    (all items).leaves = items.flatMap leaves := by
  simp [leaves, fold, foldList_eq_map, List.flatMap]

@[simp] theorem leaves_any (items : List (Condition α)) :
    (any items).leaves = items.flatMap leaves := by
  simp [leaves, fold, foldList_eq_map, List.flatMap]

@[simp] theorem leaves_not (c : Condition α) : (not c).leaves = c.leaves := rfl

/-- Replaces every leaf and keeps the shape. -/
def mapLeaves (f : α → β) : Condition α → Condition β :=
  fold (fun a => leaf (f a)) all any not

@[simp] theorem mapLeaves_leaf (f : α → β) (a : α) : (leaf a).mapLeaves f = leaf (f a) := rfl

@[simp] theorem mapLeaves_all (f : α → β) (items : List (Condition α)) :
    (all items).mapLeaves f = all (items.map (mapLeaves f)) := by
  simp only [mapLeaves, fold, foldList_eq_map]

@[simp] theorem mapLeaves_any (f : α → β) (items : List (Condition α)) :
    (any items).mapLeaves f = any (items.map (mapLeaves f)) := by
  simp only [mapLeaves, fold, foldList_eq_map]

@[simp] theorem mapLeaves_not (f : α → β) (c : Condition α) :
    (not c).mapLeaves f = not (c.mapLeaves f) := rfl

/-! ## Truth -/

/-- Whether the condition holds when exactly the leaves with `holds` do. -/
def eval (holds : α → Bool) : Condition α → Bool :=
  fold holds (fun values => values.all id) (fun values => values.any id) (fun value => !value)

@[simp] theorem eval_leaf (holds : α → Bool) (a : α) : (leaf a).eval holds = holds a := rfl

@[simp] theorem eval_all (holds : α → Bool) (items : List (Condition α)) :
    (all items).eval holds = items.all (eval holds) := by
  simp only [eval, fold, foldList_eq_map, List.all_map]
  rfl

@[simp] theorem eval_any (holds : α → Bool) (items : List (Condition α)) :
    (any items).eval holds = items.any (eval holds) := by
  simp only [eval, fold, foldList_eq_map, List.any_map]
  rfl

@[simp] theorem eval_not (holds : α → Bool) (c : Condition α) :
    (not c).eval holds = !c.eval holds := rfl

/-! ## Effects

The same traversals for functions with effects. Leaves are visited from left to
right. -/

variable {m : Type → Type} [Monad m]

/-- Evaluates a condition by asking for its leaves. Items after the one that
decides a node are not asked about. -/
def evalM (ask : α → m Bool) : Condition α → m Bool :=
  fold ask (fun values => values.allM id) (fun values => values.anyM id)
    (fun value => do return !(← value))

/-- Replaces every leaf and keeps the shape. -/
def mapLeavesM (f : α → m β) : Condition α → m (Condition β) :=
  fold (fun a => do return leaf (← f a)) (fun items => do return all (← items.mapM id))
    (fun items => do return any (← items.mapM id)) (fun item => do return not (← item))

/-- Replaces every leaf by a condition. -/
def expandM (f : α → m (Condition β)) : Condition α → m (Condition β) :=
  fold f (fun items => do return all (← items.mapM id))
    (fun items => do return any (← items.mapM id)) (fun item => do return not (← item))

@[simp] theorem expandM_leaf (f : α → m (Condition β)) (a : α) :
    (leaf a).expandM f = f a := rfl

@[simp] theorem evalM_leaf (ask : α → m Bool) (a : α) : (leaf a).evalM ask = ask a := rfl

theorem allM_map_id (f : α → m Bool) (as : List α) : (as.map f).allM id = as.allM f := by
  induction as with
  | nil => rfl
  | cons a as ih => simp only [List.map_cons, List.allM, ih, id]

theorem anyM_map_id (f : α → m Bool) (as : List α) : (as.map f).anyM id = as.anyM f := by
  induction as with
  | nil => rfl
  | cons a as ih => simp only [List.map_cons, List.anyM, ih, id]

@[simp] theorem evalM_all (ask : α → m Bool) (items : List (Condition α)) :
    (all items).evalM ask = items.allM (evalM ask) := by
  simp only [evalM, fold, foldList_eq_map, allM_map_id]

@[simp] theorem evalM_any (ask : α → m Bool) (items : List (Condition α)) :
    (any items).evalM ask = items.anyM (evalM ask) := by
  simp only [evalM, fold, foldList_eq_map, anyM_map_id]

section Lawful

variable [LawfulMonad m]

@[simp] theorem evalM_not (ask : α → m Bool) (c : Condition α) :
    (not c).evalM ask = (fun value => !value) <$> c.evalM ask := by
  simp [evalM, fold]

@[simp] theorem mapLeavesM_leaf (f : α → m β) (a : α) :
    (leaf a).mapLeavesM f = leaf <$> f a := by
  simp [mapLeavesM, fold]

@[simp] theorem mapLeavesM_all (f : α → m β) (items : List (Condition α)) :
    (all items).mapLeavesM f = all <$> items.mapM (mapLeavesM f) := by
  simp [mapLeavesM, fold, foldList_eq_map, List.mapM_map]

@[simp] theorem mapLeavesM_any (f : α → m β) (items : List (Condition α)) :
    (any items).mapLeavesM f = any <$> items.mapM (mapLeavesM f) := by
  simp [mapLeavesM, fold, foldList_eq_map, List.mapM_map]

@[simp] theorem mapLeavesM_not (f : α → m β) (c : Condition α) :
    (not c).mapLeavesM f = not <$> c.mapLeavesM f := by
  simp [mapLeavesM, fold]

@[simp] theorem expandM_all (f : α → m (Condition β)) (items : List (Condition α)) :
    (all items).expandM f = all <$> items.mapM (expandM f) := by
  simp [expandM, fold, foldList_eq_map, List.mapM_map]

@[simp] theorem expandM_any (f : α → m (Condition β)) (items : List (Condition α)) :
    (any items).expandM f = any <$> items.mapM (expandM f) := by
  simp [expandM, fold, foldList_eq_map, List.mapM_map]

@[simp] theorem expandM_not (f : α → m (Condition β)) (c : Condition α) :
    (not c).expandM f = not <$> c.expandM f := by
  simp [expandM, fold]

end Lawful

/-! ## Shape and equality -/

mutual

/-- Whether two conditions differ at most in their leaves. -/
def sameShape : Condition α → Condition β → Bool
  | leaf _, leaf _ => true
  | all items, all others => sameShapes items others
  | any items, any others => sameShapes items others
  | not item, not other => sameShape item other
  | _, _ => false

/-- Whether two lists are equally long and their conditions pairwise differ at
most in their leaves. -/
def sameShapes : List (Condition α) → List (Condition β) → Bool
  | [], [] => true
  | item :: items, other :: others => sameShape item other && sameShapes items others
  | _, _ => false

end

mutual

/-- Decides whether two conditions are the same. -/
def decEq [DecidableEq α] : (c d : Condition α) → Decidable (c = d)
  | leaf a, leaf b =>
    if h : a = b then isTrue (h ▸ rfl) else isFalse fun e => h (leaf.inj e)
  | all items, all others =>
    match decEqList items others with
    | isTrue h => isTrue (h ▸ rfl)
    | isFalse h => isFalse fun e => h (all.inj e)
  | any items, any others =>
    match decEqList items others with
    | isTrue h => isTrue (h ▸ rfl)
    | isFalse h => isFalse fun e => h (any.inj e)
  | not item, not other =>
    match decEq item other with
    | isTrue h => isTrue (h ▸ rfl)
    | isFalse h => isFalse fun e => h (not.inj e)
  | leaf _, all _ | leaf _, any _ | leaf _, not _
  | all _, leaf _ | all _, any _ | all _, not _
  | any _, leaf _ | any _, all _ | any _, not _
  | not _, leaf _ | not _, all _ | not _, any _ => isFalse nofun

/-- Decides whether two lists of conditions are the same. -/
def decEqList [DecidableEq α] : (cs ds : List (Condition α)) → Decidable (cs = ds)
  | [], [] => isTrue rfl
  | [], _ :: _ | _ :: _, [] => isFalse nofun
  | c :: cs, d :: ds =>
    match decEq c d, decEqList cs ds with
    | isTrue h, isTrue hs => isTrue (h ▸ hs ▸ rfl)
    | isFalse h, _ => isFalse fun e => h (List.cons.inj e).1
    | _, isFalse hs => isFalse fun e => hs (List.cons.inj e).2

end

instance [DecidableEq α] : DecidableEq (Condition α) := decEq

end Condition

end Cascade
