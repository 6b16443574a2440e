import Cascade.Proofs.Condition.Traversal

/-!
# Shape and leaves

The shape of a condition is what is left of it when every leaf is blanked out, and
is itself a condition. Shape and leaves together are all there is to a condition.

There are three groups.

* Shapes as conditions. Two conditions have the same shape exactly if their shapes
  are equal (`sameShape_iff`). So the comparison is an equivalence, and the kinds of
  leaves do not matter to it.
* Putting leaves back. `fill` goes through a shape and takes the next leaf from a
  list wherever one is missing. From the shape and the leaves of a condition it comes
  to that condition, and what follows in the list stays there (`run_fill_shape`). That is
  why the items of a node divide the leaves at the same places whenever their shapes
  are equal, also where an item has no leaves.
* Functions with a memory. What a function returns for a leaf can depend on the calls
  before. The result has the shape of the condition all the same
  (`shape_run_mapLeavesM`), and functions without a memory are a case of it
  (`mapLeavesM_pure`).
-/

namespace Cascade.Condition

variable {α β σ : Type}

/-! ## Shapes as conditions -/

/-- A condition with its leaves blanked out. -/
def shape (c : Condition α) : Condition Unit := c.mapLeaves fun _ => ()

@[simp] theorem shape_leaf (a : α) : (leaf a).shape = leaf () := rfl

@[simp] theorem shape_all (items : List (Condition α)) :
    (all items).shape = all (items.map shape) :=
  mapLeaves_all _ items

@[simp] theorem shape_any (items : List (Condition α)) :
    (any items).shape = any (items.map shape) :=
  mapLeaves_any _ items

@[simp] theorem shape_not (c : Condition α) : (not c).shape = not c.shape := rfl

theorem sameShapes_iff {items : List (Condition α)} {others : List (Condition β)}
    (h : ∀ c ∈ items, ∀ d : Condition β, c.sameShape d = true ↔ c.shape = d.shape) :
    sameShapes items others = true ↔ items.map shape = others.map shape := by
  induction items generalizing others with
  | nil => cases others <;> simp [sameShapes]
  | cons c items ih =>
    rw [List.forall_mem_cons] at h
    cases others with
    | nil => simp [sameShapes]
    | cons d others =>
      rw [sameShapes, Bool.and_eq_true, h.1, ih h.2, List.map_cons, List.map_cons,
        List.cons.injEq]

/-- The comparison of two shapes is their equality. -/
theorem sameShape_iff {c : Condition α} {d : Condition β} :
    c.sameShape d = true ↔ c.shape = d.shape := by
  induction c using Condition.induction generalizing d with
  | leaf a => cases d <;> simp [sameShape]
  | all items ih =>
    cases d with
    | all others =>
      rw [sameShape, sameShapes_iff fun c hc d => ih c hc, shape_all, shape_all, all.injEq]
    | leaf | any | not => simp [sameShape]
  | any items ih =>
    cases d with
    | any others =>
      rw [sameShape, sameShapes_iff fun c hc d => ih c hc, shape_any, shape_any, any.injEq]
    | leaf | all | not => simp [sameShape]
  | not c ih =>
    cases d with
    | not d => rw [sameShape, ih, shape_not, shape_not, not.injEq]
    | leaf | all | any => simp [sameShape]

theorem sameShape_comm (c : Condition α) (d : Condition β) : c.sameShape d = d.sameShape c := by
  rw [Bool.eq_iff_iff, sameShape_iff, sameShape_iff, eq_comm]

/-! ## Putting leaves back -/

/-- Takes the next of some leaves, and fails if there is none. -/
def next : StateT (List α) Option α
  | [] => none
  | a :: as => some (a, as)

/-- Puts the next of some leaves in the place of each leaf. -/
def fill (c : Condition Unit) : StateT (List α) Option (Condition α) :=
  c.mapLeavesM fun _ => next

theorem run_mapM_fill {items : List (Condition α)}
    (h : ∀ c ∈ items, ∀ rest, c.shape.fill.run (c.leaves ++ rest) = some (c, rest))
    (rest : List α) :
    ((items.map shape).mapM fill).run (items.flatMap leaves ++ rest) = some (items, rest) := by
  induction items with
  | nil => rfl
  | cons c items ih =>
    rw [List.forall_mem_cons] at h
    rw [List.map_cons, List.mapM_cons, StateT.run_bind, List.flatMap_cons, List.append_assoc, h.1]
    -- the first item has taken its own leaves and none of those of the others
    show ((items.map shape).mapM fill >>= fun others => pure (c :: others)).run _ = _
    rw [StateT.run_bind, ih h.2]
    rfl

/-- A condition can be put together from its shape and its leaves. What follows the
leaves is not used. -/
theorem run_fill_shape (c : Condition α) (rest : List α) :
    c.shape.fill.run (c.leaves ++ rest) = some (c, rest) := by
  induction c using Condition.induction generalizing rest with
  | leaf a => rfl
  | all items ih =>
    rw [shape_all, leaves_all, fill, mapLeavesM_all, StateT.run_map]
    exact congrArg _ (run_mapM_fill ih rest)
  | any items ih =>
    rw [shape_any, leaves_any, fill, mapLeavesM_any, StateT.run_map]
    exact congrArg _ (run_mapM_fill ih rest)
  | not c ih =>
    rw [shape_not, leaves_not, fill, mapLeavesM_not, StateT.run_map]
    exact congrArg _ (ih rest)

theorem eq_of_shape_eq {c d : Condition α} (hshape : c.shape = d.shape)
    (hleaves : c.leaves = d.leaves) : c = d := by
  -- both are what the one shape comes to with the one list of leaves
  have hc : c.shape.fill.run c.leaves = some (c, []) := by
    simpa using run_fill_shape c []
  have hd : c.shape.fill.run c.leaves = some (d, []) := by
    simpa [hshape, hleaves] using run_fill_shape d []
  rw [hc] at hd
  simpa using hd

/-! ## Functions with a memory -/

/-- A function without effects needs no traversal with effects. -/
theorem mapLeavesM_pure {m : Type → Type} [Monad m] [LawfulMonad m] (f : α → β)
    (c : Condition α) : (c.mapLeavesM fun a => (pure (f a) : m β)) = pure (c.mapLeaves f) := by
  have hnode : ∀ (node : List (Condition β) → Condition β) (items : List (Condition β)),
      (pure (node items) : m (Condition β)) = do return node (← (items.map pure).mapM id) := by
    intro node items
    have hitems : (items.map pure).mapM id = (pure items : m (List (Condition β))) := by
      rw [List.mapM_map]
      simpa using List.mapM_pure (m := m) (l := items) (f := id)
    rw [hitems, pure_bind]
  symm
  apply map_fold (φ := fun d : Condition β => (pure d : m (Condition β))) _ (hnode all) (hnode any)
  · intro item
    rw [pure_bind]
  · intro a
    rw [pure_bind]

theorem map_shape_run_mapM {f : α → StateM σ β} {items : List (Condition α)}
    (h : ∀ c ∈ items, ∀ memory, ((c.mapLeavesM f).run memory).1.shape = c.shape) (memory : σ) :
    ((items.mapM (mapLeavesM f)).run memory).1.map shape = items.map shape := by
  induction items generalizing memory with
  | nil => rfl
  | cons c items ih =>
    rw [List.forall_mem_cons] at h
    rw [List.mapM_cons, List.map_cons, ← h.1 memory, ← ih h.2 ((c.mapLeavesM f).run memory).2]
    rfl

/-- The shape stays the same, whatever the function returns from call to call. -/
theorem shape_run_mapLeavesM (f : α → StateM σ β) (c : Condition α) (memory : σ) :
    ((c.mapLeavesM f).run memory).1.shape = c.shape := by
  induction c using Condition.induction generalizing memory with
  | leaf a => rfl
  | all items ih =>
    rw [mapLeavesM_all, shape_all, ← map_shape_run_mapM ih memory, ← shape_all]
    rfl
  | any items ih =>
    rw [mapLeavesM_any, shape_any, ← map_shape_run_mapM ih memory, ← shape_any]
    rfl
  | not c ih =>
    rw [mapLeavesM_not, shape_not, ← ih memory]
    rfl

/-- Shape and leaves determine a condition. To have the same shape is an equivalence,
also between conditions with leaves of different kinds. If the leaves are replaced, the
shape stays the same, and the leaves of the result are what the function returns for
the leaves in order. That holds also of a function with a memory, which is called on
the leaves from left to right; without one the two ways of replacing are the same. -/
theorem eq_iff_sameShape_leaves (α β γ σ : Type) :
    (∀ c d : Condition α, c = d ↔ c.sameShape d = true ∧ c.leaves = d.leaves) ∧
    (∀ c : Condition α, c.sameShape c = true) ∧
    (∀ (c : Condition α) (d : Condition β), c.sameShape d = d.sameShape c) ∧
    (∀ (c : Condition α) (d : Condition β) (e : Condition γ),
      c.sameShape d = true → d.sameShape e = true → c.sameShape e = true) ∧
    (∀ (f : α → β) (c : Condition α),
      c.sameShape (c.mapLeaves f) = true ∧ (c.mapLeaves f).leaves = c.leaves.map f ∧
        (c.mapLeavesM fun a => (pure (f a) : StateM σ β)) = pure (c.mapLeaves f)) ∧
    ∀ (f : α → StateM σ β) (c : Condition α) (memory : σ), ∃ d after,
      (c.mapLeavesM f).run memory = (d, after) ∧ c.sameShape d = true ∧
        (c.leaves.mapM f).run memory = (d.leaves, after) := by
  have hrefl : ∀ c : Condition α, c.sameShape c = true := by
    intro c
    rw [sameShape_iff]
  refine ⟨?_, hrefl, sameShape_comm, ?_, ?_, ?_⟩
  · intro c d
    constructor
    · rintro rfl
      exact ⟨hrefl c, rfl⟩
    · rintro ⟨hshape, hleaves⟩
      exact eq_of_shape_eq (sameShape_iff.1 hshape) hleaves
  · intro c d e hcd hde
    rw [sameShape_iff] at hcd hde ⊢
    exact hcd.trans hde
  · intro f c
    exact ⟨sameShape_mapLeaves f c, leaves_mapLeaves f c, mapLeavesM_pure f c⟩
  · intro f c memory
    refine ⟨((c.mapLeavesM f).run memory).1, ((c.mapLeavesM f).run memory).2, rfl, ?_, ?_⟩
    · rw [sameShape_iff, shape_run_mapLeavesM]
    · rw [← leaves_mapLeavesM]
      rfl

/-- An empty node has no leaves, and its place still tells two conditions apart. -/
theorem eq_iff_sameShape_leaves_empty :
    let c : Condition String := all [leaf "a", all [], not (any [leaf "b"])]
    let moved : Condition String := all [all [], leaf "a", not (any [leaf "b"])]
    let numbered : Condition Nat := all [leaf 1, all [], not (any [leaf 2])]
    let blank : Condition Unit := all [leaf (), all [], not (any [leaf ()])]
    (c.leaves = moved.leaves ∧ c ≠ moved ∧ c.sameShape moved = false) ∧
      c.sameShape numbered = true ∧ numbered.sameShape blank = true ∧
      c.sameShape blank = true := by
  intro c moved numbered blank
  obtain ⟨heq, -, -, htrans, -⟩ := eq_iff_sameShape_leaves String Nat Unit Nat
  have hmoved : c ≠ moved := by decide
  refine ⟨⟨rfl, hmoved, ?_⟩, rfl, rfl, htrans c numbered blank rfl rfl⟩
  rw [← Bool.not_eq_true]
  intro hshape
  exact hmoved ((heq c moved).2 ⟨hshape, rfl⟩)

end Cascade.Condition
