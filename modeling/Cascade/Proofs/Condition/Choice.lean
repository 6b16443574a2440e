import Cascade.Condition.Compile
import Cascade.Proofs.Condition.Leaves

/-!
# Choosing by a condition

A condition with a way to choose at each leaf is a way to choose between two
alternatives. `Condition.choose` is that, for alternatives of any kind:
`Condition.compile` is the case where they are texts.

Three things are proved of every kind of alternatives.

* `choose_closed`: what the choice at the leaves keeps, the choice of the whole
  condition keeps.
* `map_choose`: a function that carries the choice at the leaves from one kind
  to another carries the choice of the whole condition.
* `choose_selected`: if the choice at a leaf looks only at the alternative that
  the leaf's truth value selects, then so does the choice of the whole condition.
-/

namespace Cascade.Condition

variable {α X Y : Type}

/-- Chooses between two alternatives, given how each leaf does. The items of a
node all have the same second alternative, or for `any` the same first one; in
place of the other they have what the items after them choose. -/
def choose (atLeaf : α → X → X → X) : Condition α → X → X → X :=
  fold atLeaf
    (fun items x y => items.foldr (fun item rest => item rest y) x)
    (fun items x y => items.foldr (fun item rest => item x rest) y)
    (fun item x y => item y x)

theorem compile_eq_choose (c : Condition HookId) : c.compile = c.choose compileHook := rfl

section Equations

variable (atLeaf : α → X → X → X) (c : Condition α) (cs : List (Condition α)) (x y : X)

@[simp] theorem choose_leaf (a : α) : (leaf a).choose atLeaf x y = atLeaf a x y := rfl

@[simp] theorem choose_all_nil : (all []).choose atLeaf x y = x := rfl

@[simp] theorem choose_all_cons :
    (all (c :: cs)).choose atLeaf x y = c.choose atLeaf ((all cs).choose atLeaf x y) y := rfl

@[simp] theorem choose_any_nil : (any []).choose atLeaf x y = y := rfl

@[simp] theorem choose_any_cons :
    (any (c :: cs)).choose atLeaf x y = c.choose atLeaf x ((any cs).choose atLeaf x y) := rfl

@[simp] theorem choose_not : (not c).choose atLeaf x y = c.choose atLeaf y x := rfl

end Equations

/-- What the choice at every leaf keeps, the choice of the condition keeps. -/
theorem choose_closed {Q : X → Prop} {atLeaf : α → X → X → X} {c : Condition α}
    (hleaf : ∀ a ∈ c.leaves, ∀ x y, Q x → Q y → Q (atLeaf a x y)) {x y : X}
    (hx : Q x) (hy : Q y) : Q (c.choose atLeaf x y) := by
  induction c using consInduction generalizing x y with
  | leaf a => exact hleaf a (by simp) x y hx hy
  | all_nil => exact hx
  | all_cons c cs ih ihs =>
    rw [leaves_all_cons, List.forall_mem_append] at hleaf
    exact ih hleaf.1 (ihs hleaf.2 hx hy) hy
  | any_nil => exact hy
  | any_cons c cs ih ihs =>
    rw [leaves_any_cons, List.forall_mem_append] at hleaf
    exact ih hleaf.1 hx (ihs hleaf.2 hx hy)
  | not c ih => exact ih hleaf hy hx

/-- A function that carries the choices at the leaves from one kind of
alternatives to another, as far as they have a property that these choices keep,
carries the choice of the condition. -/
theorem map_choose {Q : X → Prop} {atLeaf : α → X → X → X} {atLeaf' : α → Y → Y → Y}
    {φ : X → Y} {c : Condition α}
    (hclosed : ∀ a ∈ c.leaves, ∀ x y, Q x → Q y → Q (atLeaf a x y))
    (hleaf : ∀ a ∈ c.leaves, ∀ x y, Q x → Q y → φ (atLeaf a x y) = atLeaf' a (φ x) (φ y))
    {x y : X} (hx : Q x) (hy : Q y) :
    φ (c.choose atLeaf x y) = c.choose atLeaf' (φ x) (φ y) := by
  induction c using consInduction generalizing x y with
  | leaf a => exact hleaf a (by simp) x y hx hy
  | all_nil => rfl
  | all_cons c cs ih ihs =>
    rw [leaves_all_cons, List.forall_mem_append] at hclosed hleaf
    rw [choose_all_cons, choose_all_cons,
      ih hclosed.1 hleaf.1 (choose_closed hclosed.2 hx hy) hy, ihs hclosed.2 hleaf.2 hx hy]
  | any_nil => rfl
  | any_cons c cs ih ihs =>
    rw [leaves_any_cons, List.forall_mem_append] at hclosed hleaf
    rw [choose_any_cons, choose_any_cons,
      ih hclosed.1 hleaf.1 hx (choose_closed hclosed.2 hx hy), ihs hclosed.2 hleaf.2 hx hy]
  | not c ih => exact ih hclosed hleaf hy hx

/-- Where every leaf chooses by its truth value, so does the condition. -/
theorem choose_ite (holds : α → Bool) (c : Condition α) (x y : X) :
    c.choose (fun a x y => if holds a then x else y) x y = if c.eval holds then x else y := by
  induction c using consInduction generalizing x y with
  | leaf a => rfl
  | all_nil => rfl
  | all_cons c cs ih ihs =>
    rw [choose_all_cons, ih, ihs, eval_all_cons]
    cases c.eval holds <;> rfl
  | any_nil => rfl
  | any_cons c cs ih ihs =>
    rw [choose_any_cons, ih, ihs, eval_any_cons]
    cases c.eval holds <;> rfl
  | not c ih =>
    rw [choose_not, ih, eval_not]
    cases c.eval holds <;> rfl

/-- If a leaf that is true does not look at its second alternative and one that
is false not at its first, the choice of the condition depends only on the
alternative that its truth value selects. -/
theorem choose_selected {holds : α → Bool} {atLeaf : α → X → X → X}
    (hleaf : ∀ a x y x' y', (if holds a then x = x' else y = y') →
      atLeaf a x y = atLeaf a x' y')
    (c : Condition α) {x y x' y' : X} (h : if c.eval holds then x = x' else y = y') :
    c.choose atLeaf x y = c.choose atLeaf x' y' := by
  induction c using consInduction generalizing x y x' y' with
  | leaf a => exact hleaf a x y x' y' h
  | all_nil => exact h
  | all_cons c cs ih ihs =>
    rw [eval_all_cons] at h
    rw [choose_all_cons, choose_all_cons]
    apply ih
    cases hc : c.eval holds with
    | true =>
      rw [hc, Bool.true_and] at h
      exact ihs h
    | false =>
      rw [hc] at h
      exact h
  | any_nil => exact h
  | any_cons c cs ih ihs =>
    rw [eval_any_cons] at h
    rw [choose_any_cons, choose_any_cons]
    apply ih
    cases hc : c.eval holds with
    | true =>
      rw [hc] at h
      exact h
    | false =>
      rw [hc, Bool.false_or] at h
      exact ihs h
  | not c ih =>
    apply ih
    rw [eval_not] at h
    cases hc : c.eval holds <;> simp_all

end Cascade.Condition
