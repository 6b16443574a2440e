import Cascade.Logged
import Cascade.Proofs.Condition.Leaves
import Cascade.Proofs.Table

/-!
# Replacing leaves with effects

The leaves of a condition can be replaced by a function that has effects, of which
failing is one: by conditions with `Condition.expandM`, and by other leaves with
`Condition.mapLeavesM`, which is a case of it.

What an expansion does on its way is to visit the leaves from left to right
(`effect_expandM`), whatever the effects are. So an expansion that can fail does
so at the first leaf at which its function does, and if there is none its result
is that of the expansion without effects. That is a substitution: whatever is asked
of the result is answered by asking it of the conditions in the places of the leaves
(`evalM_expand`, `expandM_expand`).
-/

namespace Cascade.Condition

variable {α β γ ε : Type}

/-! ## Effects on the way -/

section Effects

variable {m : Type → Type} [Monad m]

/-- To evaluate a condition with conditions in the places of its leaves asks, for
each leaf that matters, what the condition in its place asks. -/
theorem evalM_expand (f : α → Condition β) (ask : β → m Bool) (c : Condition α) :
    (c.expand f).evalM ask = c.evalM fun a => (f a).evalM ask :=
  fold_expand f ask _ _ _ c

/-- To expand twice is to expand once, by conditions that have been expanded. -/
theorem expandM_expand (f : α → Condition β) (g : β → m (Condition γ)) (c : Condition α) :
    (c.expand f).expandM g = c.expandM fun a => (f a).expandM g :=
  fold_expand f g _ _ _ c

/-- A computation without its result. -/
def effect (x : m α) : m Unit := (fun _ => ()) <$> x

theorem forM_congr {f g : α → m Unit} {as : List α} (h : ∀ a ∈ as, f a = g a) :
    forM as f = forM as g := by
  induction as with
  | nil => rfl
  | cons a as ih =>
    rw [List.forall_mem_cons] at h
    rw [List.forM_cons, List.forM_cons, h.1, ih h.2]

theorem forM_eq_foldlM (f : α → m Unit) (as : List α) :
    forM as f = as.foldlM (fun _ a => f a) () := by
  induction as with
  | nil => rfl
  | cons a as ih =>
    rw [List.forM_cons, List.foldlM_cons, ih]

variable [LawfulMonad m]

theorem effect_map (g : α → β) (x : m α) : effect (g <$> x) = effect x := by
  simp [effect]

theorem effect_mapM (f : α → m β) (as : List α) :
    effect (as.mapM f) = forM as fun a => effect (f a) := by
  induction as with
  | nil => simp [effect]
  | cons a as ih =>
    rw [List.forM_cons, ← ih, List.mapM_cons]
    simp [effect]

theorem forM_flatMap (f : β → m Unit) (g : α → List β) (as : List α) :
    forM (as.flatMap g) f = forM as fun a => forM (g a) f := by
  induction as with
  | nil => rfl
  | cons a as ih => rw [List.flatMap_cons, List.forM_append, ih, List.forM_cons]

/-- An expansion visits the leaves from left to right. -/
theorem effect_expandM (f : α → m (Condition β)) (c : Condition α) :
    effect (c.expandM f) = forM c.leaves fun a => effect (f a) := by
  induction c using Condition.induction with
  | leaf a => simp
  | all items ih =>
    rw [expandM_all, effect_map, effect_mapM, leaves_all, forM_flatMap]
    exact forM_congr ih
  | any items ih =>
    rw [expandM_any, effect_map, effect_mapM, leaves_any, forM_flatMap]
    exact forM_congr ih
  | not c ih => rw [expandM_not, effect_map, ih, leaves_not]

theorem mapLeavesM_eq_expandM (f : α → m β) (c : Condition α) :
    c.mapLeavesM f = c.expandM fun a => leaf <$> f a := by
  simp [mapLeavesM, expandM]

theorem effect_mapLeavesM (f : α → m β) (c : Condition α) :
    effect (c.mapLeavesM f) = forM c.leaves fun a => effect (f a) := by
  simp only [mapLeavesM_eq_expandM, effect_expandM, effect_map]

end Effects

/-! ## Expansions that can fail -/

theorem effect_eq_ok_iff {x : Except ε α} : effect x = .ok () ↔ ∃ a, x = .ok a := by
  cases x with
  | ok a => exact ⟨fun _ => ⟨a, rfl⟩, fun _ => rfl⟩
  | error e =>
    show Except.error e = Except.ok () ↔ _
    simp

theorem effect_eq_error_iff {x : Except ε α} {error : ε} :
    effect x = .error error ↔ x = .error error := by
  cases x with
  | ok a =>
    show Except.ok () = Except.error error ↔ _
    simp
  | error e =>
    show Except.error e = Except.error error ↔ _
    simp

theorem forM_eq_ok_iff {f : α → Except ε Unit} {as : List α} :
    forM as f = .ok () ↔ ∀ a ∈ as, f a = .ok () := by
  induction as with
  | nil => simp only [List.not_mem_nil, false_implies, implies_true, iff_true]; rfl
  | cons a as ih =>
    rw [List.forM_cons, List.forall_mem_cons, ← ih]
    cases f a with
    | error e =>
      show Except.error e = Except.ok () ↔ _
      simp
    | ok u =>
      show forM as f = .ok () ↔ _
      simp

theorem forM_eq_error_iff {f : α → Except ε Unit} {as : List α} {error : ε} :
    forM as f = .error error ↔
      ∃ before a after, as = before ++ a :: after ∧ (∀ b ∈ before, f b = .ok ()) ∧
        f a = .error error := by
  rw [forM_eq_foldlM, foldlM_eq_error_iff]
  simp only [← forM_eq_ok_iff, forM_eq_foldlM]
  constructor
  · intro h
    obtain ⟨before, a, after, _, hsplit, hbefore, ha⟩ := h
    exact ⟨before, a, after, hsplit, hbefore, ha⟩
  · intro h
    obtain ⟨before, a, after, hsplit, hbefore, ha⟩ := h
    exact ⟨before, a, after, (), hsplit, hbefore, ha⟩

section Visit

variable {x : Except ε γ} {as : List α} {f : α → Except ε β}

/-- A computation that does no more than to visit some elements succeeds if every
visit does. -/
theorem exists_eq_ok_iff_of_effect (h : effect x = forM as fun a => effect (f a)) :
    (∃ c, x = .ok c) ↔ ∀ a ∈ as, ∃ b, f a = .ok b := by
  rw [← effect_eq_ok_iff, h, forM_eq_ok_iff]
  simp only [effect_eq_ok_iff]

/-- It fails as the first visit does that fails. -/
theorem eq_error_iff_of_effect (h : effect x = forM as fun a => effect (f a)) {error : ε} :
    x = .error error ↔
      ∃ before a after, as = before ++ a :: after ∧ (∀ b ∈ before, ∃ d, f b = .ok d) ∧
        f a = .error error := by
  rw [← effect_eq_error_iff, h, forM_eq_error_iff]
  simp only [effect_eq_ok_iff, effect_eq_error_iff]

end Visit

/-- If the function fails on no element, what holds between each element and its
result holds between the elements and the results. -/
theorem exists_mapM_eq_ok {f : α → Except ε β} {g : β → γ} {h : α → γ} {as : List α}
    (hitems : ∀ a ∈ as, ∃ b, f a = .ok b ∧ g b = h a) :
    ∃ bs, as.mapM f = .ok bs ∧ bs.map g = as.map h := by
  induction as with
  | nil => exact ⟨[], rfl, rfl⟩
  | cons a as ih =>
    rw [List.forall_mem_cons] at hitems
    obtain ⟨⟨b, hb, hgb⟩, hothers⟩ := hitems
    obtain ⟨bs, hbs, hgbs⟩ := ih hothers
    refine ⟨b :: bs, ?_, ?_⟩
    · rw [List.mapM_cons, hb, hbs]
      rfl
    · rw [List.map_cons, List.map_cons, hgb, hgbs]

theorem mapM_eq_ok {f : α → Except ε β} {g : α → β} {as : List α}
    (h : ∀ a ∈ as, f a = .ok (g a)) : as.mapM f = .ok (as.map g) := by
  obtain ⟨bs, hbs, hmap⟩ := exists_mapM_eq_ok (g := id) (h := g) fun a ha => ⟨g a, h a ha, rfl⟩
  rw [hbs, ← hmap, List.map_id]

variable {c : Condition α}

/-- If the function fails on no leaf, the result is that of the function. -/
theorem expandM_eq_ok {f : α → Except ε (Condition β)} {g : α → Condition β}
    (h : ∀ a ∈ c.leaves, f a = .ok (g a)) : c.expandM f = .ok (c.expand g) := by
  induction c using Condition.induction with
  | leaf a => exact h a (by simp)
  | all items ih =>
    have hitems : items.mapM (expandM f) = .ok (items.map (expand g)) := by
      apply mapM_eq_ok
      intro c hc
      exact ih c hc fun a ha => h a (by rw [leaves_all]; exact List.mem_flatMap_of_mem hc ha)
    rw [expandM_all, hitems, expand_all]
    rfl
  | any items ih =>
    have hitems : items.mapM (expandM f) = .ok (items.map (expand g)) := by
      apply mapM_eq_ok
      intro c hc
      exact ih c hc fun a ha => h a (by rw [leaves_any]; exact List.mem_flatMap_of_mem hc ha)
    rw [expandM_any, hitems, expand_any]
    rfl
  | not c ih =>
    rw [expandM_not, ih h, expand_not]
    rfl

theorem mapLeavesM_eq_ok {f : α → Except ε β} {g : α → β} (h : ∀ a ∈ c.leaves, f a = .ok (g a)) :
    c.mapLeavesM f = .ok (c.mapLeaves g) := by
  rw [mapLeavesM_eq_expandM, mapLeaves_eq_expand]
  apply expandM_eq_ok
  intro a ha
  rw [h a ha]
  rfl

/-! ## Expanding is substituting -/

/-- An expansion whose function does not fail has a result. A leaf stands in it for
the condition that replaces it: in the truth of the result and in the questions that
evaluation asks, in its leaves, and when the result is expanded again, be it by a
function that can fail. The shape is kept exactly if every leaf becomes a leaf. -/
theorem expandM_substitutes (c : Condition α) (f : α → Condition β) :
    ∃ d, c.expandM (fun a => (Except.ok (f a) : Except ε (Condition β))) = .ok d ∧
      (∀ holds, d.eval holds = c.eval fun a => (f a).eval holds) ∧
      (∀ holds, d.evalM (Logged.ask holds) = c.evalM fun a => (f a).evalM (Logged.ask holds)) ∧
      d.leaves = c.leaves.flatMap (fun a => (f a).leaves) ∧
      (∀ (γ : Type) (g : β → Except ε (Condition γ)),
        d.expandM g = c.expandM fun a => (f a).expandM g) ∧
      (c.sameShape d = true ↔ ∀ a ∈ c.leaves, ∃ b, f a = leaf b) := by
  refine ⟨c.expand f, expandM_eq_ok fun a _ => rfl, ?_, ?_, leaves_expand f c, ?_,
    sameShape_expand_iff f c⟩
  · intro holds
    exact eval_expand f holds c
  · intro holds
    exact evalM_expand f (Logged.ask holds) c
  · intro γ g
    exact expandM_expand f g c

end Cascade.Condition
