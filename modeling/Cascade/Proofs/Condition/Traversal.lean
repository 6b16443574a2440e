import Cascade.Proofs.Conditions

/-!
# The calls of a traversal

The leaves of a condition are replaced one after the other by a function that can
fail. Which calls are made can be seen with a function that takes a note of each:
`noting f` does so and is otherwise `f`.

There are three groups.

* Calls along a list. They go up to the first that fails, and that one is the last.
* Traversals. Whatever the effects of a function are, the traversal of a condition
  has those of calling it on the leaves in order (`leaves_mapLeavesM`), and the
  notes have no influence on the result (`value_mapLeavesM`).
* Results. If no call fails, every leaf is replaced by what its call returned
  (`exists_mapLeavesM_eq_ok`).
-/

namespace Cascade

namespace Condition

open Logged (value_run_bind log_run_bind log_run_bind_of_error log_run_map)

variable {α β ω ε : Type}

/-! ## Calls along a list -/

/-- Calls a function that can fail, and takes a note of what it is called on. -/
def noting (f : α → Except ε β) (a : α) : ExceptT ε (Logged α) β :=
  ExceptT.mk (Logged.ask f a)

theorem value_noting (f : α → Except ε β) (a : α) : (noting f a).run.value = f a := rfl

theorem log_noting (f : α → Except ε β) (a : α) : (noting f a).run.log = [a] := rfl

theorem value_mapM (f : α → ExceptT ε (Logged ω) β) (as : List α) :
    (as.mapM f).run.value = as.mapM fun a => (f a).run.value := by
  induction as with
  | nil => rfl
  | cons a as ih =>
    rw [List.mapM_cons, List.mapM_cons, value_run_bind]
    congr 1
    funext b
    rw [value_run_bind, ih]
    rfl

section Calls

variable {f : α → Except ε β}

/-- If no call fails, all of them are made. -/
theorem log_mapM_noting {as : List α} (h : ∀ a ∈ as, ∃ b, f a = .ok b) :
    (as.mapM (noting f)).run.log = as := by
  induction as with
  | nil => rfl
  | cons a as ih =>
    rw [List.forall_mem_cons] at h
    obtain ⟨⟨b, hb⟩, hothers⟩ := h
    rw [List.mapM_cons, log_run_bind ((value_noting f a).trans hb), bind_pure_comp, log_run_map,
      ih hothers, log_noting, List.singleton_append]

/-- The first call that fails is the last that is made. -/
theorem log_mapM_noting_of_error {before after : List α} {a : α} {error : ε}
    (hbefore : ∀ b ∈ before, ∃ d, f b = .ok d) (ha : f a = .error error) :
    ((before ++ a :: after).mapM (noting f)).run.log = before ++ [a] := by
  have hhere : ((a :: after).mapM (noting f)).run.log = [a] := by
    rw [List.mapM_cons, log_run_bind_of_error ((value_noting f a).trans ha), log_noting]
  obtain ⟨ds, hds⟩ := (exists_eq_ok_iff_of_effect (effect_mapM f before)).2 hbefore
  have hvalue : (before.mapM (noting f)).run.value = .ok ds := by
    simp only [value_mapM, value_noting, hds]
  rw [List.mapM_append, log_run_bind hvalue, bind_pure_comp, log_run_map, hhere,
    log_mapM_noting hbefore]

end Calls

/-! ## Traversals -/

/-- A traversal has the effects of calling the function on the leaves from left to
right, and puts the results in their places. -/
theorem leaves_mapLeavesM {m : Type → Type} [Monad m] [LawfulMonad m] (f : α → m β)
    (c : Condition α) : leaves <$> c.mapLeavesM f = c.leaves.mapM f := by
  induction c using consInduction with
  | leaf a => simp
  | all_nil => simp
  | all_cons c cs ih ihs =>
    rw [mapLeavesM_all] at ihs
    rw [leaves_all_cons, List.mapM_append, ← ih, ← ihs, mapLeavesM_all, List.mapM_cons]
    simp [List.flatMap_cons]
  | any_nil => simp
  | any_cons c cs ih ihs =>
    rw [mapLeavesM_any] at ihs
    rw [leaves_any_cons, List.mapM_append, ← ih, ← ihs, mapLeavesM_any, List.mapM_cons]
    simp [List.flatMap_cons]
  | not c ih => simp [ih]

/-- What is noted on the way has no influence on the result. -/
theorem value_mapLeavesM (f : α → ExceptT ε (Logged ω) β) (c : Condition α) :
    (c.mapLeavesM f).run.value = c.mapLeavesM fun a => (f a).run.value := by
  have hnode : ∀ (node : List (Condition β) → Condition β)
      (items : List (ExceptT ε (Logged ω) (Condition β))),
      (do return node (← items.mapM id) : ExceptT ε (Logged ω) (Condition β)).run.value =
        do return node (← (items.map fun item => item.run.value).mapM id) := by
    intro node items
    rw [value_run_bind, value_mapM, List.mapM_map]
    rfl
  apply map_fold (φ := fun x : ExceptT ε (Logged ω) (Condition β) => x.run.value) _
    (hnode all) (hnode any)
  · intro item
    rw [value_run_bind]
    rfl
  · intro a
    rw [value_run_bind]
    rfl

theorem log_mapLeavesM (f : α → ExceptT ε (Logged ω) β) (c : Condition α) :
    (c.mapLeavesM f).run.log = (c.leaves.mapM f).run.log := by
  rw [← leaves_mapLeavesM, log_run_map]

/-! ## Results -/

/-- If the function fails on no leaf, each leaf is replaced by its result. -/
theorem exists_mapLeavesM_eq_ok {f : α → Except ε β} {c : Condition α}
    (h : ∀ a ∈ c.leaves, ∃ b, f a = .ok b) :
    ∃ d, c.mapLeavesM f = .ok d ∧ d.mapLeaves .ok = c.mapLeaves f := by
  induction c using Condition.induction with
  | leaf a =>
    obtain ⟨b, hb⟩ := h a (by simp)
    refine ⟨leaf b, ?_, ?_⟩
    · rw [mapLeavesM_leaf, hb]
      rfl
    · rw [mapLeaves_leaf, mapLeaves_leaf, hb]
  | all items ih =>
    rw [leaves_all, List.forall_mem_flatMap] at h
    obtain ⟨ds, hds, hmap⟩ := exists_mapM_eq_ok fun c hc => ih c hc (h c hc)
    refine ⟨all ds, ?_, ?_⟩
    · rw [mapLeavesM_all, hds]
      rfl
    · rw [mapLeaves_all, mapLeaves_all, hmap]
  | any items ih =>
    rw [leaves_any, List.forall_mem_flatMap] at h
    obtain ⟨ds, hds, hmap⟩ := exists_mapM_eq_ok fun c hc => ih c hc (h c hc)
    refine ⟨any ds, ?_, ?_⟩
    · rw [mapLeavesM_any, hds]
      rfl
    · rw [mapLeaves_any, mapLeaves_any, hmap]
  | not c ih =>
    obtain ⟨d, hd, hmap⟩ := ih h
    refine ⟨not d, ?_, ?_⟩
    · rw [mapLeavesM_not, hd]
      rfl
    · rw [mapLeaves_not, mapLeaves_not, hmap]

/-- A traversal calls its function on the leaves from left to right, up to the first
leaf on which it fails, and then fails as that call did. If there is none, it calls
the function on all leaves and replaces each of them by the result. An expansion by
the results as leaves makes the same calls and comes to the same, also if the
function has effects of another kind. So the expansion over hooks, which has nothing
but leaves to put in the places of leaves, is a case of the general one. -/
theorem mapLeavesM_visits (c : Condition α) (f : α → Except ε β) :
    let visits := (c.mapLeavesM (noting f)).run
    (∀ before a after error, c.leaves = before ++ a :: after →
      (∀ b ∈ before, ∃ d, f b = .ok d) → f a = .error error →
      visits.log = before ++ [a] ∧ visits.value = .error error) ∧
    ((∀ a ∈ c.leaves, ∃ b, f a = .ok b) →
      visits.log = c.leaves ∧
        ∃ d, visits.value = .ok d ∧ d.mapLeaves .ok = c.mapLeaves f) ∧
    visits.value = c.mapLeavesM f ∧
    (c.expandM fun a => leaf <$> noting f a).run = visits ∧
    (∀ (m : Type → Type) [Monad m] [LawfulMonad m] (g : α → m β),
      leaves <$> c.mapLeavesM g = c.leaves.mapM g ∧
        c.expandM (fun a => leaf <$> g a) = c.mapLeavesM g) ∧
    ∀ (hooks : Table HookId) (name : String) (tree : Condition String),
      Conditions.expandHooks hooks name tree = tree.expandM fun hook =>
        match hooks.get? hook with
        | some id => .ok (leaf id)
        | none => .error (.unknownHook name hook) := by
  intro visits
  have hvalue : visits.value = c.mapLeavesM f := value_mapLeavesM (noting f) c
  have hlog : visits.log = (c.leaves.mapM (noting f)).run.log := log_mapLeavesM (noting f) c
  refine ⟨?_, ?_, hvalue, ?_, ?_, ?_⟩
  · intro before a after error hleaves hbefore ha
    constructor
    · rw [hlog, hleaves, log_mapM_noting_of_error hbefore ha]
    · rw [hvalue, eq_error_iff_of_effect (effect_mapLeavesM f c)]
      exact ⟨before, a, after, hleaves, hbefore, ha⟩
  · intro h
    rw [hlog, hvalue]
    exact ⟨log_mapM_noting h, exists_mapLeavesM_eq_ok h⟩
  · rw [← mapLeavesM_eq_expandM]
  · intro m _ _ g
    exact ⟨leaves_mapLeavesM g c, (mapLeavesM_eq_expandM g c).symm⟩
  · intro hooks name tree
    rw [Conditions.expandHooks, mapLeavesM_eq_expandM]
    congr 1
    funext hook
    cases hooks.get? hook <;> rfl

end Condition

end Cascade
