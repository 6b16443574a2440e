import Cascade.Proofs.Conditions

/-!
# Local conditions over a parent

Local conditions are a table of conditions whose definitions are expanded over a
parent: a name of the parent has the parent's condition, and under any other name
the leaves are names of the parent's conditions. So what is known of all tables
of conditions holds of them (`build_eq_map`).

A lookup prefers the local condition and the list of names prefers the parent.
The two agree because a local condition under a name of the parent is the
parent's.
-/

namespace Cascade.LocalConditions

variable {parent : Conditions} {t : LocalConditions} {name : String} {tree : Condition String}
  {entry : String × Condition String}

/-! ## One definition -/

theorem expandReferences_eq_expandM :
    expandReferences parent name tree =
      tree.expandM (parent.require (.unknownCondition name)) := by
  unfold expandReferences
  congr 1
  funext reference
  unfold Table.require
  cases parent.get? reference <;> rfl

theorem effect_expandReferences :
    Condition.effect (expandReferences parent name tree) = forM tree.leaves fun reference =>
      Condition.effect (parent.require (.unknownCondition name) reference) := by
  rw [expandReferences_eq_expandM, Condition.effect_expandM]

/-- The condition of the parent under a name. -/
def conditionOf (parent : Conditions) (reference : String) : Condition HookId :=
  (parent.get? reference).getD (.all [])

/-- A condition in which every leaf is a name of the parent is expanded leaf by leaf,
and no other is. -/
theorem expandReferences_eq_ok {c : Condition HookId}
    (h : expandReferences parent name tree = .ok c) :
    (∀ reference ∈ tree.leaves, parent.get? reference = some (conditionOf parent reference)) ∧
      c = tree.expand (conditionOf parent) := by
  have hfound : ∀ reference ∈ tree.leaves,
      parent.get? reference = some (conditionOf parent reference) := by
    intro reference hleaf
    have hknown := (exists_eq_ok_iff_of_require effect_expandReferences).1 ⟨c, h⟩ reference hleaf
    obtain ⟨d, hd⟩ := Table.exists_get?_of_mem hknown
    rw [conditionOf, hd, Option.getD_some]
  refine ⟨hfound, ?_⟩
  have hok : expandReferences parent name tree = .ok (tree.expand (conditionOf parent)) := by
    apply Condition.expandM_eq_ok
    intro reference hleaf
    rw [hfound reference hleaf]
  rw [hok] at h
  exact (Except.ok.inj h).symm

/-- Whether a name of the parent holds. -/
def holds (parent : Conditions) (active : HookId → Bool) (reference : String) : Bool :=
  (parent.get? reference).any fun c => c.eval active

/-- A condition that has been expanded is true if the condition as it was written
is. -/
theorem eval_expandReferences {c : Condition HookId}
    (h : expandReferences parent name tree = .ok c) (active : HookId → Bool) :
    c.eval active = tree.eval (holds parent active) := by
  obtain ⟨hfound, rfl⟩ := expandReferences_eq_ok h
  rw [Condition.eval_expand]
  apply Condition.eval_congr
  intro reference hleaf
  rw [holds, hfound reference hleaf, Option.any_some]

theorem expandEntry_of_get? {c : Condition HookId} (h : parent.get? entry.1 = some c) :
    expandEntry parent entry = .ok c := by
  rw [expandEntry, h]

theorem expandEntry_of_not_mem (h : entry.1 ∉ parent.names) :
    expandEntry parent entry = expandReferences parent entry.1 entry.2 := by
  rw [expandEntry, Table.get?_eq_none_iff.2 h]

/-- A definition under a name of the parent is not looked at. -/
theorem exists_expandEntry_iff :
    (∃ c, expandEntry parent entry = .ok c) ↔
      (entry.1 ∉ parent.names → ∀ reference ∈ entry.2.leaves, reference ∈ parent.names) := by
  by_cases hmem : entry.1 ∈ parent.names
  · obtain ⟨c, hc⟩ := Table.exists_get?_of_mem hmem
    simp [expandEntry_of_get? hc, hmem]
  · rw [expandEntry_of_not_mem hmem, exists_eq_ok_iff_of_require effect_expandReferences]
    simp [hmem]

theorem expandEntry_eq_error_iff {error : ConditionError} :
    expandEntry parent entry = .error error ↔
      entry.1 ∉ parent.names ∧ ∃ reference,
        entry.2.leaves.find? (· ∉ parent.names) = some reference ∧
        error = .unknownCondition entry.1 reference := by
  by_cases hmem : entry.1 ∈ parent.names
  · obtain ⟨c, hc⟩ := Table.exists_get?_of_mem hmem
    simp [expandEntry_of_get? hc, hmem]
  · rw [expandEntry_of_not_mem hmem, eq_error_iff_of_require effect_expandReferences]
    simp [hmem]

/-! ## All definitions -/

theorem build_eq_map (parent : Conditions) (definitions : List (String × Condition String)) :
    build parent definitions =
      (Conditions.defineAll (expandEntry parent) definitions).map fun locals =>
        ⟨parent, locals⟩ := by
  unfold build
  show (Conditions.defineAll (expandEntry parent) definitions >>= _) = _
  cases Conditions.defineAll (expandEntry parent) definitions <;> rfl

variable {definitions : List (String × Condition String)}

theorem build_eq_ok_iff :
    build parent definitions = .ok t ↔
      t.parent = parent ∧ Conditions.defineAll (expandEntry parent) definitions = .ok t.locals := by
  rw [build_eq_map]
  cases Conditions.defineAll (expandEntry parent) definitions with
  | error e =>
    show Except.error e = Except.ok t ↔ _
    simp
  | ok locals =>
    obtain ⟨p, l⟩ := t
    show Except.ok (LocalConditions.mk parent locals) = Except.ok (LocalConditions.mk p l) ↔ _
    simp [eq_comm]

theorem build_eq_error_iff {error : ConditionError} :
    build parent definitions = .error error ↔
      Conditions.defineAll (expandEntry parent) definitions = .error error := by
  rw [build_eq_map]
  cases Conditions.defineAll (expandEntry parent) definitions with
  | error e =>
    show Except.error e = Except.error error ↔ _
    simp
  | ok locals =>
    show Except.ok (LocalConditions.mk parent locals) = Except.error error ↔ _
    simp

theorem exists_build_iff :
    (∃ t, build parent definitions = .ok t) ↔
      ∃ locals, Conditions.defineAll (expandEntry parent) definitions = .ok locals := by
  simp only [build_eq_ok_iff]
  constructor
  · intro h
    obtain ⟨t, -, ht⟩ := h
    exact ⟨t.locals, ht⟩
  · intro h
    obtain ⟨locals, hlocals⟩ := h
    exact ⟨⟨parent, locals⟩, rfl, hlocals⟩

/-! ## Names and lookups -/

theorem names_eq (t : LocalConditions) :
    t.names = t.parent.names ++ t.locals.names.filter fun name => name ∉ t.parent.names := by
  rw [names]
  congr 2
  funext name
  rw [Bool.eq_iff_iff, Bool.not_eq_true', ← Bool.not_eq_true, Table.contains_iff,
    decide_eq_true_iff]

/-- The names are exactly those that have a condition. -/
theorem mem_names_iff_isSome : name ∈ t.names ↔ (t.get? name).isSome = true := by
  rw [names_eq, get?, List.mem_append, List.mem_filter, decide_eq_true_iff, Option.isSome_or,
    Bool.or_eq_true, ← Table.mem_names_iff, ← Table.mem_names_iff]
  by_cases hmem : name ∈ t.parent.names <;> simp [hmem]

theorem nodup_names (t : LocalConditions) : t.names.Nodup := by
  rw [names_eq, List.nodup_append]
  refine ⟨t.parent.nodup, t.locals.nodup.sublist List.filter_sublist, ?_⟩
  intro a ha b hb hab
  rw [List.mem_filter, decide_eq_true_iff] at hb
  exact hb.2 (hab ▸ ha)

/-- A local condition under a name of the parent is the parent's. -/
theorem get?_of_mem_parent
    (ht : Conditions.Holds (expandEntry parent) definitions t.locals) (hparent : t.parent = parent)
    (hmem : name ∈ parent.names) : t.get? name = parent.get? name := by
  rw [get?, hparent]
  by_cases hlocal : name ∈ t.locals.names
  · rw [ht.names_eq] at hlocal
    obtain ⟨entry, hentry, rfl⟩ := List.mem_map.1 hlocal
    obtain ⟨c, hc, hget⟩ := ht.get?_eq entry hentry
    obtain ⟨d, hd⟩ := Table.exists_get?_of_mem hmem
    rw [expandEntry_of_get? hd] at hc
    rw [hget, hd, ← Except.ok.inj hc, Option.some_or]
  · rw [Table.get?_eq_none_iff.2 hlocal, Option.none_or]

/-- So it does not matter which of the two is looked up first. -/
theorem get?_visible
    (ht : Conditions.Holds (expandEntry parent) definitions t.locals)
    (hparent : t.parent = parent) : t.visible.get? name = t.get? name := by
  rw [visible, Table.get?_extend]
  by_cases hmem : name ∈ parent.names
  · obtain ⟨c, hc⟩ := Table.exists_get?_of_mem hmem
    rw [get?_of_mem_parent ht hparent hmem, hparent, hc, Option.some_or]
  · rw [get?, hparent, Table.get?_eq_none_iff.2 hmem, Option.none_or, Option.or_none]

/-- Local conditions are built if every name is valid and new among them and every
leaf, of those whose name the parent does not have, is a name of the parent.
Otherwise the first definition that offends is reported. What has been built leaves
the parent's conditions as they are, gives the other names the meaning of their
definitions over the parent, and lists the names that have a condition. -/
theorem build_over_parent (parent : Conditions) (definitions : List (String × Condition String)) :
    let known : String × Condition String → Prop := fun entry =>
      entry.1 ∉ parent.names → ∀ reference ∈ entry.2.leaves, reference ∈ parent.names
    ((∃ t, build parent definitions = .ok t) ↔ Conditions.Definable known definitions) ∧
    (∀ error, build parent definitions = .error error ↔
      ∃ before entry after, definitions = before ++ entry :: after ∧
        Conditions.Definable known before ∧
        Conditions.Offends (before.map Prod.fst) entry.1
          (fun error => entry.1 ∉ parent.names ∧ ∃ reference,
            entry.2.leaves.find? (· ∉ parent.names) = some reference ∧
            error = .unknownCondition entry.1 reference) error) ∧
    ∀ t, build parent definitions = .ok t →
      (∀ name ∈ parent.names, t.get? name = parent.get? name) ∧
      (∀ name tree, (name, tree) ∈ definitions → name ∉ parent.names →
        ∃ c, t.get? name = some c ∧ ∀ active, c.eval active = tree.eval fun reference =>
          (parent.get? reference).any fun c => c.eval active) ∧
      t.names.Nodup ∧
      t.names = parent.names ++ (definitions.map Prod.fst).filter (· ∉ parent.names) ∧
      (∀ name, name ∈ t.names ↔ (t.get? name).isSome = true) ∧
      t.visible.names = t.names ∧ ∀ name, t.visible.get? name = t.get? name := by
  intro known
  have hknown : known = fun entry => ∃ c, expandEntry parent entry = .ok c := by
    funext entry
    exact (propext exists_expandEntry_iff).symm
  rw [hknown]
  refine ⟨exists_build_iff.trans Conditions.exists_defineAll_iff, ?_, ?_⟩
  · intro error
    simp only [← expandEntry_eq_error_iff]
    exact build_eq_error_iff.trans Conditions.defineAll_eq_error_iff
  · intro t h
    obtain ⟨hparent, hlocals⟩ := build_eq_ok_iff.1 h
    have hholds := Conditions.holds_of_defineAll hlocals
    refine ⟨fun _ hmem => get?_of_mem_parent hholds hparent hmem, ?_, t.nodup_names, ?_,
      fun _ => mem_names_iff_isSome, (Table.names_extend _ _).trans t.names_eq.symm, ?_⟩
    · intro name tree hmem hnew
      obtain ⟨c, hc, hget⟩ := hholds.get?_eq _ hmem
      rw [expandEntry_of_not_mem hnew] at hc
      exact ⟨c, by rw [get?, hget, Option.some_or], eval_expandReferences hc⟩
    · rw [names_eq, hparent, hholds.names_eq]
    · intro name
      exact get?_visible hholds hparent

/-- The definition under the parent's name is not looked at, though its leaf means
nothing, and the other is the negation of the parent's condition. -/
theorem build_over_parent_collision :
    let parent : Conditions := .add .empty "dark" (.leaf (Hook.selector "&:hover").id) (by simp)
    ∃ t, build parent [("dark", .leaf "nowhere"), ("light", .not (.leaf "dark"))] = .ok t ∧
      t.names = ["dark", "light"] ∧ t.get? "dark" = parent.get? "dark" := by
  intro parent
  obtain ⟨t, ht⟩ :=
    (build_over_parent parent [("dark", .leaf "nowhere"), ("light", .not (.leaf "dark"))]).1.2
      ⟨by
        rw [List.forall_mem_cons, List.forall_mem_singleton]
        decide, by simp, by simp [parent]⟩
  obtain ⟨hkept, -, -, hnames, -⟩ := (build_over_parent parent _).2.2 t ht
  refine ⟨t, ht, ?_, hkept "dark" (by simp [parent])⟩
  rw [hnames]
  simp [parent]

end Cascade.LocalConditions
