import Cascade.Conditions
import Cascade.Proofs.Condition.Expansion
import Cascade.Proofs.Grammar.Lexemes
import Cascade.Proofs.Table

/-!
# What a table of conditions holds

Tables of conditions are built from definitions, one after the other. Those over
hooks and those over a parent table differ only in how the condition of a
definition is expanded, so what can be said of both is said here for any way to
expand. A table that has been built has the names of its definitions in order,
and under each of them the condition of the definition, expanded. Where there is
none, the first definition that cannot be added is to blame.

A condition over hooks is expanded by replacing every name of a hook by the
identifier of that hook.
-/

namespace Cascade

/-! ## Leaves as names -/

section Require

variable {α β ε : Type} {t : Table α} {unknown : String → ε}

/-- The value under a name, or else an error for that name. -/
def Table.require (t : Table α) (unknown : String → ε) (name : String) : Except ε α :=
  match t.get? name with
  | some a => .ok a
  | none => .error (unknown name)

theorem Table.exists_require_iff {name : String} :
    (∃ a, t.require unknown name = .ok a) ↔ name ∈ t.names := by
  rw [mem_names_iff, require]
  cases t.get? name <;> simp

theorem Table.require_eq_error_iff {name : String} {error : ε} :
    t.require unknown name = .error error ↔ name ∉ t.names ∧ error = unknown name := by
  rw [← get?_eq_none_iff, require]
  cases t.get? name <;> simp [eq_comm]

variable {x : Except ε β} {names : List String}

theorem exists_eq_ok_iff_of_require
    (h : Condition.effect x = forM names fun a => Condition.effect (t.require unknown a)) :
    (∃ b, x = .ok b) ↔ ∀ name ∈ names, name ∈ t.names := by
  rw [Condition.exists_eq_ok_iff_of_effect h]
  simp only [Table.exists_require_iff]

/-- To look names up one after the other fails at the first that is not there. -/
theorem eq_error_iff_of_require
    (h : Condition.effect x = forM names fun a => Condition.effect (t.require unknown a))
    {error : ε} :
    x = .error error ↔
      ∃ name, names.find? (· ∉ t.names) = some name ∧ error = unknown name := by
  rw [Condition.eq_error_iff_of_effect h]
  simp only [Table.exists_require_iff, Table.require_eq_error_iff, List.find?_eq_some_iff_append]
  constructor
  · intro hfirst
    obtain ⟨before, name, after, hsplit, hbefore, hname, herror⟩ := hfirst
    exact ⟨name, ⟨by simpa using hname, before, after, hsplit, by simpa using hbefore⟩, herror⟩
  · intro hfirst
    obtain ⟨name, ⟨hname, before, after, hsplit, hbefore⟩, herror⟩ := hfirst
    exact ⟨before, name, after, hsplit, by simpa using hbefore, by simpa using hname, herror⟩

end Require

namespace Conditions

/-! ## One definition -/

/-- A name that a condition can have: a letter, and letters and digits behind it. -/
def ValidName (name : String) : Prop :=
  ∃ c cs, name.toList = c :: cs ∧ c.isAlpha = true ∧ ∀ d ∈ cs, d.isAlphanum = true

theorem validName_iff {name : String} : ValidName name ↔ Grammar.isIdentifier name = true :=
  Grammar.isIdentifier_iff.symm

instance (name : String) : Decidable (ValidName name) := decidable_of_iff _ validName_iff.symm

variable {t next : Conditions} {name : String} {c : Except ConditionError (Condition HookId)}

/-- A definition that succeeds adds its condition under a valid name that was new. -/
theorem define_eq_ok_iff :
    t.define name c = .ok next ↔
      ValidName name ∧ ∃ tree, ∃ hnew : name ∉ t.names, c = .ok tree ∧
        next = t.add name tree hnew := by
  rw [validName_iff]
  unfold define
  split
  · next hvalid =>
    split
    · next htaken =>
      have hold : name ∈ t.names := Table.contains_iff.1 htaken
      simp [hold]
    · next hfree =>
      have hnew : name ∉ t.names := mt Table.contains_iff.2 hfree
      cases c with
      | error e =>
        show Except.error e = Except.ok next ↔ _
        simp
      | ok tree =>
        show Except.ok (t.add name tree hnew) = Except.ok next ↔ _
        simp [hvalid, hnew, eq_comm]
  · next hvalid => simp [hvalid]

/-- A definition is refused for its name before it is for its condition, and as no
identifier before as taken. `refused` says how its condition is refused. -/
def Offends (taken : List String) (name : String) (refused : ConditionError → Prop)
    (error : ConditionError) : Prop :=
  ¬ ValidName name ∧ error = .invalidName name ∨
  ValidName name ∧ name ∈ taken ∧ error = .duplicateName name ∨
  ValidName name ∧ name ∉ taken ∧ refused error

theorem define_eq_error_iff {error : ConditionError} :
    t.define name c = .error error ↔ Offends t.names name (c = .error ·) error := by
  rw [Offends, validName_iff]
  unfold define
  split
  · next hvalid =>
    split
    · next htaken =>
      have hold : name ∈ t.names := Table.contains_iff.1 htaken
      simp [hvalid, hold, eq_comm]
    · next hfree =>
      have hnew : name ∉ t.names := mt Table.contains_iff.2 hfree
      cases c with
      | error e =>
        show Except.error e = Except.error error ↔ _
        simp [hvalid, hnew]
      | ok tree =>
        show Except.ok (t.add name tree hnew) = Except.error error ↔ _
        simp [hvalid, hnew]
  · next hvalid => simp [hvalid, eq_comm]

/-! ## All definitions -/

section DefineAll

variable {expand : String × Condition String → Except ConditionError (Condition HookId)}
  {definitions : List (String × Condition String)}

/-- The table of some definitions, whose conditions are expanded on the way. -/
def defineAll (expand : String × Condition String → Except ConditionError (Condition HookId))
    (definitions : List (String × Condition String)) : Except ConditionError Conditions :=
  definitions.foldlM (fun t entry => t.define entry.1 (expand entry)) .empty

/-- The table has the names of the definitions in order, all of them valid, and
under each the condition of its definition, expanded. -/
structure Holds (expand : String × Condition String → Except ConditionError (Condition HookId))
    (definitions : List (String × Condition String)) (t : Conditions) : Prop where
  names_eq : t.names = definitions.map Prod.fst
  valid : ∀ entry ∈ definitions, ValidName entry.1
  get?_eq : ∀ entry ∈ definitions, ∃ c, expand entry = .ok c ∧ t.get? entry.1 = some c

theorem holds_define {entry : String × Condition String} (ht : Holds expand definitions t)
    (hs : t.define entry.1 (expand entry) = .ok next) :
    Holds expand (definitions ++ [entry]) next := by
  obtain ⟨hvalid, tree, hnew, htree, rfl⟩ := define_eq_ok_iff.1 hs
  constructor
  · rw [Table.names_add, ht.names_eq, List.map_append]
    rfl
  · rw [List.forall_mem_append]
    exact ⟨ht.valid, by simpa using hvalid⟩
  · intro other hother
    rw [List.mem_append, List.mem_singleton] at hother
    rw [Table.get?_add]
    rcases hother with hother | rfl
    · obtain ⟨c, hc, hget⟩ := ht.get?_eq other hother
      have hne : other.1 ≠ entry.1 := by
        intro he
        rw [← he, ht.names_eq] at hnew
        exact hnew (List.mem_map_of_mem hother)
      exact ⟨c, hc, by rw [if_neg hne, hget]⟩
    · exact ⟨tree, htree, if_pos rfl⟩

theorem holds_of_defineAll (h : defineAll expand definitions = .ok t) :
    Holds expand definitions t := by
  have hempty : Holds expand [] .empty := ⟨rfl, by simp, by simp⟩
  exact foldlM_invariant (fun _ _ _ _ => holds_define) hempty h

/-- There is nothing in the table but the conditions of the definitions. -/
theorem Holds.exists_expand (ht : Holds expand definitions t) {c : Condition HookId}
    (hget : t.get? name = some c) :
    ∃ entry ∈ definitions, entry.1 = name ∧ expand entry = .ok c := by
  have hmem : name ∈ definitions.map Prod.fst := by
    rw [← ht.names_eq, Table.mem_names_iff, hget]
    rfl
  obtain ⟨entry, hentry, hname⟩ := List.mem_map.1 hmem
  obtain ⟨d, hd, hfound⟩ := ht.get?_eq entry hentry
  rw [hname, hget, Option.some.injEq] at hfound
  exact ⟨entry, hentry, hname, hfound ▸ hd⟩

/-- Definitions of which a table can be built, if `resolves` says of which
definitions the condition can be expanded. -/
structure Definable (resolves : String × Condition String → Prop)
    (definitions : List (String × Condition String)) : Prop where
  valid : ∀ entry ∈ definitions, ValidName entry.1
  nodup : (definitions.map Prod.fst).Nodup
  resolves : ∀ entry ∈ definitions, resolves entry

theorem Holds.definable (ht : Holds expand definitions t) :
    Definable (fun entry => ∃ c, expand entry = .ok c) definitions where
  valid := ht.valid
  nodup := by
    rw [← ht.names_eq]
    exact t.nodup
  resolves := by
    intro entry hentry
    obtain ⟨c, hc, -⟩ := ht.get?_eq entry hentry
    exact ⟨c, hc⟩

/-- What is definable offends nowhere. -/
theorem Definable.not_offends {before after : List (String × Condition String)}
    {entry : String × Condition String} {error : ConditionError}
    (h : Definable (fun entry => ∃ c, expand entry = .ok c) (before ++ entry :: after)) :
    ¬ Offends (before.map Prod.fst) entry.1 (expand entry = .error ·) error := by
  have hmem : entry ∈ before ++ entry :: after := by simp
  intro hoffends
  rcases hoffends with ⟨hinvalid, -⟩ | ⟨-, htaken, -⟩ | ⟨-, -, hrefused⟩
  · exact hinvalid (h.valid entry hmem)
  · have hnodup := h.nodup
    rw [List.map_append, List.map_cons, List.nodup_append] at hnodup
    exact hnodup.2.2 entry.1 htaken entry.1 List.mem_cons_self rfl
  · obtain ⟨c, hc⟩ := h.resolves entry hmem
    rw [hc] at hrefused
    exact absurd hrefused nofun

/-- A fold over definitions stops at the first that offends. -/
theorem exists_offends_of_error {error : ConditionError}
    (h : defineAll expand definitions = .error error) :
    ∃ before entry after, definitions = before ++ entry :: after ∧
      Definable (fun entry => ∃ c, expand entry = .ok c) before ∧
      Offends (before.map Prod.fst) entry.1 (expand entry = .error ·) error := by
  obtain ⟨before, entry, after, mid, hsplit, hmid, hentry⟩ := foldlM_eq_error_iff.1 h
  have hholds := holds_of_defineAll hmid
  rw [define_eq_error_iff, hholds.names_eq] at hentry
  exact ⟨before, entry, after, hsplit, hholds.definable, hentry⟩

theorem exists_defineAll_iff :
    (∃ t, defineAll expand definitions = .ok t) ↔
      Definable (fun entry => ∃ c, expand entry = .ok c) definitions := by
  constructor
  · intro h
    obtain ⟨t, ht⟩ := h
    exact (holds_of_defineAll ht).definable
  · intro h
    cases hall : defineAll expand definitions with
    | ok t => exact ⟨t, rfl⟩
    | error error =>
      obtain ⟨before, entry, after, rfl, -, hoffends⟩ := exists_offends_of_error hall
      exact absurd hoffends h.not_offends

theorem defineAll_eq_error_iff {error : ConditionError} :
    defineAll expand definitions = .error error ↔
      ∃ before entry after, definitions = before ++ entry :: after ∧
        Definable (fun entry => ∃ c, expand entry = .ok c) before ∧
        Offends (before.map Prod.fst) entry.1 (expand entry = .error ·) error := by
  constructor
  · exact exists_offends_of_error
  · intro h
    obtain ⟨before, entry, after, hsplit, hbefore, hoffends⟩ := h
    obtain ⟨mid, hmid⟩ := exists_defineAll_iff.2 hbefore
    apply foldlM_eq_error_iff.2
    refine ⟨before, entry, after, mid, hsplit, hmid, ?_⟩
    rw [define_eq_error_iff, (holds_of_defineAll hmid).names_eq]
    exact hoffends

end DefineAll

/-! ## Conditions over hooks -/

variable {hooks : Table HookId} {tree : Condition String}

theorem expandHooks_eq_mapLeavesM :
    expandHooks hooks name tree = tree.mapLeavesM (hooks.require (.unknownHook name)) := by
  unfold expandHooks
  congr 1
  funext hook
  unfold Table.require
  cases hooks.get? hook <;> rfl

theorem effect_expandHooks :
    Condition.effect (expandHooks hooks name tree) =
      forM tree.leaves fun hook => Condition.effect (hooks.require (.unknownHook name) hook) := by
  rw [expandHooks_eq_mapLeavesM, Condition.effect_mapLeavesM]

/-- The identifier under the name of a hook. -/
def idOf (hooks : Table HookId) (hook : String) : HookId := (hooks.get? hook).getD default

/-- A condition in which every leaf names a hook is expanded leaf by leaf, and no
other is. -/
theorem expandHooks_eq_ok {c : Condition HookId} (h : expandHooks hooks name tree = .ok c) :
    (∀ hook ∈ tree.leaves, hooks.get? hook = some (idOf hooks hook)) ∧
      c = tree.mapLeaves (idOf hooks) := by
  have hfound : ∀ hook ∈ tree.leaves, hooks.get? hook = some (idOf hooks hook) := by
    intro hook hleaf
    have hknown := (exists_eq_ok_iff_of_require effect_expandHooks).1 ⟨c, h⟩ hook hleaf
    obtain ⟨id, hid⟩ := Table.exists_get?_of_mem hknown
    rw [idOf, hid, Option.getD_some]
  refine ⟨hfound, ?_⟩
  have hok : expandHooks hooks name tree = .ok (tree.mapLeaves (idOf hooks)) := by
    apply Condition.mapLeavesM_eq_ok
    intro hook hleaf
    rw [hfound hook hleaf]
  rw [hok] at h
  exact (Except.ok.inj h).symm

theorem holds_of_build {definitions : List (String × Condition String)}
    (h : build hooks definitions = .ok t) :
    Holds (fun entry => expandHooks hooks entry.1 entry.2) definitions t :=
  holds_of_defineAll h

theorem exists_expandHooks_iff (entry : String × Condition String) :
    (∃ c, expandHooks hooks entry.1 entry.2 = .ok c) ↔
      ∀ hook ∈ entry.2.leaves, hook ∈ hooks.names :=
  exists_eq_ok_iff_of_require effect_expandHooks

theorem exists_build_iff {definitions : List (String × Condition String)} :
    (∃ t, build hooks definitions = .ok t) ↔
      Definable (fun entry => ∀ hook ∈ entry.2.leaves, hook ∈ hooks.names) definitions := by
  simp only [← exists_expandHooks_iff]
  exact exists_defineAll_iff

/-- A table of conditions over hooks is built if every name is valid and new and
every leaf is a hook. Otherwise the first definition that offends is reported, for
its first leaf that is no hook if its name is right. The table has the names that
were given, and under each the condition that was given, with the identifiers of
its hooks in their places. -/
theorem build_checks (hooks : Table HookId) (definitions : List (String × Condition String)) :
    let known : String × Condition String → Prop :=
      fun entry => ∀ hook ∈ entry.2.leaves, hook ∈ hooks.names
    ((∃ t, build hooks definitions = .ok t) ↔ Definable known definitions) ∧
    (∀ error, build hooks definitions = .error error ↔
      ∃ before entry after, definitions = before ++ entry :: after ∧ Definable known before ∧
        Offends (before.map Prod.fst) entry.1
          (fun error => ∃ hook, entry.2.leaves.find? (· ∉ hooks.names) = some hook ∧
            error = .unknownHook entry.1 hook) error) ∧
    ∀ t, build hooks definitions = .ok t →
      t.names = definitions.map Prod.fst ∧
      (∀ name, (t.get? name).isSome ↔ name ∈ definitions.map Prod.fst) ∧
      ∀ name tree, (name, tree) ∈ definitions → ∃ c, t.get? name = some c ∧
        tree.sameShape c = true ∧ c.leaves.map some = tree.leaves.map hooks.get? := by
  intro known
  refine ⟨exists_build_iff, ?_, ?_⟩
  · intro error
    simp only [known, ← exists_expandHooks_iff, ← eq_error_iff_of_require effect_expandHooks]
    exact defineAll_eq_error_iff
  · intro t h
    have hholds := holds_of_build h
    refine ⟨hholds.names_eq, ?_, ?_⟩
    · intro name
      rw [← Table.mem_names_iff, hholds.names_eq]
    · intro name tree hmem
      obtain ⟨c, hc, hget⟩ := hholds.get?_eq _ hmem
      obtain ⟨hfound, rfl⟩ := expandHooks_eq_ok hc
      refine ⟨_, hget, Condition.sameShape_mapLeaves _ tree, ?_⟩
      rw [Condition.leaves_mapLeaves, List.map_map]
      apply List.map_congr_left
      intro hook hleaf
      exact (hfound hook hleaf).symm

/-- The second definition is reported for its first leaf that is no hook, and not
the third, whose name is taken. -/
theorem build_checks_unknown :
    let hooks : Table HookId := .add .empty "hover" (Hook.selector "&:hover").id (by simp)
    build hooks
      [("a", .leaf "hover"), ("b", .all [.leaf "hover", .not (.leaf "focus"), .leaf "away"]),
        ("a", .leaf "hover")] = .error (.unknownHook "b" "focus") := by
  intro hooks
  apply ((build_checks hooks _).2.1 _).2
  refine ⟨[("a", .leaf "hover")], _, [("a", .leaf "hover")], rfl, ⟨?_, ?_, ?_⟩, ?_⟩
  · rw [List.forall_mem_singleton]
    decide
  · simp
  · simp [hooks]
  · refine .inr (.inr ⟨by decide, by simp, "focus", ?_, rfl⟩)
    simp [hooks, List.flatMap_cons]

end Conditions

end Cascade
