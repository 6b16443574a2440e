import Cascade.Proofs.Condition.Resolution
import Cascade.Proofs.Conditions
import Cascade.Proofs.Registry
import Cascade.Proofs.Stylesheet.Rules
import Cascade.Sheet

/-!
# Sheets mean what they say

A sheet gives a page two things: the stylesheet that wires the toggles of its
hooks, and a declaration value for every condition. Here the two come together.
When some hooks apply, the stylesheet leaves every toggle in the state that
resolution takes it to be in, and the value of a condition resolves to the
literal that the truth of the condition, as it was written, selects.
-/

namespace Cascade

open Stylesheet (isActive)

/-! ## The hooks of a registry -/

namespace Registry

/-- The hooks, once for each name. -/
def hookList (r : Registry) : List Hook := r.entries.map Prod.fst

theorem entries_eq (r : Registry) : r.entries = r.hookList.map fun hook => (hook, hook.id) := by
  obtain ⟨hooks, -, hentries⟩ := r.aligned
  rw [hookList, hentries, List.map_map, List.map_map]
  rfl

theorem stylesheet_eq (r : Registry) : r.stylesheet = .ofHookList r.hookList := by
  rw [stylesheet, Stylesheet.ofHookList, ← entries_eq]

theorem hookList_of_build {hooks : List (String × Hook)} {r : Registry}
    (h : build hooks = .ok r) : r.hookList = hooks.eraseDups.map Prod.snd := by
  rw [hookList, entries_of_build h, List.map_map]
  rfl

theorem mem_hookList_of_build {hooks : List (String × Hook)} {r : Registry}
    (h : build hooks = .ok r) {hook : Hook} :
    hook ∈ r.hookList ↔ hook ∈ hooks.map Prod.snd := by
  simp only [hookList_of_build h, List.mem_map, List.mem_eraseDups]

/-- Every identifier is that of a hook. -/
theorem wellFormed_of_get?_ids {r : Registry} {name : String} {i : HookId}
    (h : r.ids.get? name = some i) : i.WellFormed := by
  obtain ⟨hooks, hids, -⟩ := r.aligned
  rw [Table.get?_eq_some_iff, hids, List.mem_map] at h
  obtain ⟨entry, -, he⟩ := h
  obtain ⟨-, rfl⟩ := Prod.mk.inj he
  exact entry.2.wellFormed_id

end Registry

/-- Only which hooks there are matters, not their order or number. -/
theorem Stylesheet.isActive_congr {hooks hooks' : List Hook} {applies : Hook → Bool}
    (h : ∀ hook, hook ∈ hooks ↔ hook ∈ hooks') :
    isActive hooks applies = isActive hooks' applies := by
  funext i
  rw [Bool.eq_iff_iff, isActive_eq_true_iff, isActive_eq_true_iff]
  simp only [h]

/-- If no two hooks share an identifier, one is active if it applies. -/
theorem Stylesheet.isActive_id {hooks : List Hook} {applies : Hook → Bool}
    (hdistinct : ∀ d ∈ hooks, ∀ d' ∈ hooks, d.id = d'.id → d = d') {hook : Hook}
    (h : hook ∈ hooks) : isActive hooks applies hook.id = applies hook := by
  rw [Bool.eq_iff_iff, isActive_eq_true_iff]
  constructor
  · rintro ⟨other, hother, hid, happlies⟩
    rwa [hdistinct other hother hook h hid] at happlies
  · intro happlies
    exact ⟨hook, h, rfl, happlies⟩

/-! ## Toggles as they are and as they are taken to be -/

/-- Resolution takes a toggle to be valid exactly if the declaration for this
state leaves it empty. -/
theorem Value.Call.isValid_property {toggle : Toggle} (h : toggle.id.WellFormed)
    (active : HookId → Bool) (fallback : Option (List Char)) :
    ((Value.Call.mk toggle.property.toList fallback).isValid active).value =
      decide (Declaration.value ⟨toggle, toggle.isValid (active toggle.id)⟩ = "") := by
  simp only [Value.Call.isValid, Toggle.ofProperty?_property h]
  show toggle.isValid (active toggle.id) = _
  cases toggle.isValid (active toggle.id) <;> simp [Declaration.value]

/-! ## Conditions as they were written -/

/-- Whether a hook holds: some hook with the identifier under its name is active. -/
def Registry.holds (r : Registry) (active : HookId → Bool) (name : String) : Bool :=
  (r.ids.get? name).any active

/-- A condition that has been expanded is true if the condition as it was written
is. -/
theorem Conditions.eval_expandHooks {r : Registry} {name : String} {tree : Condition String}
    {c : Condition HookId} (h : expandHooks r.ids name tree = .ok c) (active : HookId → Bool) :
    c.eval active = tree.eval (r.holds active) := by
  obtain ⟨hfound, rfl⟩ := expandHooks_eq_ok h
  rw [Condition.eval_mapLeaves]
  apply Condition.eval_congr
  intro hook hleaf
  rw [Registry.holds, hfound hook hleaf, Option.any_some]

theorem Conditions.wellFormed_of_expandHooks {r : Registry} {name : String}
    {tree : Condition String} {c : Condition HookId} (h : expandHooks r.ids name tree = .ok c) :
    ∀ id ∈ c.leaves, id.WellFormed := by
  obtain ⟨hfound, rfl⟩ := expandHooks_eq_ok h
  intro id hid
  rw [Condition.leaves_mapLeaves, List.mem_map] at hid
  obtain ⟨hook, hleaf, rfl⟩ := hid
  exact Registry.wellFormed_of_get?_ids (hfound hook hleaf)

/-- A preview is the resolution of the value that the condition is compiled to. -/
theorem Conditions.preview_eq_ok {t : Conditions} {name ifTrue ifFalse value : String}
    {active : HookId → Bool} {c : Condition HookId} (hget : t.get? name = some c)
    (hvalue : Value.resolve active (c.compile ifTrue ifFalse) = .ok value) :
    t.preview name ifTrue ifFalse active = .ok value := by
  have hdeclared : t.declarationValue name ifTrue ifFalse = .ok (c.compile ifTrue ifFalse) := by
    rw [declarationValue, find, hget]
    rfl
  rw [preview, hdeclared]
  show (Value.resolve active (c.compile ifTrue ifFalse)).mapError Error.resolve = _
  rw [hvalue]
  rfl

/-! ## Sheets -/

namespace Sheet

/-- A sheet is built if its registry is and then its conditions are. -/
theorem build_eq_ok_iff {draft : Draft} {sheet : Sheet} :
    build draft = .ok sheet ↔
      Registry.build draft.hooks = .ok sheet.registry ∧
        Conditions.build sheet.registry.ids draft.conditions = .ok sheet.conditions := by
  simp only [build, bind_eq_ok_iff, mapError_eq_ok_iff]
  constructor
  · intro h
    obtain ⟨registry, hregistry, conditions, hconditions, hsheet⟩ := h
    cases hsheet
    exact ⟨hregistry, hconditions⟩
  · intro h
    exact ⟨sheet.registry, h.1, sheet.conditions, h.2, rfl⟩

/-- A sheet is built if all hooks can be registered and all conditions defined over
them. -/
theorem exists_build_iff {draft : Draft} :
    (∃ sheet, build draft = .ok sheet) ↔
      Registry.Registrable draft.hooks ∧
        Conditions.Definable (fun entry => ∀ hook ∈ entry.2.leaves, hook ∈ draft.hooks.map Prod.fst)
          draft.conditions := by
  have hnames : ∀ r, Registry.build draft.hooks = .ok r →
      ∀ hook, hook ∈ draft.hooks.map Prod.fst ↔ hook ∈ r.ids.names := by
    intro r hr hook
    rw [Registry.names_ids_of_build hr, List.mem_eraseDups]
  constructor
  · intro h
    obtain ⟨sheet, hsheet⟩ := h
    obtain ⟨hregistry, hconditions⟩ := build_eq_ok_iff.1 hsheet
    simp only [hnames _ hregistry]
    exact ⟨Registry.registrable_of_build hregistry, Conditions.exists_build_iff.1 ⟨_, hconditions⟩⟩
  · intro h
    obtain ⟨hregistrable, hdefinable⟩ := h
    obtain ⟨r, hr⟩ := Registry.exists_build_iff.2 hregistrable
    simp only [hnames r hr] at hdefinable
    obtain ⟨t, ht⟩ := Conditions.exists_build_iff.2 hdefinable
    exact ⟨⟨r, t⟩, build_eq_ok_iff.2 ⟨hr, ht⟩⟩

/-- A sheet that has been built does what its draft says, whichever hooks apply.

The text of its stylesheet is that of rules. Those in force leave every toggle of
a hook with the value that goes with the state of the hook, and empty exactly if
resolution takes it to be valid. Every condition selects between two literals by
its truth as it was written, where the name of a hook is true if the identifier
of the hook is active. If no two hooks share an identifier this is to say that
the hook itself applies. -/
theorem build_faithful (draft : Draft) (sheet : Sheet) (h : build draft = .ok sheet)
    (applies : Hook → Bool) (env : String → String) :
    let hooks := draft.hooks.map Prod.snd
    let active := isActive hooks applies
    let stylesheet := sheet.registry.stylesheet
    let after := stylesheet.cascade applies env
    (∀ format, stylesheet.render format = Rule.write format stylesheet.rules) ∧
    (∀ hook ∈ hooks,
      after hook.id.off = (if active hook.id then "" else "initial") ∧
      after hook.id.on = (if active hook.id then "initial" else "") ∧
      ∀ toggle : Toggle, toggle.id = hook.id → ∀ fallback,
        ((Value.Call.mk toggle.property.toList fallback).isValid active).value =
          decide (after toggle.property = "")) ∧
    sheet.conditions.names = draft.conditions.map Prod.fst ∧
    (∀ name tree, (name, tree) ∈ draft.conditions → ∀ t f : String,
      Value.Balanced t.toList → Value.Balanced f.toList →
      ¬"var(".toList <:+: t.toList → ¬"var(".toList <:+: f.toList →
      sheet.conditions.preview name t f active =
        .ok (String.ofList (Text.squeeze
          (if tree.eval (sheet.registry.holds active) then t else f).toList))) ∧
    (∀ name hook, (name, hook) ∈ draft.hooks →
      sheet.registry.holds active name = active hook.id ∧
      ((∀ d ∈ hooks, ∀ d' ∈ hooks, d.id = d'.id → d = d') →
        sheet.registry.holds active name = applies hook)) := by
  intro hooks active stylesheet after
  obtain ⟨hregistry, hconditions⟩ := build_eq_ok_iff.1 h
  have hmem : ∀ hook, hook ∈ sheet.registry.hookList ↔ hook ∈ hooks :=
    fun _ => Registry.mem_hookList_of_build hregistry
  have hsheet : stylesheet = .ofHookList sheet.registry.hookList :=
    sheet.registry.stylesheet_eq
  have hactive : isActive sheet.registry.hookList applies = active :=
    Stylesheet.isActive_congr hmem
  have hafter : ∀ hook ∈ hooks, ∀ on, after (Toggle.property ⟨hook.id, on⟩) =
      Declaration.value ⟨⟨hook.id, on⟩, Toggle.isValid ⟨hook.id, on⟩ (active hook.id)⟩ := by
    intro hook hhook on
    show stylesheet.cascade applies env _ = _
    rw [hsheet, ← hactive]
    exact Stylesheet.cascade_property env applies ((hmem hook).2 hhook) on
  have hconds := Conditions.holds_of_build hconditions
  refine ⟨?_, ?_, hconds.names_eq, ?_, ?_⟩
  · intro format
    exact stylesheet.render_eq_write format
  · intro hook hhook
    refine ⟨?_, ?_, ?_⟩
    · rw [HookId.off, hafter hook hhook]
      cases active hook.id <;> rfl
    · rw [HookId.on, hafter hook hhook]
      cases active hook.id <;> rfl
    · rintro ⟨_, on⟩ rfl fallback
      rw [hafter hook hhook]
      exact Value.Call.isValid_property hook.wellFormed_id active fallback
  · intro name tree hmem t f ht hf hct hcf
    obtain ⟨c, hc, hget⟩ := hconds.get?_eq _ hmem
    rw [← Conditions.eval_expandHooks hc active]
    apply Conditions.preview_eq_ok hget
    apply Condition.resolve_compile_literal (Conditions.wellFormed_of_expandHooks hc) ht hf
    split
    · exact hct
    · exact hcf
  · intro name hook hhook
    have hholds : sheet.registry.holds active name = active hook.id := by
      have hfound := (Registry.registrable_of_build hregistry).lookup_iff.2 hhook
      rw [Registry.holds, Registry.get?_ids_of_build hregistry, hfound, Option.map_some,
        Option.any_some]
    refine ⟨hholds, ?_⟩
    intro hdistinct
    rw [hholds]
    exact Stylesheet.isActive_id hdistinct (List.mem_map_of_mem hhook)

/-- Two names for one hook and a third for another. Only the first hook applies. -/
theorem build_faithful_aliases :
    let dark : Hook := .atRule .media "(prefers-color-scheme: dark)"
    let hover : Hook := .selector "&:hover"
    let draft : Draft := ⟨[("dark", dark), ("night", dark), ("hover", hover)],
      [("dim", .all [.leaf "night", .not (.leaf "hover")])]⟩
    let applies (hook : Hook) : Bool := hook == dark
    let active := isActive (draft.hooks.map Prod.snd) applies
    ∃ sheet, build draft = .ok sheet ∧ dark.id ≠ hover.id ∧
      (sheet.registry.stylesheet.cascade applies fun _ => "") dark.id.on = "initial" ∧
      sheet.conditions.preview "dim" "f(x,  1)" "red" active = .ok "f(x, 1)" := by
  intro dark hover draft applies active
  have hids : dark.id ≠ hover.id := by decide +kernel
  have hregistrable : Registry.Registrable draft.hooks :=
    .of_nodup (by simp [draft]) (by simp [draft])
  obtain ⟨sheet, hsheet⟩ := exists_build_iff.2
    ⟨hregistrable, List.forall_mem_singleton.2 (by decide), by simp [draft], by simp [draft]⟩
  obtain ⟨-, htoggles, -, hpreview, hnames⟩ := build_faithful draft sheet hsheet applies fun _ => ""
  have hdistinct : ∀ d ∈ draft.hooks.map Prod.snd, ∀ d' ∈ draft.hooks.map Prod.snd,
      d.id = d'.id → d = d' := by
    have hcases : ∀ d ∈ draft.hooks.map Prod.snd, d = dark ∨ d = hover := by simp [draft]
    intro d hd d' hd' he
    rcases hcases d hd with h | h <;> rcases hcases d' hd' with h' | h' <;> rw [h, h'] at he ⊢
    · exact absurd he hids
    · exact absurd he.symm hids
  have hnight : sheet.registry.holds active "night" = true := by
    rw [(hnames "night" dark (by simp [draft])).2 hdistinct]
    exact beq_self_eq_true dark
  have hhover : sheet.registry.holds active "hover" = false := by
    rw [(hnames "hover" hover (by simp [draft])).2 hdistinct]
    rfl
  have hactive : active dark.id = true := by
    rw [← hnight]
    exact (hnames "night" dark (by simp [draft])).1.symm
  have htree : (Condition.all [.leaf "night", .not (.leaf "hover")]).eval
      (sheet.registry.holds active) = true := by
    simp [hnight, hhover]
  have hwords : Text.squeeze "f(x,  1)".toList = "f(x, 1)".toList := by decide
  refine ⟨sheet, hsheet, hids, ?_, ?_⟩
  · rw [(htoggles dark (by simp [draft])).2.1]
    exact if_pos hactive
  · rw [hpreview "dim" _ List.mem_cons_self "f(x,  1)" "red" (by decide) (by decide)
      (Value.cutCall_eq_none_iff.1 (by decide)) (Value.cutCall_eq_none_iff.1 (by decide)),
      if_pos htree, hwords, String.ofList_toList]

end Sheet

end Cascade
