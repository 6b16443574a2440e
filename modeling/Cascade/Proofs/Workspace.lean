import Cascade.Proofs.LocalConditions
import Cascade.Proofs.Sheet
import Cascade.Workspace

/-!
# Workspaces over any run

What is done to a workspace is one operation after the other. `outcome_perform`
says all that one operation can do. From it follow what waits (`waiting_perform`), what
a failure keeps (`perform_of_error`), and that in every workspace that can be reached
whatever is there was built, with the local conditions over the conditions beside them
(`sound_run`). So a preview never fails in resolution, and shows the literal that the
truth beside it selects (`preview_run`).

To build the hooks and the conditions of a draft step by step is to load it
(`run_stepwise`).
-/

namespace Cascade

/-! ## Conditions over hooks -/

/-- All leaves of all conditions are identifiers that some hook could have. -/
def Conditions.WellFormed (t : Conditions) : Prop :=
  ∀ name c, t.get? name = some c → ∀ id ∈ c.leaves, id.WellFormed

theorem Sheet.wellFormed_conditions {draft : Draft} {sheet : Sheet}
    (h : build draft = .ok sheet) : sheet.conditions.WellFormed := by
  intro name c hget
  have hholds := Conditions.holds_of_build (build_eq_ok_iff.1 h).2
  obtain ⟨entry, -, -, hc⟩ := hholds.exists_expand hget
  exact Conditions.wellFormed_of_expandHooks hc

/-- The leaves of a local condition are leaves of conditions of the parent. -/
theorem LocalConditions.wellFormed_of_expandEntry {parent : Conditions}
    (hparent : parent.WellFormed) {entry : String × Condition String} {c : Condition HookId}
    (h : expandEntry parent entry = .ok c) : ∀ id ∈ c.leaves, id.WellFormed := by
  by_cases hmem : entry.1 ∈ parent.names
  · obtain ⟨d, hd⟩ := Table.exists_get?_of_mem hmem
    rw [expandEntry_of_get? hd] at h
    rw [← Except.ok.inj h]
    exact hparent _ _ hd
  · rw [expandEntry_of_not_mem hmem] at h
    obtain ⟨hfound, rfl⟩ := expandReferences_eq_ok h
    intro id hid
    rw [Condition.leaves_expand, List.mem_flatMap] at hid
    obtain ⟨reference, hleaf, hid⟩ := hid
    exact hparent _ _ (hfound reference hleaf) id hid

theorem LocalConditions.wellFormed_visible {t : LocalConditions}
    {definitions : List (String × Condition String)} (hparent : t.parent.WellFormed)
    (h : build t.parent definitions = .ok t) : t.visible.WellFormed := by
  intro name c hget
  rw [visible, Table.get?_extend, Option.or_eq_some_iff] at hget
  rcases hget with hget | ⟨-, hget⟩
  · exact hparent name c hget
  · have hholds := Conditions.holds_of_defineAll (build_eq_ok_iff.1 h).2
    obtain ⟨entry, -, -, hc⟩ := hholds.exists_expand hget
    exact wellFormed_of_expandEntry hparent hc

/-! ## Operations -/

/-- The workspace after a step, and whether the step succeeded. -/
def Step.outcome {α : Type} (step : Step α) : Workspace × Except Error Unit :=
  (step.next, step.result.map fun _ => ())

namespace Workspace

/-- What can be done to a workspace. -/
inductive Operation where
  | addHook (name : String) (hook : Hook)
  | addCondition (name : String) (c : Condition String)
  | addLocal (name : String) (c : Condition String)
  | buildRegistry
  | buildConditions
  | buildLocals
  | load (draft : Except Error Draft)
  | writeRegistry (format : Format)
  | writeSheet (format : Format)

/-- Whether an operation builds something. -/
def Operation.builds : Operation → Bool
  | .buildRegistry | .buildConditions | .buildLocals | .load _ => true
  | _ => false

/-- The workspace after an operation, and whether the operation succeeded. -/
def perform (w : Workspace) : Operation → Workspace × Except Error Unit
  | .addHook name hook => (w.addHook name hook, .ok ())
  | .addCondition name c => (w.addCondition name c, .ok ())
  | .addLocal name c => (w.addLocal name c, .ok ())
  | .buildRegistry => w.buildRegistry.outcome
  | .buildConditions => w.buildConditions.outcome
  | .buildLocals => w.buildLocals.outcome
  | .load draft => (w.load draft).outcome
  | .writeRegistry format => (w.writeRegistry format).outcome
  | .writeSheet format => (w.writeSheet format).outcome

/-- The workspace after some operations, of which any may have failed. -/
def run (w : Workspace) (operations : List Operation) : Workspace :=
  operations.foldl (fun w operation => (w.perform operation).1) w

variable {w : Workspace} {operation : Operation}

/-! ## One operation -/

/-- The workspace with what waits after an operation, and what had been built: an
addition lets one more definition wait and a build takes all of its kind. -/
def queued (w : Workspace) : Operation → Workspace
  | .addHook name hook => w.addHook name hook
  | .addCondition name c => w.addCondition name c
  | .addLocal name c => w.addLocal name c
  | .buildRegistry => { w with waitingHooks := [] }
  | .buildConditions => { w with waitingConditions := [] }
  | .buildLocals => { w with waitingLocals := [] }
  | .load _ => w
  | .writeRegistry _ => w
  | .writeSheet _ => w

/-- Why an operation fails. -/
inductive Refused (w : Workspace) : Operation → Error → Prop where
  | registry {e : RegistryError} (h : Registry.build w.waitingHooks = .error e) :
    Refused w .buildRegistry (.registry e)
  | noRegistry (h : w.registry = none) : Refused w .buildConditions .noRegistry
  | conditions {r : Registry} {e : ConditionError} (hr : w.registry = some r)
      (h : Conditions.build r.ids w.waitingConditions = .error e) :
    Refused w .buildConditions (.condition e)
  | noParent (h : w.conditions = none) : Refused w .buildLocals .noTable
  | locals {parent : Conditions} {e : ConditionError} (hparent : w.conditions = some parent)
      (h : LocalConditions.build parent w.waitingLocals = .error e) :
    Refused w .buildLocals (.condition e)
  | draft (e : Error) : Refused w (.load (.error e)) e
  | sheet {draft : Draft} {e : Error} (h : Sheet.build draft = .error e) :
    Refused w (.load (.ok draft)) e
  | nothingToWrite (format : Format) (h : w.registry = none) :
    Refused w (.writeRegistry format) .noRegistry
  | noSheetToWrite (format : Format) (h : w.sheet = none) : Refused w (.writeSheet format) .noTable

/-- All that an operation can do. Beyond what waits it changes nothing, unless it
builds something. -/
inductive Outcome (w : Workspace) : Operation → Workspace × Except Error Unit → Prop where
  | refused {operation : Operation} {e : Error} (h : Refused w operation e) :
    Outcome w operation (w.queued operation, .error e)
  | kept {operation : Operation} (h : operation.builds = false) :
    Outcome w operation (w.queued operation, .ok ())
  | registry {r : Registry} (h : Registry.build w.waitingHooks = .ok r) :
    Outcome w .buildRegistry ({ w.queued .buildRegistry with registry := some r }, .ok ())
  | conditions {r : Registry} {t : Conditions} (hr : w.registry = some r)
      (h : Conditions.build r.ids w.waitingConditions = .ok t) :
    Outcome w .buildConditions
      ({ w.queued .buildConditions with conditions := some t, locals := none }, .ok ())
  | locals {parent : Conditions} {t : LocalConditions} (hparent : w.conditions = some parent)
      (h : LocalConditions.build parent w.waitingLocals = .ok t) :
    Outcome w .buildLocals ({ w.queued .buildLocals with locals := some t }, .ok ())
  | sheet {draft : Draft} {s : Sheet} (h : Sheet.build draft = .ok s) :
    Outcome w (.load (.ok draft))
      ({ w with
          sheet := some s
          registry := some s.registry
          conditions := some s.conditions
          locals := none }, .ok ())

theorem outcome_buildRegistry (w : Workspace) :
    Outcome w .buildRegistry w.buildRegistry.outcome := by
  unfold buildRegistry
  cases h : Registry.build w.waitingHooks with
  | error e => exact .refused (.registry h)
  | ok r => exact .registry h

theorem outcome_buildConditions (w : Workspace) :
    Outcome w .buildConditions w.buildConditions.outcome := by
  unfold buildConditions
  dsimp only
  split
  · next hr => exact .refused (.noRegistry hr)
  · next r hr =>
    cases h : Conditions.build r.ids w.waitingConditions with
    | error e => exact .refused (.conditions hr h)
    | ok t => exact .conditions hr h

theorem outcome_buildLocals (w : Workspace) : Outcome w .buildLocals w.buildLocals.outcome := by
  unfold buildLocals
  dsimp only
  split
  · next hparent => exact .refused (.noParent hparent)
  · next parent hparent =>
    cases h : LocalConditions.build parent w.waitingLocals with
    | error e => exact .refused (.locals hparent h)
    | ok t => exact .locals hparent h

theorem outcome_load (w : Workspace) (draft : Except Error Draft) :
    Outcome w (.load draft) (w.load draft).outcome := by
  unfold load
  cases draft with
  | error e => exact .refused (.draft e)
  | ok draft =>
    dsimp only
    split
    · next e h => exact .refused (.sheet h)
    · next s h => exact .sheet h

theorem outcome_writeRegistry (w : Workspace) (format : Format) :
    Outcome w (.writeRegistry format) (w.writeRegistry format).outcome := by
  unfold writeRegistry
  split
  · exact .kept rfl
  · next hr => exact .refused (.nothingToWrite format hr)

theorem outcome_writeSheet (w : Workspace) (format : Format) :
    Outcome w (.writeSheet format) (w.writeSheet format).outcome := by
  unfold writeSheet
  split
  · exact .kept rfl
  · next hs => exact .refused (.noSheetToWrite format hs)

theorem outcome_perform (w : Workspace) (operation : Operation) :
    Outcome w operation (w.perform operation) := by
  cases operation with
  | addHook name hook => exact .kept rfl
  | addCondition name c => exact .kept rfl
  | addLocal name c => exact .kept rfl
  | buildRegistry => exact w.outcome_buildRegistry
  | buildConditions => exact w.outcome_buildConditions
  | buildLocals => exact w.outcome_buildLocals
  | load draft => exact w.outcome_load draft
  | writeRegistry format => exact w.outcome_writeRegistry format
  | writeSheet format => exact w.outcome_writeSheet format

/-- What waits after an operation does not depend on whether it succeeded. -/
theorem waiting_perform (w : Workspace) (operation : Operation) :
    let next := (w.perform operation).1
    next.waitingHooks = (w.queued operation).waitingHooks ∧
    next.waitingConditions = (w.queued operation).waitingConditions ∧
    next.waitingLocals = (w.queued operation).waitingLocals := by
  have houtcome := outcome_perform w operation
  generalize w.perform operation = after at houtcome
  cases houtcome <;> exact ⟨rfl, rfl, rfl⟩

/-- An operation that fails changes nothing but that the definitions it took no
longer wait. -/
theorem perform_of_error {e : Error} (h : (w.perform operation).2 = .error e) :
    Refused w operation e ∧ (w.perform operation).1 = w.queued operation := by
  have houtcome := outcome_perform w operation
  generalize w.perform operation = after at h houtcome
  cases houtcome with
  | refused hrefused =>
    cases h
    exact ⟨hrefused, rfl⟩
  | kept _ => exact absurd h nofun
  | registry _ => exact absurd h nofun
  | conditions _ _ => exact absurd h nofun
  | locals _ _ => exact absurd h nofun
  | sheet _ => exact absurd h nofun

/-! ## What is there was built -/

/-- Whatever has been built is what some definitions give. The hooks of conditions
may be those of an earlier registry, but the parent of local conditions is the table
of conditions that is there. -/
structure Sound (w : Workspace) : Prop where
  registry : ∀ r, w.registry = some r → ∃ hooks, Registry.build hooks = .ok r
  conditions : ∀ t, w.conditions = some t → ∃ draft r, Sheet.build draft = .ok ⟨r, t⟩
  locals : ∀ t, w.locals = some t → w.conditions = some t.parent ∧
    ∃ definitions, LocalConditions.build t.parent definitions = .ok t
  sheet : ∀ s, w.sheet = some s → ∃ draft, Sheet.build draft = .ok s

theorem sound_empty : Sound .empty := ⟨nofun, nofun, nofun, nofun⟩

theorem Sound.queued (hw : Sound w) (operation : Operation) : Sound (w.queued operation) := by
  cases operation <;> exact ⟨hw.registry, hw.conditions, hw.locals, hw.sheet⟩

theorem sound_perform (hw : Sound w) (operation : Operation) :
    Sound (w.perform operation).1 := by
  have houtcome := outcome_perform w operation
  generalize w.perform operation = after at houtcome
  cases houtcome with
  | refused _ => exact hw.queued operation
  | kept _ => exact hw.queued operation
  | registry h =>
    refine ⟨?_, hw.conditions, hw.locals, hw.sheet⟩
    intro r hr
    cases hr
    exact ⟨w.waitingHooks, h⟩
  | conditions hr h =>
    refine ⟨hw.registry, ?_, nofun, hw.sheet⟩
    intro t ht
    cases ht
    obtain ⟨hooks, hhooks⟩ := hw.registry _ hr
    exact ⟨⟨hooks, w.waitingConditions⟩, _, Sheet.build_eq_ok_iff.2 ⟨hhooks, h⟩⟩
  | locals hparent h =>
    refine ⟨hw.registry, hw.conditions, ?_, hw.sheet⟩
    intro t ht
    cases ht
    have hsame := (LocalConditions.build_eq_ok_iff.1 h).1
    rw [← hsame] at hparent h
    exact ⟨hparent, w.waitingLocals, h⟩
  | sheet h =>
    refine ⟨?_, ?_, nofun, ?_⟩
    · intro r hr
      cases hr
      exact ⟨_, (Sheet.build_eq_ok_iff.1 h).1⟩
    · intro t ht
      cases ht
      exact ⟨_, _, h⟩
    · intro s hs
      cases hs
      exact ⟨_, h⟩

theorem Sound.run (hw : Sound w) (operations : List Operation) : Sound (w.run operations) := by
  induction operations generalizing w with
  | nil => exact hw
  | cons operation operations ih => exact ih (sound_perform hw operation)

/-- In every workspace that can be reached, whatever is there was built. -/
theorem sound_run (operations : List Operation) : Sound (Workspace.empty.run operations) :=
  sound_empty.run operations

/-! ## Previews -/

theorem Sound.wellFormed_table (hw : Sound w) {table : TableName} {t : Conditions}
    (h : w.table table = .ok t) : t.WellFormed := by
  have hconditions : ∀ t, w.conditions = some t → t.WellFormed := by
    intro t ht
    obtain ⟨draft, r, hsheet⟩ := hw.conditions t ht
    exact Sheet.wellFormed_conditions hsheet
  unfold Workspace.table at h
  dsimp only at h
  split at h
  · next found hfound =>
    cases h
    cases table with
    | conditions => exact hconditions t hfound
    | locals =>
      obtain ⟨u, hu, rfl⟩ := Option.map_eq_some_iff.1 hfound
      obtain ⟨hparent, definitions, hbuild⟩ := hw.locals u hu
      exact LocalConditions.wellFormed_visible (hconditions _ hparent) hbuild
    | sheet =>
      obtain ⟨s, hs, rfl⟩ := Option.map_eq_some_iff.1 hfound
      obtain ⟨draft, hsheet⟩ := hw.sheet s hs
      exact Sheet.wellFormed_conditions hsheet
  · exact absurd h nofun

/-- Whatever has been done to a workspace, a preview of a condition that is there
shows the literal that its truth selects. -/
theorem preview_run (operations : List Operation) (table : TableName)
    (name ifTrue ifFalse : String) (active : List String) {r : Registry} {t : Conditions}
    {c : Condition HookId} (hr : (Workspace.empty.run operations).registry = some r)
    (ht : (Workspace.empty.run operations).table table = .ok t) (hc : t.get? name = some c)
    (hbalancedTrue : Value.Balanced ifTrue.toList) (hbalancedFalse : Value.Balanced ifFalse.toList)
    (hcallTrue : ¬"var(".toList <:+: ifTrue.toList)
    (hcallFalse : ¬"var(".toList <:+: ifFalse.toList) :
    let truth := c.eval fun id => active.any fun hook => r.ids.get? hook == some id
    (Workspace.empty.run operations).preview table name ifTrue ifFalse active =
      .ok (String.ofList (Text.squeeze (if truth then ifTrue else ifFalse).toList), truth) := by
  intro truth
  have hleaves := (sound_run operations).wellFormed_table ht name c hc
  have hcall : ¬"var(".toList <:+: (if truth then ifTrue else ifFalse).toList := by
    split
    · exact hcallTrue
    · exact hcallFalse
  have hpreview := Conditions.preview_eq_ok hc
    (Condition.resolve_compile_literal hleaves hbalancedTrue hbalancedFalse hcall)
  have hregistry : (Workspace.empty.run operations).requireRegistry = .ok r := by
    rw [requireRegistry, hr]
  have hfind : (t.find name).mapError Error.condition = .ok c := by
    rw [Conditions.find, hc]
    rfl
  simp only [preview, bind_eq_ok_iff]
  exact ⟨r, hregistry, t, ht, _, hpreview, c, hfind, rfl⟩

/-! ## Step by step -/

/-- The operations that build the hooks and the conditions of a draft. -/
def stepwise (draft : Draft) : List Operation :=
  draft.hooks.map (fun entry => .addHook entry.1 entry.2) ++ .buildRegistry ::
    (draft.conditions.map (fun entry => .addCondition entry.1 entry.2) ++ [.buildConditions])

theorem run_cons (w : Workspace) (operation : Operation) (operations : List Operation) :
    w.run (operation :: operations) = (w.perform operation).1.run operations := rfl

theorem run_append (w : Workspace) (before after : List Operation) :
    w.run (before ++ after) = (w.run before).run after := List.foldl_append

theorem run_addHooks (w : Workspace) (hooks : List (String × Hook)) :
    w.run (hooks.map fun entry => .addHook entry.1 entry.2) =
      { w with waitingHooks := w.waitingHooks ++ hooks } := by
  induction hooks generalizing w with
  | nil => rw [List.append_nil]; rfl
  | cons entry hooks ih =>
    rw [List.append_cons]
    exact ih (w.addHook entry.1 entry.2)

theorem run_addConditions (w : Workspace) (definitions : List (String × Condition String)) :
    w.run (definitions.map fun entry => .addCondition entry.1 entry.2) =
      { w with waitingConditions := w.waitingConditions ++ definitions } := by
  induction definitions generalizing w with
  | nil => rw [List.append_nil]; rfl
  | cons entry definitions ih =>
    rw [List.append_cons]
    exact ih (w.addCondition entry.1 entry.2)

/-- Where nothing waits, to build a draft step by step is to load it, except that
the sheet stays the one there was. -/
theorem run_stepwise {draft : Draft} {sheet : Sheet} (hsheet : Sheet.build draft = .ok sheet)
    (hhooks : w.waitingHooks = []) (hconditions : w.waitingConditions = []) :
    w.run (stepwise draft) = { (w.load (.ok draft)).next with sheet := w.sheet } := by
  obtain ⟨hregistry, hbuild⟩ := Sheet.build_eq_ok_iff.1 hsheet
  let registered : Workspace := { w with waitingHooks := [], registry := some sheet.registry }
  have hfirst : ({ w with waitingHooks := draft.hooks } : Workspace).buildRegistry.next =
      registered := by
    simp only [buildRegistry, hregistry]
    rfl
  have hsecond : ({ registered with waitingConditions := draft.conditions } :
      Workspace).buildConditions.next =
        { registered with
          waitingConditions := [], conditions := some sheet.conditions, locals := none } := by
    simp only [buildConditions, registered, hbuild]
  have hload : (w.load (.ok draft)).next =
      { w with
        sheet := some sheet
        registry := some sheet.registry
        conditions := some sheet.conditions
        locals := none } := by
    simp only [load, hsheet]
  rw [stepwise, run_append, run_addHooks, hhooks, List.nil_append, run_cons, run_append]
  show run (run (buildRegistry { w with waitingHooks := draft.hooks }).next _) _ = _
  rw [hfirst, run_addConditions]
  show (buildConditions { registered with
    waitingConditions := w.waitingConditions ++ draft.conditions }).next = _
  rw [hconditions, List.nil_append, hsecond, hload]
  simp only [registered, hhooks, hconditions]

end Workspace

end Cascade
