import Cascade.Proofs.Condition.Expansion
import Cascade.Proofs.Condition.JsonText
import Cascade.Proofs.Grammar.Definitions
import Cascade.Proofs.Sheet

/-!
# Two notations of sheets

A list of definitions can be written as lines of text, or as a value in JSON with
the hooks first and the conditions after them. Both are read as the same draft, so
that the sheet that is built from one is the sheet that is built from the other,
and what is wrong with one is wrong with the other.
-/

namespace Cascade

/-! ## Lines of text -/

/-- The definitions, one a line. -/
def Definition.lines (ds : List Definition) : String :=
  String.join (ds.map fun d => d.line ++ "\n")

namespace Grammar

/-- Only what comes after the blanks matters. -/
theorem Lists.congr {cs cs' : List Char} {ds : List Definition} (h : Lists cs ds)
    (hblanks : skipBlanks cs' = skipBlanks cs) : Lists cs' ds := by
  cases h with
  | nil hblank => exact .nil (hblanks.trans hblank)
  | cons hline hend tail => exact .cons (hblanks.trans hline) hend tail

theorem lists_lines (ds : List Definition) : Lists (Definition.lines ds).toList ds := by
  induction ds with
  | nil => exact .nil rfl
  | cons d ds ih =>
    have hlines : (Definition.lines (d :: ds)).toList =
        d.line.toList ++ '\n' :: (Definition.lines ds).toList := by
      simp [Definition.lines, String.join_cons]
    rw [hlines]
    exact .cons (starts_line d _).skipBlanks .feed (ih.congr (skipBlanks_space (by simp) _))

end Grammar

namespace Definition

theorem map_collapse_eq_self {ds : List Definition}
    (h : ∀ name tree, condition name tree ∈ ds → tree.isCollapsed = true) :
    ds.map collapse = ds := by
  apply (List.map_congr_left ?_).trans (List.map_id' ds)
  intro d hd
  cases d with
  | hook name value => rfl
  | condition name tree => rw [collapse, Condition.collapse_eq_self (h name tree hd)]

end Definition

namespace Draft

theorem ofText_lines {ds : List Definition} (hds : ∀ d ∈ ds, d.Writable)
    (hcollapsed : ∀ name tree, .condition name tree ∈ ds → tree.isCollapsed = true) :
    ofText (Definition.lines ds) = .ok (ofDefinitions ds) := by
  have hsheet := Grammar.sheet_of_lists (Grammar.lists_lines ds) hds
  rw [Definition.map_collapse_eq_self hcollapsed] at hsheet
  rw [ofText, parse, hsheet]
  rfl

/-! ## A value in JSON -/

/-- The value of a draft. -/
def toJson (draft : Draft) : Json :=
  .object
    [("hooks", .object (draft.hooks.map fun entry => (entry.1, .string entry.2.text))),
      ("conditions", .object (draft.conditions.map fun entry => (entry.1, entry.2.toJson)))]

/-- What has been written item by item is read item by item. -/
theorem mapM_map_eq_ok {ε α β : Type} {f : β → Except ε α} {g : α → β} {as : List α}
    (h : ∀ a ∈ as, f (g a) = .ok a) : (as.map g).mapM f = .ok as := by
  have hread : as.mapM (f ∘ g) = .ok (as.map id) := Condition.mapM_eq_ok h
  rw [List.mapM_map, hread, List.map_id]

theorem ofJson_toJson {draft : Draft}
    (h : ∀ entry ∈ draft.hooks, Hook.parse entry.2.text = .ok entry.2) :
    ofJson draft.toJson = .ok draft := by
  have hhooks : (draft.hooks.map fun entry => (entry.1, Json.string entry.2.text)).mapM hookOfJson =
      .ok draft.hooks := by
    apply mapM_map_eq_ok
    intro entry hentry
    simp only [hookOfJson, h entry hentry]
  have hconditions : (draft.conditions.map fun entry => (entry.1, entry.2.toJson)).mapM
      conditionOfJson = .ok draft.conditions := by
    apply mapM_map_eq_ok
    intro entry _
    simp only [conditionOfJson,
      (Condition.ofJson_eq_ok_iff entry.2.toJson entry.2).2 entry.2.strip_toJson]
  show ((draft.hooks.map _).mapM hookOfJson >>= fun hooks => _) = _
  rw [hhooks]
  show ((draft.conditions.map _).mapM conditionOfJson >>= fun conditions => _) = _
  rw [hconditions]
  rfl

theorem plain_toJson {draft : Draft} (hhooks : (draft.hooks.map Prod.fst).Nodup)
    (hconditions : (draft.conditions.map Prod.fst).Nodup) : draft.toJson.Plain := by
  have hparts : ∀ part ∈ [Json.object (draft.hooks.map fun e => (e.1, .string e.2.text)),
      .object (draft.conditions.map fun e => (e.1, e.2.toJson))], part.Plain := by
    rw [List.forall_mem_cons, List.forall_mem_singleton]
    constructor
    · refine .object (by simpa [Function.comp_def] using hhooks) ?_
      rw [List.forall_mem_map]
      intro entry _
      exact .string entry.2.text
    · refine .object (by simpa [Function.comp_def] using hconditions) ?_
      rw [List.forall_mem_map]
      intro entry _
      exact entry.2.plain_toJson
  exact .object (by simp) (by simpa using hparts)

theorem mem_hooks_ofDefinitions {ds : List Definition} {entry : String × Hook} :
    entry ∈ (ofDefinitions ds).hooks ↔ .hook entry.1 entry.2 ∈ ds := by
  induction ds with
  | nil => simp [ofDefinitions, empty]
  | cons d ds ih =>
    have hcons : ofDefinitions (d :: ds) = d.addTo (ofDefinitions ds) := rfl
    rw [hcons, List.mem_cons, ← ih]
    cases d with
    | hook name value => simp [Definition.addTo, consHook, Prod.ext_iff]
    | condition name tree => simp [Definition.addTo, consCondition]

end Draft

namespace Sheet

/-- The two notations of a sheet agree.

The definitions have distinct names, separately for hooks and for conditions. Their
lines are read as the draft of these definitions. So is any text in JSON that is
read as the value of the draft, and the compact text of the value is one as long as
it is not nested too deeply. Hence both give the same sheet, or the same error. -/
theorem ofText_eq_ofJsonText (ds : List Definition) (hds : ∀ d ∈ ds, d.Writable)
    (hcollapsed : ∀ name tree, .condition name tree ∈ ds → tree.isCollapsed = true)
    (hhooks : ((Draft.ofDefinitions ds).hooks.map Prod.fst).Nodup)
    (hconditions : ((Draft.ofDefinitions ds).conditions.map Prod.fst).Nodup) :
    let draft := Draft.ofDefinitions ds
    ofText (Definition.lines ds) = build draft ∧
    (∀ s, Json.read? s = some draft.toJson → ofText (Definition.lines ds) = ofJsonText s) ∧
    (draft.toJson.nesting ≤ Json.nestingLimit →
      ofText (Definition.lines ds) = ofJsonText draft.toJson.compact) := by
  intro draft
  have htext : ofText (Definition.lines ds) = build draft := by
    rw [ofText, Draft.ofText_lines hds hcollapsed]
    rfl
  have hparse : ∀ entry ∈ draft.hooks, Hook.parse entry.2.text = .ok entry.2 := by
    intro entry hentry
    exact (hds _ (Draft.mem_hooks_ofDefinitions.1 hentry)).1
  have hjson : ∀ s, Json.read? s = some draft.toJson → ofJsonText s = build draft := by
    intro s hs
    rw [ofJsonText, Draft.ofJsonText, hs]
    show Draft.ofJson draft.toJson >>= build = _
    rw [Draft.ofJson_toJson hparse]
    rfl
  refine ⟨htext, fun s hs => htext.trans (hjson s hs).symm, ?_⟩
  intro hnesting
  have hread := (Draft.plain_toJson hhooks hconditions).read?_compact
  rw [if_pos hnesting] at hread
  exact htext.trans (hjson _ hread).symm

/-- A name and a leaf with quotes in them, a hook with a `#` and a colon in its text,
conditions with keywords as names before the hooks they are over, and an empty
node. -/
theorem ofText_eq_ofJsonText_quotes :
    let ds : List Definition := [
      .condition "and" (.all [.leaf "a\"\\b", .any [], .not (.leaf "OR")]),
      .hook "a\"\\b" (.selector "&:not(#x)"),
      .condition "hook" (.leaf "OR"),
      .hook "OR" (.atRule .media " print")]
    (∀ d ∈ ds, d.Writable) ∧
    Definition.lines ds =
      "condition and: (\"a\\\"\\\\b\" AND FALSE AND (NOT \"OR\"))\n" ++
      "hook \"a\\\"\\\\b\": &:not(#x)\n" ++
      "condition hook: \"OR\"\n" ++
      "hook \"OR\": @media print\n" ∧
    ofText (Definition.lines ds) = ofJsonText (Draft.ofDefinitions ds).toJson.compact ∧
    ∃ sheet, ofText (Definition.lines ds) = .ok sheet ∧
      sheet.conditions.names = ["and", "hook"] := by
  intro ds
  have hds : ∀ d ∈ ds, d.Writable := by
    simp only [ds, List.forall_mem_cons]
    refine ⟨rfl, ⟨rfl, ?_, ?_, ?_⟩, rfl, ⟨rfl, ?_, ?_, ?_⟩, nofun⟩ <;>
      simp [Hook.text, AtRule.keyword, Text.isBlank, Text.blankRanges]
  have hcollapsed : ∀ name tree, .condition name tree ∈ ds → tree.isCollapsed = true := by
    intro name tree h
    simp only [ds, List.mem_cons, reduceCtorEq, Definition.condition.injEq, List.not_mem_nil,
      or_false, false_or] at h
    rcases h with ⟨-, rfl⟩ | ⟨-, rfl⟩ <;> rfl
  obtain ⟨hbuild, -, hcompact⟩ :=
    ofText_eq_ofJsonText ds hds hcollapsed (by decide) (by decide)
  refine ⟨hds, by decide, hcompact (by decide), ?_⟩
  have hregistrable : Registry.Registrable (Draft.ofDefinitions ds).hooks :=
    .of_nodup (by decide) (by decide)
  obtain ⟨sheet, hsheet⟩ := exists_build_iff.2
    ⟨hregistrable, by decide, by decide, by decide⟩
  have hconditions := (build_eq_ok_iff.1 hsheet).2
  exact ⟨sheet, hbuild.trans hsheet, (Conditions.holds_of_build hconditions).names_eq⟩

end Sheet

end Cascade
