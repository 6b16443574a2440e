import Cascade.Proofs.Sheet

/-!
# The parts of a stylesheet

The text of a stylesheet is that of its first rule, with a pair of declarations
for each identifier, and after it the text of one block for each hook. Nothing
comes twice, and everything stands where it came up first: hooks count as the same
if they are the same definition, also under different names, and identifiers if
they have the same text, also if they are those of different hooks.

There are three groups.

* The texts of the parts, written out for both formats, and `render_eq_parts`.
* The stylesheet of hooks depends on the distinct hooks alone
  (`ofHookList_eq`).
* The stylesheet of a registry is that of all the hooks that were registered
  (`Registry.stylesheet_of_build`), so one that was there before can be left out.
-/

namespace Cascade

namespace Stylesheet

/-! ## The texts of the parts -/

/-- The rule that sets the toggles of identifiers to those of inactive hooks. -/
def defaultsRule (format : Format) (ids : List HookId) : String :=
  "*" ++ format.space ++ "\x7b" ++ format.newline ++
    String.intercalate format.newline (ids.flatMap fun id =>
      [format.indent ++ "--" ++ id.text ++ "-0:" ++ format.space ++ "initial;",
        format.indent ++ "--" ++ id.text ++ "-1:" ++ format.space ++ ";"]) ++
    format.newline ++ "\x7d"

/-- The block that sets the toggles of a hook to those of an active one, where the
hook applies. -/
def overrideBlock (format : Format) (hook : Hook) : String :=
  let indent := format.indent
  match hook with
  | .selector pattern =>
    String.intercalate format.newline
      [pattern.map (fun c => if c = '&' then '*' else c) ++ format.space ++ "\x7b",
        indent ++ "--" ++ hook.id.text ++ "-0:" ++ format.space ++ ";",
        indent ++ "--" ++ hook.id.text ++ "-1:" ++ format.space ++ "initial;",
        "\x7d"]
  | .atRule _ _ =>
    String.intercalate format.newline
      [hook.text ++ " \x7b",
        indent ++ "* \x7b",
        indent ++ indent ++ "--" ++ hook.id.text ++ "-0:" ++ format.space ++ ";",
        indent ++ indent ++ "--" ++ hook.id.text ++ "-1:" ++ format.space ++ "initial;",
        indent ++ "\x7d",
        "\x7d"]

theorem pairLines_eq (format : Format) (indent : String) (id : HookId) (active : Bool) :
    pairLines format indent id active =
      [indent ++ "--" ++ id.text ++ "-0:" ++ format.space ++ (if active then ";" else "initial;"),
        indent ++ "--" ++ id.text ++ "-1:" ++ format.space ++
          (if active then "initial;" else ";")] := by
  cases active <;>
    simp [pairLines, Declaration.pair, Declaration.text, Toggle.property, Toggle.isValid,
      ← String.toList_inj]

theorem lines_block (format : Format) (hook : Hook) :
    lines format (block format (hook, hook.id)) = overrideBlock format hook := by
  cases hook <;>
    simp [lines, block, overrideBlock, pairLines_eq, universal_eq_map, String.append_assoc]

/-- Blocks of lines with line ends between all lines, and between the blocks. -/
theorem lines_flatMap {α : Type} (format : Format) {f : α → List String} (as : List α)
    (h : ∀ a, f a ≠ []) :
    lines format (as.flatMap f) = lines format (as.map fun a => lines format (f a)) := by
  induction as with
  | nil => rfl
  | cons a as ih =>
    cases as with
    | nil => simp [lines]
    | cons b as =>
      have hrest : (b :: as).flatMap f ≠ [] := by simp [h b]
      unfold lines at ih ⊢
      rw [List.flatMap_cons, String.intercalate_append_of_ne_nil (h a) hrest, ih, List.map_cons,
        List.map_cons, List.map_cons, String.intercalate_cons_cons]

/-- The text of a stylesheet is the first rule and then the blocks. -/
theorem render_eq_parts (format : Format) (ids : List HookId) (hooks : List Hook) :
    render format ⟨ids, hooks.map fun hook => (hook, hook.id)⟩ =
      defaultsRule format ids ++ format.newline ++
        String.intercalate format.newline (hooks.map (overrideBlock format)) := by
  have hblocks : lines format ((hooks.map fun hook => (hook, hook.id)).flatMap (block format)) =
      String.intercalate format.newline (hooks.map (overrideBlock format)) := by
    rw [List.flatMap_map, lines_flatMap format hooks]
    · simp only [lines_block]
      rfl
    · intro hook
      cases hook <;> exact List.cons_ne_nil _ _
  simp only [render, hblocks, defaultsRule, pairLines_eq, Bool.false_eq_true, if_false]
  rfl

/-! ## Distinct hooks and identifiers -/

/-- The stylesheet of hooks has their distinct identifiers and the distinct hooks,
each where it first came up. -/
theorem ofHookList_eq (hooks : List Hook) :
    ofHookList hooks =
      ⟨(hooks.map Hook.id).eraseDups, hooks.eraseDups.map fun hook => (hook, hook.id)⟩ := by
  have hhooks : firsts Prod.fst (hooks.map fun hook => (hook, hook.id)) =
      hooks.eraseDups.map fun hook => (hook, hook.id) := by
    rw [firsts_map]
    exact congrArg _ (firsts_eq_eraseDups hooks)
  have hids : firsts id ((hooks.eraseDups.map fun hook => (hook, hook.id)).map Prod.snd) =
      (hooks.map Hook.id).eraseDups := by
    rw [← eraseDups_map_eraseDups Hook.id hooks, List.map_map]
    exact firsts_eq_eraseDups (hooks.eraseDups.map Hook.id)
  rw [ofHookList, ofHooks, hhooks, hids]

/-- A hook that comes again can be left out. -/
theorem ofHookList_append_cons {before : List Hook} {hook : Hook} (h : hook ∈ before)
    (after : List Hook) : ofHookList (before ++ hook :: after) = ofHookList (before ++ after) := by
  have hids : ((before ++ hook :: after).map Hook.id).eraseDups =
      ((before ++ after).map Hook.id).eraseDups := by
    rw [List.map_append, List.map_cons, eraseDups_append_cons_of_mem (List.mem_map_of_mem h),
      List.map_append]
  rw [ofHookList_eq, ofHookList_eq, hids, eraseDups_append_cons_of_mem h]

end Stylesheet

/-! ## The stylesheet of a registry -/

namespace Registry

variable {hooks : List (String × Hook)} {r : Registry}

/-- The stylesheet of a registry is that of the hooks that were registered, under
whatever names. -/
theorem stylesheet_of_build (h : build hooks = .ok r) :
    r.stylesheet = .ofHookList (hooks.map Prod.snd) := by
  have hdistinct : r.hookList.eraseDups = (hooks.map Prod.snd).eraseDups := by
    rw [hookList_of_build h, eraseDups_map_eraseDups]
  have hids : (r.hookList.map Hook.id).eraseDups =
      ((hooks.map Prod.snd).map Hook.id).eraseDups := by
    rw [← eraseDups_map_eraseDups, hdistinct, eraseDups_map_eraseDups]
  rw [stylesheet_eq, Stylesheet.ofHookList_eq, Stylesheet.ofHookList_eq, hdistinct, hids]

/-- A registration of a hook that was there before, under any name, has no part in
the stylesheet. -/
theorem stylesheet_append_cons {before after : List (String × Hook)} {name : String} {hook : Hook}
    (h : build (before ++ (name, hook) :: after) = .ok r) (hearlier : hook ∈ before.map Prod.snd) :
    ∃ r', build (before ++ after) = .ok r' ∧ r'.stylesheet = r.stylesheet := by
  have hfewer : Registrable (before ++ after) := by
    apply (registrable_of_build h).mono
    intro entry hentry
    rw [List.mem_append] at hentry
    rcases hentry with hentry | hentry
    · exact List.mem_append_left _ hentry
    · exact List.mem_append_right _ (List.mem_cons_of_mem _ hentry)
  obtain ⟨r', hr'⟩ := exists_build_iff.2 hfewer
  refine ⟨r', hr', ?_⟩
  rw [stylesheet_of_build hr', stylesheet_of_build h, List.map_append, List.map_append,
    List.map_cons, Stylesheet.ofHookList_append_cons hearlier]

end Registry

namespace Stylesheet

theorem ofHooks_eq_ofHookList {hooks : List (Hook × HookId)}
    (hids : ∀ entry ∈ hooks, entry.2 = entry.1.id) :
    ofHooks hooks = ofHookList (hooks.map Prod.fst) := by
  have hentries : (hooks.map Prod.fst).map (fun hook => (hook, hook.id)) = hooks := by
    rw [List.map_map]
    apply (List.map_congr_left ?_).trans (List.map_id' hooks)
    intro entry hentry
    exact Prod.ext rfl (hids entry hentry).symm
  rw [ofHookList, hentries]

/-- The text of a stylesheet of hooks with their identifiers, in either format. It
has a pair of declarations in the first rule for each identifier and a block for
each hook, once, in the order in which they first came up. Hooks that share an
identifier share the pair, and each has its block.

The stylesheet of a registry is that of all the hooks that were registered. So a
registration whose hook has come before, under the same name or another, can be
left out: the others can be made without it, and the text stays the same. -/
theorem render_ofHooks (hooks : List (Hook × HookId))
    (hids : ∀ entry ∈ hooks, entry.2 = entry.1.id) :
    let definitions := (hooks.map Prod.fst).eraseDups
    let ids := (hooks.map Prod.snd).eraseDups
    (∀ format, (ofHooks hooks).render format =
      defaultsRule format ids ++ format.newline ++
        String.intercalate format.newline (definitions.map (overrideBlock format))) ∧
    (∀ entry ∈ hooks, ids.count entry.2 = 1 ∧ definitions.count entry.1 = 1) ∧
    (∀ registrations r, Registry.build registrations = .ok r →
      r.stylesheet = ofHooks (registrations.map fun entry => (entry.2, entry.2.id))) ∧
    (∀ before name hook after r, Registry.build (before ++ (name, hook) :: after) = .ok r →
      hook ∈ before.map Prod.snd →
      ∃ r', Registry.build (before ++ after) = .ok r' ∧
        ∀ format, r'.stylesheet.render format = r.stylesheet.render format) := by
  intro definitions ids
  refine ⟨?_, ?_, ?_, ?_⟩
  · intro format
    have hsame : (hooks.map Prod.fst).map Hook.id = hooks.map Prod.snd := by
      rw [List.map_map]
      exact List.map_congr_left fun entry hentry => (hids entry hentry).symm
    rw [ofHooks_eq_ofHookList hids, ofHookList_eq, render_eq_parts, hsame]
  · intro entry hentry
    exact ⟨count_eraseDups (List.mem_map_of_mem hentry),
      count_eraseDups (List.mem_map_of_mem hentry)⟩
  · intro registrations r h
    rw [Registry.stylesheet_of_build h, ofHookList, List.map_map]
    rfl
  · intro before name hook after r h hearlier
    obtain ⟨r', hr', hsheet⟩ := Registry.stylesheet_append_cons h hearlier
    exact ⟨r', hr', fun format => by rw [hsheet]⟩

/-- Two hooks that share an identifier, and the first of them again under another
name. -/
theorem render_ofHooks_collision :
    let a : Hook := .selector "&.Aa"
    let b : Hook := .selector "&.BB"
    a ≠ b ∧ a.id = b.id ∧
    (ofHooks [(a, a.id), (b, b.id), (a, a.id)]).render .minified =
      "*\x7b--gpa3w8-0:initial;--gpa3w8-1:;\x7d" ++
      "*.Aa\x7b--gpa3w8-0:;--gpa3w8-1:initial;\x7d" ++
      "*.BB\x7b--gpa3w8-0:;--gpa3w8-1:initial;\x7d" ∧
    ∃ r r', Registry.build [("a", a), ("b", b), ("c", a)] = .ok r ∧
      Registry.build [("a", a), ("b", b)] = .ok r' ∧
      r'.stylesheet.render .pretty = r.stylesheet.render .pretty := by
  intro a b
  have hid : a.id = ⟨"gpa3w8"⟩ := by decide +kernel
  have hid' : b.id = ⟨"gpa3w8"⟩ := by decide +kernel
  have hids : ∀ entry ∈ [(a, a.id), (b, b.id), (a, a.id)], entry.2 = entry.1.id := by simp
  obtain ⟨htext, -, -, hdelete⟩ := render_ofHooks [(a, a.id), (b, b.id), (a, a.id)] hids
  have hregistrable : Registry.Registrable ([("a", a), ("b", b)] ++ ("c", a) :: []) :=
    .of_nodup (by simp) (by simp)
  obtain ⟨r, hr⟩ := Registry.exists_build_iff.2 hregistrable
  obtain ⟨r', hr', hsame⟩ := hdelete [("a", a), ("b", b)] "c" a [] r hr (by simp)
  refine ⟨by decide, hid.trans hid'.symm, ?_, r, r', hr, hr', hsame .pretty⟩
  rw [htext]
  decide +kernel

end Stylesheet

end Cascade
