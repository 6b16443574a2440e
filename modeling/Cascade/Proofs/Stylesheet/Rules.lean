import Cascade.Proofs.Distinct
import Cascade.Proofs.Toggle
import Cascade.Stylesheet

/-!
# Stylesheets in force

A stylesheet is a first rule, which is always in force, and further rules, each
in force where its hook applies. `Rule.write` is the text of such rules, and
`render_eq_write` says that it is the text of the stylesheet.

The declarations of the rules in force are applied one after the other, and the
last one that sets a property decides (`applyAll_of_declared`,
`applyAll_of_not_declared`). After the rules of a stylesheet every toggle has the
value that the state of its hook gives it, whatever had been declared before
(`cascade_property`).
-/

namespace Cascade

/-! ## Rules -/

namespace Declaration

/-- The value that a declaration gives to its property: nothing, or the keyword
that makes the property invalid. -/
def value (d : Declaration) : String := if d.valid then "" else "initial"

theorem text_eq (format : Format) (d : Declaration) :
    d.text format = d.toggle.property ++ ":" ++ format.space ++ d.value ++ ";" := rfl

end Declaration

/-- The declarations of a rule, and the hook that has to apply for it to be in
force, if there is one. -/
structure Rule where
  hook : Option Hook
  declarations : List Declaration

namespace Rule

/-- Whether the rule is in force when the hooks with `applies` apply. -/
def inForce (applies : Hook → Bool) (rule : Rule) : Bool :=
  match rule.hook with
  | none => true
  | some hook => applies hook

/-- The lines in front of the declarations. -/
def opening (format : Format) (rule : Rule) : List String :=
  match rule.hook with
  | none => ["*" ++ format.space ++ "\x7b"]
  | some (.selector pattern) =>
    [pattern.map (fun c => if c = '&' then '*' else c) ++ format.space ++ "\x7b"]
  | some (.atRule name body) => [(Hook.atRule name body).text ++ " \x7b", format.indent ++ "* \x7b"]

/-- What the declarations are indented by. -/
def indent (format : Format) (rule : Rule) : String :=
  match rule.hook with
  | some (.atRule _ _) => format.indent ++ format.indent
  | _ => format.indent

/-- The declarations, one a line: a property and its value. -/
def body (format : Format) (rule : Rule) : List String :=
  rule.declarations.map fun d =>
    rule.indent format ++ (d.toggle.property ++ ":" ++ format.space ++ d.value ++ ";")

/-- The lines after the declarations. -/
def closing (format : Format) (rule : Rule) : List String :=
  match rule.hook with
  | some (.atRule _ _) => [format.indent ++ "\x7d", "\x7d"]
  | _ => ["\x7d"]

/-- The text of rules. A line of its own closes the first one, and the others
follow one another. -/
def write (format : Format) : List Rule → String
  | [] => ""
  | first :: others =>
    String.intercalate format.newline (first.opening format) ++ format.newline ++
      String.intercalate format.newline (first.body format) ++ format.newline ++
      String.intercalate format.newline (first.closing format) ++ format.newline ++
      String.intercalate format.newline (others.flatMap fun rule =>
        rule.opening format ++ rule.body format ++ rule.closing format)

end Rule

namespace Stylesheet

/-- The rule that is always in force. -/
def firstRule (sheet : Stylesheet) : Rule :=
  ⟨none, sheet.defaults.flatMap (Declaration.pair · false)⟩

/-- The rules of the hooks. -/
def hookRules (sheet : Stylesheet) : List Rule :=
  sheet.overrides.map fun entry => ⟨some entry.1, Declaration.pair entry.2 true⟩

/-- All rules, in order. -/
def rules (sheet : Stylesheet) : List Rule := sheet.firstRule :: sheet.hookRules

theorem universal_eq_map (pattern : String) :
    universal pattern = pattern.map fun c => if c = '&' then '*' else c := by
  apply String.toList_injective
  rw [universal, String.toList_ofList, String.toList_map]
  rfl

theorem block_eq (format : Format) (entry : Hook × HookId) :
    block format entry =
      let rule : Rule := ⟨some entry.1, Declaration.pair entry.2 true⟩
      rule.opening format ++ rule.body format ++ rule.closing format := by
  obtain ⟨hook, id⟩ := entry
  cases hook with
  | selector pattern => rw [block, universal_eq_map]; rfl
  | atRule rule body => rfl

/-- The text of a stylesheet is that of its rules, in order. -/
theorem render_eq_write (format : Format) (sheet : Stylesheet) :
    sheet.render format = Rule.write format sheet.rules := by
  have hfirst : sheet.defaults.flatMap (pairLines format format.indent · false) =
      sheet.firstRule.body format := by
    simp [pairLines, firstRule, Rule.body, Rule.indent, List.map_flatMap, Declaration.text_eq]
  have hblocks : sheet.overrides.flatMap (block format) = sheet.hookRules.flatMap fun rule =>
      rule.opening format ++ rule.body format ++ rule.closing format := by
    simp only [hookRules, List.flatMap_map]
    congr
    funext entry
    exact block_eq format entry
  rw [render, rules, Rule.write, hfirst, hblocks]
  rfl

/-- The declarations of the rules in force: those of the first rule, and then those of the
hooks that apply. -/
theorem declarations_inForce (sheet : Stylesheet) (applies : Hook → Bool) :
    (sheet.rules.filter (Rule.inForce applies)).flatMap Rule.declarations =
      sheet.defaults.flatMap (Declaration.pair · false) ++
        (sheet.overrides.filter fun entry => applies entry.1).flatMap
          fun entry => Declaration.pair entry.2 true := by
  have hfirst : Rule.inForce applies sheet.firstRule = true := rfl
  have hhooks : sheet.hookRules.filter (Rule.inForce applies) =
      (sheet.overrides.filter fun entry => applies entry.1).map fun entry =>
        ⟨some entry.1, Declaration.pair entry.2 true⟩ := by
    rw [hookRules, List.filter_map]
    rfl
  rw [rules, List.filter_cons, if_pos hfirst, List.flatMap_cons, hhooks, List.flatMap_map]
  rfl

end Stylesheet

/-! ## Declarations applied -/

namespace Declaration

/-- The values of all properties after a declaration. -/
def apply (env : String → String) (d : Declaration) : String → String :=
  fun property => if property = d.toggle.property then d.value else env property

/-- The values of all properties after some declarations. -/
def applyAll (env : String → String) (ds : List Declaration) : String → String :=
  ds.foldl apply env

theorem apply_property (env : String → String) (d : Declaration) (toggle : Toggle) :
    apply env d toggle.property = if toggle = d.toggle then d.value else env toggle.property := by
  simp only [apply, Toggle.property_inj]

/-- A property that is not set keeps its value. -/
theorem applyAll_of_not_declared {ds : List Declaration} {toggle : Toggle}
    (h : ∀ d ∈ ds, d.toggle ≠ toggle) (env : String → String) :
    applyAll env ds toggle.property = env toggle.property := by
  induction ds generalizing env with
  | nil => rfl
  | cons d ds ih =>
    rw [List.forall_mem_cons] at h
    show applyAll (apply env d) ds toggle.property = _
    rw [ih h.2, apply_property, if_neg h.1.symm]

/-- A property that is set, always to the same value, has that value. -/
theorem applyAll_of_declared {ds : List Declaration} {toggle : Toggle} {valid : Bool}
    (hset : ⟨toggle, valid⟩ ∈ ds) (hsame : ∀ d ∈ ds, d.toggle = toggle → d.valid = valid)
    (env : String → String) :
    applyAll env ds toggle.property = value ⟨toggle, valid⟩ := by
  induction ds generalizing env with
  | nil => simp at hset
  | cons d ds ih =>
    rw [List.forall_mem_cons] at hsame
    show applyAll (apply env d) ds toggle.property = _
    by_cases hlater : (⟨toggle, valid⟩ : Declaration) ∈ ds
    · exact ih hlater hsame.2 (apply env d)
    · have hd : d = ⟨toggle, valid⟩ := by
        rw [List.mem_cons] at hset
        exact (hset.resolve_right hlater).symm
      have hrest : ∀ e ∈ ds, e.toggle ≠ toggle := by
        intro e he het
        have hev := hsame.2 e he het
        obtain ⟨etoggle, evalid⟩ := e
        simp only at het hev
        rw [het, hev] at he
        exact hlater he
      rw [applyAll_of_not_declared hrest, apply_property, hd, if_pos rfl]

theorem mem_pair {id : HookId} {active : Bool} {d : Declaration} :
    d ∈ pair id active ↔ d.toggle.id = id ∧ d.valid = d.toggle.isValid active := by
  obtain ⟨⟨id', on⟩, valid⟩ := d
  cases on <;> simp [pair, Toggle.isValid]

end Declaration

/-! ## Distinct entries -/

namespace Stylesheet

variable {α β κ ι : Type} [DecidableEq κ] [DecidableEq ι]

theorem mem_of_mem_firsts {key : α → κ} {as : List α} {a : α} (h : a ∈ firsts key as) :
    a ∈ as := by
  induction as with
  | nil => exact h
  | cons b as ih =>
    rw [firsts, List.mem_cons, List.mem_filter] at h
    rcases h with rfl | h
    · exact List.mem_cons_self
    · exact List.mem_cons_of_mem b (ih h.1)

/-- Every key that occurs is kept. -/
theorem exists_mem_firsts (key : α → κ) {as : List α} {a : α} (h : a ∈ as) :
    ∃ b ∈ firsts key as, key b = key a := by
  induction as with
  | nil => exact absurd h List.not_mem_nil
  | cons c as ih =>
    rw [firsts]
    by_cases hkey : key a = key c
    · exact ⟨c, List.mem_cons_self, hkey.symm⟩
    · rcases List.mem_cons.1 h with rfl | h
      · exact absurd rfl hkey
      · obtain ⟨b, hb, hba⟩ := ih h
        refine ⟨b, ?_, hba⟩
        apply List.mem_cons_of_mem
        rw [List.mem_filter, hba]
        exact ⟨hb, decide_eq_true hkey⟩

/-- Of elements that are their own keys, each is kept where it came first. -/
theorem firsts_eq_eraseDups (as : List κ) :
    firsts (fun a => a) as = as.eraseDups := by
  induction as with
  | nil => rfl
  | cons a as ih =>
    rw [firsts, ih, List.eraseDups_cons, eraseDups_filter]
    congr
    funext b
    rw [decide_not]
    rfl

theorem firsts_map (key : β → κ) (f : α → β) (as : List α) :
    firsts key (as.map f) = (firsts (fun a => key (f a)) as).map f := by
  induction as with
  | nil => rfl
  | cons a as ih =>
    rw [List.map_cons, firsts, firsts, ih, List.map_cons, List.filter_map]
    rfl

/-- Keys that tell the same elements apart keep the same ones. -/
theorem firsts_congr {key : α → κ} {key' : α → ι} {as : List α}
    (h : ∀ a ∈ as, ∀ b ∈ as, key a = key b ↔ key' a = key' b) :
    firsts key as = firsts key' as := by
  induction as with
  | nil => rfl
  | cons a as ih =>
    have htail : firsts key as = firsts key' as := by
      apply ih
      intro b hb c hc
      exact h b (List.mem_cons_of_mem a hb) c (List.mem_cons_of_mem a hc)
    rw [firsts, firsts, htail]
    congr 1
    apply List.filter_congr
    intro b hb
    have hab := h b (List.mem_cons_of_mem a (mem_of_mem_firsts hb)) a List.mem_cons_self
    simp only [ne_eq, hab]

/-! ## Toggles after a stylesheet -/

/-- Whether a hook with this identifier applies. -/
def isActive (hooks : List Hook) (applies : Hook → Bool) (i : HookId) : Bool :=
  hooks.any fun hook => hook.id == i && applies hook

theorem isActive_eq_true_iff {hooks : List Hook} {applies : Hook → Bool} {i : HookId} :
    isActive hooks applies i = true ↔ ∃ hook ∈ hooks, hook.id = i ∧ applies hook = true := by
  simp [isActive]

/-- The stylesheet of hooks, each with its own identifier. -/
def ofHookList (hooks : List Hook) : Stylesheet := ofHooks (hooks.map fun hook => (hook, hook.id))

variable {hooks : List Hook} {applies : Hook → Bool} {i : HookId} {d : Declaration}

theorem mem_overrides_ofHookList {entry : Hook × HookId} :
    entry ∈ (ofHookList hooks).overrides ↔ entry.1 ∈ hooks ∧ entry.2 = entry.1.id := by
  constructor
  · intro h
    obtain ⟨hook, hhook, rfl⟩ := List.mem_map.1 (mem_of_mem_firsts h)
    exact ⟨hhook, rfl⟩
  · rintro ⟨hmem, hid⟩
    obtain ⟨hook, i⟩ := entry
    obtain rfl : i = hook.id := hid
    have hlisted : (hook, hook.id) ∈ hooks.map fun hook => (hook, hook.id) :=
      List.mem_map.2 ⟨hook, hmem, rfl⟩
    obtain ⟨first, hfirst, hsame⟩ := exists_mem_firsts Prod.fst hlisted
    obtain ⟨hook', -, rfl⟩ := List.mem_map.1 (mem_of_mem_firsts hfirst)
    obtain rfl : hook' = hook := hsame
    exact hfirst

theorem mem_defaults_ofHookList :
    i ∈ (ofHookList hooks).defaults ↔ ∃ hook ∈ hooks, hook.id = i := by
  constructor
  · intro h
    obtain ⟨entry, hentry, rfl⟩ := List.mem_map.1 (mem_of_mem_firsts h)
    obtain ⟨hmem, hid⟩ := mem_overrides_ofHookList.1 hentry
    exact ⟨entry.1, hmem, hid.symm⟩
  · rintro ⟨hook, hmem, rfl⟩
    have hentry : (hook, hook.id) ∈ (ofHookList hooks).overrides :=
      mem_overrides_ofHookList.2 ⟨hmem, rfl⟩
    have hlisted : hook.id ∈ (ofHookList hooks).overrides.map Prod.snd :=
      List.mem_map.2 ⟨_, hentry, rfl⟩
    obtain ⟨first, hfirst, hsame⟩ := exists_mem_firsts id hlisted
    obtain rfl : first = hook.id := hsame
    exact hfirst

/-- What the first rule says of a toggle. -/
theorem mem_defaults_pairs :
    d ∈ (ofHookList hooks).defaults.flatMap (Declaration.pair · false) ↔
      (∃ hook ∈ hooks, hook.id = d.toggle.id) ∧ d.valid = d.toggle.isValid false := by
  simp only [List.mem_flatMap, Declaration.mem_pair]
  constructor
  · rintro ⟨i, hi, hid, hvalid⟩
    rw [hid]
    exact ⟨mem_defaults_ofHookList.1 hi, hvalid⟩
  · rintro ⟨hhook, hvalid⟩
    exact ⟨d.toggle.id, mem_defaults_ofHookList.2 hhook, rfl, hvalid⟩

/-- What the rules of the hooks that apply say of a toggle. -/
theorem mem_overrides_pairs :
    d ∈ ((ofHookList hooks).overrides.filter fun entry => applies entry.1).flatMap
        (fun entry => Declaration.pair entry.2 true) ↔
      isActive hooks applies d.toggle.id = true ∧ d.valid = d.toggle.isValid true := by
  simp only [List.mem_flatMap, List.mem_filter, Declaration.mem_pair, isActive_eq_true_iff]
  constructor
  · rintro ⟨entry, ⟨hentry, happlies⟩, hid, hvalid⟩
    obtain ⟨hmem, hown⟩ := mem_overrides_ofHookList.1 hentry
    exact ⟨⟨entry.1, hmem, by rw [hid, hown], happlies⟩, hvalid⟩
  · rintro ⟨⟨hook, hmem, hid, happlies⟩, hvalid⟩
    exact ⟨(hook, hook.id), ⟨mem_overrides_ofHookList.2 ⟨hmem, rfl⟩, happlies⟩, hid.symm, hvalid⟩

/-- The values of all properties after the rules that are in force. -/
def cascade (sheet : Stylesheet) (applies : Hook → Bool) (env : String → String) :
    String → String :=
  Declaration.applyAll env ((sheet.rules.filter (Rule.inForce applies)).flatMap Rule.declarations)

/-- After the rules of a stylesheet a toggle of one of its hooks has the value
that goes with the state of the hook. -/
theorem cascade_property (env : String → String) (applies : Hook → Bool) {hook : Hook}
    (hhook : hook ∈ hooks) (on : Bool) :
    (ofHookList hooks).cascade applies env (Toggle.property ⟨hook.id, on⟩) =
      Declaration.value
        ⟨⟨hook.id, on⟩, Toggle.isValid ⟨hook.id, on⟩ (isActive hooks applies hook.id)⟩ := by
  rw [cascade, declarations_inForce, Declaration.applyAll, List.foldl_append]
  show Declaration.applyAll (Declaration.applyAll env _) _ _ = _
  cases hactive : isActive hooks applies hook.id with
  | true =>
    apply Declaration.applyAll_of_declared
    · exact mem_overrides_pairs.2 ⟨hactive, rfl⟩
    · intro d hd htoggle
      rw [(mem_overrides_pairs.1 hd).2, htoggle]
  | false =>
    rw [Declaration.applyAll_of_not_declared]
    · apply Declaration.applyAll_of_declared
      · exact mem_defaults_pairs.2 ⟨⟨hook, hhook, rfl⟩, rfl⟩
      · intro d hd htoggle
        rw [(mem_defaults_pairs.1 hd).2, htoggle]
    · intro d hd htoggle
      have hother := (mem_overrides_pairs.1 hd).1
      rw [htoggle, hactive] at hother
      exact absurd hother nofun

end Stylesheet

end Cascade
