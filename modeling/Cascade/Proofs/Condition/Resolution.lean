import Cascade.Proofs.Condition.Choice
import Cascade.Proofs.Value.Substitution

/-!
# Compiled conditions resolve to the selected literal

The value that a condition is compiled to is resolved to what the literal is
resolved to that the truth of the condition selects. The literals may be any
balanced texts, also with calls of their own.

The two references to a hook are the only place where texts are put together
(`substitute_compileHook`). Everything about whole conditions follows from it by
what holds of choices of any kind.
-/

namespace Cascade.Condition

open Value
open Logged (value_run_bind)

/-! ## The two references to a hook -/

variable {isActive : HookId → Bool} {id : HookId} {t f : String}

theorem balanced_reference {toggle : Toggle} (hid : toggle.id.WellFormed) {cs : List Char}
    (h : Balanced cs) : Balanced (toggle.property.toList ++ ',' :: ' ' :: cs) := by
  have hplain : ∀ c ∈ toggle.property.toList ++ [',', ' '], isPlain c = true := by
    intro c hc
    rw [List.mem_append] at hc
    rcases hc with hc | hc
    · exact isPlain_of_not_delimiter (Toggle.no_delimiter_property hid c hc)
    · simp only [List.mem_cons, List.not_mem_nil, or_false] at hc
      rcases hc with rfl | rfl <;> decide
  have := (balanced_of_isPlain hplain).append h
  simpa using this

/-- The two references, each with its arguments in parentheses. -/
theorem toList_compileHook (id : HookId) (t f : String) :
    (compileHook id t f).toList =
      callStart ++ ((id.on.toList ++ ',' :: ' ' :: t.toList) ++ ')' :: ' ' ::
        (callStart ++ ((id.off.toList ++ ',' :: ' ' :: f.toList) ++ ')' :: []))) := by
  simp [compileHook_eq, callStart]

theorem balanced_compileHook (hid : id.WellFormed) (ht : Balanced t.toList)
    (hf : Balanced f.toList) : Balanced (compileHook id t f).toList := by
  have hon : Balanced (id.on.toList ++ ',' :: ' ' :: t.toList) := balanced_reference hid ht
  have hoff : Balanced (id.off.toList ++ ',' :: ' ' :: f.toList) := balanced_reference hid hf
  have hblank : Balanced [' '] := by decide
  rw [toList_compileHook]
  simpa using hon.call.append (hblank.append hoff.call)

/-- What the two references to a hook do, given what the literals do. Each of them
asks for the state of the hook. If the hook is active the first literal is
resolved between the two questions, and otherwise the second one after both. -/
def references (isActive : HookId → Bool) (id : HookId)
    (first second : Resolution (List Char)) : Resolution (List Char) :=
  if isActive id then do
    let _ ← askState isActive id
    let value ← first
    let _ ← askState isActive id
    return value ++ [' ']
  else do
    let _ ← askState isActive id
    let _ ← askState isActive id
    let value ← second
    return ' ' :: value

/-- Only the literal of the hook's state is resolved. -/
theorem references_selected {first second first' second' : Resolution (List Char)}
    (h : if isActive id then first = first' else second = second') :
    references isActive id first second = references isActive id first' second' := by
  rw [references, references]
  split at h
  · next ha => rw [if_pos ha, if_pos ha, h]
  · next ha => rw [if_neg ha, if_neg ha, h]

/-- The resolution of a text that stands by itself. -/
def alone (isActive : HookId → Bool) (cs : List Char) : Resolution (List Char) :=
  substitute isActive cs cs

theorem substitute_compileHook (hid : id.WellFormed) (ht : Balanced t.toList)
    (hf : Balanced f.toList) (whole : List Char) :
    substitute isActive whole (compileHook id t f).toList =
      references isActive id (alone isActive (' ' :: t.toList))
        (alone isActive (' ' :: f.toList)) := by
  have hon : Balanced (id.on.toList ++ ',' :: ' ' :: t.toList) := balanced_reference hid ht
  have hoff : Balanced (id.off.toList ++ ',' :: ' ' :: f.toList) := balanced_reference hid hf
  have hnil : substitute isActive whole [] = pure [] := substitute_of_no_call rfl
  rw [toList_compileHook, substitute_call hon, substitute_blank, substitute_call hoff, hnil,
    HookId.on, HookId.off, resolveCall_property hid, resolveCall_property hid]
  simp only [askState_bind]
  cases hactive : isActive id <;> simp [references, alone, hactive, Toggle.isValid]

/-! ## What the two references come to -/

theorem value_askState_bind {β : Type} (next : Resolution β) :
    (askState isActive id >>= fun _ => next).run.value = next.run.value := by
  rw [value_run_bind]
  rfl

theorem gist_references (first second : Resolution (List Char)) :
    gist (references isActive id first second).run.value =
      if isActive id then gist first.run.value else gist second.run.value := by
  have hblank : Text.isBlank ' ' = true := by decide
  rw [references]
  split
  · rw [value_askState_bind, value_run_bind]
    cases first.run.value with
    | error error => rfl
    | ok value =>
      show gist (.ok (value ++ ' ' :: [])) = gist (.ok value)
      rw [gist_ok, gist_ok, Text.words_append_cons hblank, Text.words_nil, List.append_nil]
  · rw [value_askState_bind, value_askState_bind, value_run_bind]
    cases second.run.value with
    | error error => rfl
    | ok value =>
      show gist (.ok (' ' :: value)) = gist (.ok value)
      rw [gist_ok, gist_ok, Text.words_blank_cons hblank]

/-- The two references come to what the literal of the hook's state comes to. -/
theorem outcome_compileHook (hid : id.WellFormed) (ht : Balanced t.toList)
    (hf : Balanced f.toList) :
    outcome isActive (compileHook id t f).toList =
      if isActive id then outcome isActive t.toList else outcome isActive f.toList := by
  rw [outcome, substitute_compileHook hid ht hf, gist_references,
    ← outcome_blank isActive t.toList, ← outcome_blank isActive f.toList]
  rfl

/-! ## Whole conditions -/

variable {c : Condition HookId}

/-- What follows the two references to each leaf, for balanced literals, follows
the condition. -/
theorem map_compile {Y : Type} {φ : String → Y} {atLeaf : HookId → Y → Y → Y}
    (hids : ∀ id ∈ c.leaves, id.WellFormed)
    (hleaf : ∀ id ∈ c.leaves, ∀ t f : String, Balanced t.toList → Balanced f.toList →
      φ (compileHook id t f) = atLeaf id (φ t) (φ f))
    (ht : Balanced t.toList) (hf : Balanced f.toList) :
    φ (c.compile t f) = c.choose atLeaf (φ t) (φ f) := by
  let Q (s : String) : Prop := Balanced s.toList
  have hclosed : ∀ id ∈ c.leaves, ∀ t f, Q t → Q f → Q (compileHook id t f) :=
    fun id hid _ _ => balanced_compileHook (hids id hid)
  rw [compile_eq_choose]
  exact map_choose hclosed hleaf ht hf

/-- A compiled condition comes to what the selected literal comes to. -/
theorem outcome_compile (hids : ∀ id ∈ c.leaves, id.WellFormed)
    (ht : Balanced t.toList) (hf : Balanced f.toList) :
    outcome isActive (c.compile t f).toList =
      outcome isActive (if c.eval isActive then t else f).toList := by
  let φ (s : String) := outcome isActive s.toList
  have hleaf : ∀ id ∈ c.leaves, ∀ t f : String, Balanced t.toList → Balanced f.toList →
      φ (compileHook id t f) = if isActive id then φ t else φ f :=
    fun id hid _ _ => outcome_compileHook (hids id hid)
  show φ (c.compile t f) = φ (if c.eval isActive then t else f)
  rw [map_compile hids hleaf ht hf, choose_ite]
  cases c.eval isActive <;> rfl

/-- A literal without a call is what the compiled condition resolves to, if it is
the selected one. -/
theorem resolve_compile_literal (hids : ∀ id ∈ c.leaves, id.WellFormed)
    (ht : Balanced t.toList) (hf : Balanced f.toList)
    (hcall : ¬callStart <:+: (if c.eval isActive then t else f).toList) :
    resolve isActive (c.compile t f) =
      .ok (String.ofList (Text.squeeze (if c.eval isActive then t else f).toList)) := by
  rw [resolve_eq_ok_iff, outcome_compile hids ht hf]
  exact ⟨_, outcome_of_no_call hcall, rfl⟩

/-! ## The other literal

Where a text is the fallback of a reference it is read with a space in front, and
a missing parenthesis is reported with that space. To follow the texts of
failures too, a literal is taken both ways. -/

/-- The resolution of a text by itself, and with a space in front. -/
def readings (isActive : HookId → Bool) (s : String) :
    Resolution (List Char) × Resolution (List Char) :=
  (alone isActive s.toList, alone isActive (' ' :: s.toList))

/-- The readings of the two references to a hook, given those of the literals. -/
def readingsAt (isActive : HookId → Bool) (id : HookId)
    (first second : Resolution (List Char) × Resolution (List Char)) :
    Resolution (List Char) × Resolution (List Char) :=
  (references isActive id first.2 second.2,
    (' ' :: ·) <$> references isActive id first.2 second.2)

theorem readings_compileHook (hid : id.WellFormed) (ht : Balanced t.toList)
    (hf : Balanced f.toList) :
    readings isActive (compileHook id t f) =
      readingsAt isActive id (readings isActive t) (readings isActive f) := by
  simp only [readings, readingsAt, alone, substitute_blank _ _ (compileHook id t f).toList,
    substitute_compileHook hid ht hf]

theorem readingsAt_selected (id : HookId)
    (first second first' second' : Resolution (List Char) × Resolution (List Char))
    (h : if isActive id then first = first' else second = second') :
    readingsAt isActive id first second = readingsAt isActive id first' second' := by
  have hrefs : references isActive id first.2 second.2 =
      references isActive id first'.2 second'.2 := by
    apply references_selected
    split at h
    · next ha => rw [if_pos ha, h]
    · next ha => rw [if_neg ha, h]
  rw [readingsAt, readingsAt, hrefs]

theorem readings_compile (hids : ∀ id ∈ c.leaves, id.WellFormed)
    (ht : Balanced t.toList) (hf : Balanced f.toList) :
    readings isActive (c.compile t f) =
      c.choose (readingsAt isActive) (readings isActive t) (readings isActive f) :=
  map_compile hids (fun id hid _ _ => readings_compileHook (hids id hid)) ht hf

/-- The resolution of a compiled condition, with the questions asked and the texts
of failures, depends on the selected literal alone. -/
theorem resolution_compile_congr (hids : ∀ id ∈ c.leaves, id.WellFormed) {t' f' : String}
    (ht : Balanced t.toList) (hf : Balanced f.toList) (ht' : Balanced t'.toList)
    (hf' : Balanced f'.toList) (h : if c.eval isActive then t = t' else f = f') :
    resolution isActive (c.compile t f) = resolution isActive (c.compile t' f') := by
  have hreadings : readings isActive (c.compile t f) = readings isActive (c.compile t' f') := by
    rw [readings_compile hids ht hf, readings_compile hids ht' hf']
    apply choose_selected readingsAt_selected
    split at h
    · next hc => rw [if_pos hc, h]
    · next hc => rw [if_neg hc, h]
  have halone : alone isActive (c.compile t f).toList = alone isActive (c.compile t' f').toList :=
    congrArg Prod.fst hreadings
  rw [resolution, resolution]
  show alone isActive _ >>= _ = alone isActive _ >>= _
  rw [halone]

/-- The value that a condition is compiled to has the result that the literal has
which the truth of the condition selects, or fails as that literal does. The
other literal has no part in it, also not in the questions asked and the texts
of failures. -/
theorem resolve_compile (c : Condition HookId) (isActive : HookId → Bool) (t f : String)
    (hids : ∀ id ∈ c.leaves, id.WellFormed)
    (ht : Balanced t.toList) (hf : Balanced f.toList) :
    let v := if c.eval isActive then t else f
    (∀ r, resolve isActive (c.compile t f) = .ok r ↔ resolve isActive v = .ok r) ∧
    (∀ e, resolve isActive v = .error e →
      ∃ e', resolve isActive (c.compile t f) = .error e' ∧ e'.kind = e.kind) ∧
    (∀ u, Balanced u.toList →
      resolution isActive (c.compile t f) =
        resolution isActive (if c.eval isActive then c.compile t u else c.compile u f)) ∧
    (¬"var(".toList <:+: v.toList →
      resolve isActive (c.compile t f) = .ok (String.ofList (Text.squeeze v.toList))) := by
  intro v
  have hv : outcome isActive (c.compile t f).toList = outcome isActive v.toList :=
    outcome_compile hids ht hf
  refine ⟨?_, ?_, ?_, ?_⟩
  · intro r
    rw [resolve_eq_ok_iff, resolve_eq_ok_iff, hv]
  · intro e he
    rw [exists_resolve_eq_error_iff, hv]
    exact exists_resolve_eq_error_iff.1 ⟨e, he, rfl⟩
  · intro u hu
    split
    · next hc => exact resolution_compile_congr hids ht hf ht hu (by rw [if_pos hc])
    · next hc => exact resolution_compile_congr hids ht hf hu hf (by rw [if_neg hc])
  · exact resolve_compile_literal hids ht hf

/-- The selected literal has parentheses, a comma and a parenthesis in quotes in
it, and the other one has a call. -/
theorem resolve_compile_nested :
    let c : Condition HookId := all [leaf ⟨"dark"⟩, not (any [leaf ⟨"hover"⟩, any []])]
    (∀ id ∈ c.leaves, id.WellFormed) ∧
    Balanced "url( \"a, b)\" )  red".toList ∧ Balanced "var(--x, f(y))".toList ∧
    resolve (fun id => id.text == "dark") (c.compile "url( \"a, b)\" )  red" "var(--x, f(y))") =
      .ok "url( \"a, b)\" ) red" := by
  intro c
  have hids : ∀ id ∈ c.leaves, id.WellFormed := by
    intro id hid
    rcases (show id = ⟨"dark"⟩ ∨ id = ⟨"hover"⟩ by simpa [c] using hid) with rfl | rfl
    · decide
    · decide
  have ht : Balanced "url( \"a, b)\" )  red".toList := by decide
  have hf : Balanced "var(--x, f(y))".toList := by decide
  refine ⟨hids, ht, hf, ?_⟩
  have hc : c.eval (fun id => id.text == "dark") = true := by decide
  have hcall : ¬"var(".toList <:+: "url( \"a, b)\" )  red".toList :=
    cutCall_eq_none_iff.1 (by decide)
  have hwords : Text.squeeze "url( \"a, b)\" )  red".toList = "url( \"a, b)\" ) red".toList := by
    decide
  have h := (resolve_compile c (fun id => id.text == "dark") _ _ hids ht hf).2.2.2
  rw [hc, if_pos rfl, hwords, String.ofList_toList] at h
  exact h hcall

end Cascade.Condition
