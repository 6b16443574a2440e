import Cascade.Proofs.Condition.Resolution
import Cascade.Proofs.Table
import Cascade.Proofs.Value.Expression

/-!
# Literals that come through

A compiled condition resolves to the selected literal itself, up to white space, if
there is no call in the literal. This is the only case. Parentheses and commas are
looked for outside of quotes, but a call is looked for anywhere, so `var(` in a
quoted string is a call like any other, and no call is left in the result.

To see that something is missing from a result, its characters other than white
space are counted, its ink. A call is replaced by its fallback or by nothing, so
resolution never adds ink, and where there is a call it takes some away
(`length_ink_substitute`).
-/

namespace Cascade

/-! ## Ink -/

namespace Text

/-- The characters other than white space. -/
def ink (cs : List Char) : List Char := cs.filter fun c => !isBlank c

@[simp] theorem ink_append (cs ds : List Char) : ink (cs ++ ds) = ink cs ++ ink ds :=
  List.filter_append ..

theorem length_ink_le {cs ds : List Char} (h : cs <:+: ds) : (ink cs).length ≤ (ink ds).length :=
  (h.sublist.filter _).length_le

theorem flatten_splitOnP_isBlank (cs : List Char) : (cs.splitOnP isBlank).flatten = ink cs := by
  induction cs with
  | nil => rfl
  | cons c cs ih =>
    rw [List.splitOnP_cons_eq_if_modifyHead]
    by_cases hc : isBlank c = true
    · simpa [ink, hc] using ih
    · obtain ⟨first, others, hsplit⟩ := List.exists_cons_of_ne_nil (List.splitOnP_ne_nil isBlank cs)
      rw [hsplit, List.flatten_cons] at ih
      simpa [ink, hc, hsplit] using ih

/-- The words of a text are its ink. -/
theorem flatten_words (cs : List Char) : (words cs).flatten = ink cs := by
  rw [words, List.flatten_filter_not_isEmpty, flatten_splitOnP_isBlank]

theorem ink_intercalate (words : List (List Char)) :
    ink ([' '].intercalate words) = ink words.flatten := by
  have hblank : ink [' '] = [] := by decide
  induction words with
  | nil => rfl
  | cons first others ih =>
    cases others with
    | nil => simp [List.intercalate]
    | cons second others =>
      rw [List.intercalate_cons_cons, ink_append, ink_append, ih, hblank, List.append_nil,
        ← ink_append, ← List.flatten_cons]

/-- To squeeze a text takes away no ink. -/
theorem ink_squeeze (cs : List Char) : ink (squeeze cs) = ink cs := by
  rw [squeeze, ink_intercalate, flatten_words, ink, ink, List.filter_filter]
  simp only [Bool.and_self]

end Text

/-! ## Resolution takes ink away -/

namespace Value

open Logged (value_run_bind)
open Text (ink)

variable {isActive : HookId → Bool} {whole cs arguments fallback : List Char}

theorem Call.isInfix_fallback (h : (ofArguments arguments).fallback = some fallback) :
    fallback <:+: arguments := by
  unfold ofArguments at h
  split at h
  · cases h
  · next property rest hc =>
    cases h
    exact ⟨property ++ [','], [], by simp [cutAt_eq_some hc]⟩

/-- The result of a call is empty or that of its fallback. -/
theorem value_resolveCall_eq_ok {value : List Char}
    (h : (resolveCall isActive arguments).run.value = .ok value) :
    value = [] ∨ ∃ fallback, (Call.ofArguments arguments).fallback = some fallback ∧
      (substitute isActive fallback fallback).run.value = .ok value := by
  rcases value_resolveCall_cases isActive arguments with
    hv | hv | ⟨property, hv⟩ | ⟨fallback, hfallback, hv⟩ <;> rw [hv] at h
  · cases h
  · exact .inl (Except.ok.inj h).symm
  · cases h
  · exact .inr ⟨fallback, hfallback, h⟩

/-- Resolution does not add ink, and a text with a call loses some. -/
theorem length_ink_substitute {result : List Char}
    (h : (substitute isActive whole cs).run.value = .ok result) :
    (ink result).length ≤ (ink cs).length ∧
      (callStart <:+: cs → (ink result).length < (ink cs).length) := by
  induction cs using substitute_induction generalizing whole result with
  | no_call cs hcut =>
    rw [substitute_of_no_call hcut] at h
    cases h
    exact ⟨Nat.le_refl _, fun hcall => absurd hcall (cutCall_eq_none_iff.1 hcut)⟩
  | unclosed cs before after hcut hclose =>
    rw [substitute_of_unclosed hcut hclose] at h
    cases h
  | closed cs before after arguments rest hcut hclose ihrest ihfallback =>
    rw [substitute_of_closed hcut hclose, value_run_bind, bind_eq_ok_iff] at h
    obtain ⟨value, hvalue, h⟩ := h
    rw [value_run_bind, bind_eq_ok_iff] at h
    obtain ⟨values, hvalues, h⟩ := h
    have hresult : before ++ value ++ values = result := Except.ok.inj h
    have hcall : (ink value).length ≤ (ink arguments).length := by
      rcases value_resolveCall_eq_ok hvalue with rfl | ⟨fallback, hfallback, hsubstitute⟩
      · exact Nat.zero_le _
      · exact Nat.le_trans (ihfallback fallback hfallback hsubstitute).1
          (Text.length_ink_le (Call.isInfix_fallback hfallback))
    have hrest : (ink values).length ≤ (ink rest).length := (ihrest hvalues).1
    have hparts : (ink cs).length =
        (ink before).length + (4 + ((ink arguments).length + (1 + (ink rest).length))) := by
      have hstart : (ink callStart).length = 4 := by decide
      have hparen : (ink [')']).length = 1 := by decide
      have hcs : cs = before ++ (callStart ++ (arguments ++ ([')'] ++ rest))) := by
        rw [cutCall_eq_some hcut, cutAt_eq_some hclose]
        rfl
      simp only [hcs, Text.ink_append, List.length_append, hstart, hparen]
    have hless : (ink result).length < (ink cs).length := by
      rw [← hresult, hparts]
      simp only [Text.ink_append, List.length_append]
      omega
    exact ⟨Nat.le_of_lt hless, fun _ => hless⟩

/-- A text resolves to itself, up to white space, exactly if it has no call. -/
theorem resolve_eq_squeeze_iff {s : String} :
    resolve isActive s = .ok (String.ofList (Text.squeeze s.toList)) ↔
      ¬callStart <:+: s.toList := by
  constructor
  · intro h hcall
    rw [resolve, resolution, bind_pure_comp, Logged.value_run_map] at h
    obtain ⟨result, hresult, hsqueeze⟩ := map_eq_ok_iff.1 h
    have hsame : ink result = ink s.toList := by
      rw [← Text.ink_squeeze, String.ofList_inj.1 hsqueeze, Text.ink_squeeze]
    have hless := (length_ink_substitute hresult).2 hcall
    rw [hsame] at hless
    exact Nat.lt_irrefl _ hless
  · intro h
    rw [resolve_eq_ok_iff]
    exact ⟨_, outcome_of_no_call h, rfl⟩

/-! ## Calls in quotes -/

/-- Whether a scan stands inside quotes. -/
def Scan.inQuotes : Scan → Bool
  | plain _ => false
  | quoted _ _ => true
  | escaped _ _ => true

/-- Wherever the text goes on with `var(`, a scan of what comes before stands inside
quotes. -/
def CallsQuoted (cs : List Char) : Prop :=
  ∀ n < cs.length, callStart <+: cs.drop n → (Scan.run (.plain 0) (cs.take n)).inQuotes = true

instance (cs : List Char) : Decidable (CallsQuoted cs) :=
  inferInstanceAs (Decidable (∀ n < cs.length, callStart <+: cs.drop n →
    (Scan.run (.plain 0) (cs.take n)).inQuotes = true))

end Value

namespace Condition

open Value
open Logged (value_run_bind)

/-- A compiled condition resolves to the selected literal, with its white space
squeezed, exactly if there is no `var(` in that literal, inside quotes or outside of
them. What is in the other literal does not matter. -/
theorem resolve_compile_eq_squeeze_iff (c : Condition HookId) (isActive : HookId → Bool)
    (t f : String) (hids : ∀ id ∈ c.leaves, id.WellFormed)
    (ht : Balanced t.toList) (hf : Balanced f.toList) :
    let v := if c.eval isActive then t else f
    resolve isActive (c.compile t f) = .ok (String.ofList (Text.squeeze v.toList)) ↔
      ¬"var(".toList <:+: v.toList := by
  intro v
  have hv : outcome isActive (c.compile t f).toList = outcome isActive v.toList :=
    outcome_compile hids ht hf
  rw [resolve_eq_ok_iff, hv, ← resolve_eq_ok_iff]
  exact resolve_eq_squeeze_iff

/-- While the hook is active its literal comes through. Otherwise the other one is
selected, in which the call in quotes is resolved. -/
theorem resolve_compile_eq_squeeze_iff_quotes :
    let c : Condition HookId := not (all [leaf ⟨"dark"⟩])
    let t := "\"var(--x, y)\""
    let f := "\"var  (\""
    (∀ id ∈ c.leaves, id.WellFormed) ∧ Balanced t.toList ∧ Balanced f.toList ∧
    resolve (fun _ => true) (c.compile t f) = .ok "\"var (\"" ∧
    resolve (fun _ => false) (c.compile t f) ≠ .ok t := by
  intro c t f
  have hids : ∀ id ∈ c.leaves, id.WellFormed := by decide
  have ht : Balanced t.toList := by decide
  have hf : Balanced f.toList := by decide
  have hplain : ¬"var(".toList <:+: f.toList := cutCall_eq_none_iff.1 (by decide)
  have hcall : "var(".toList <:+: t.toList := ⟨['"'], "--x, y)\"".toList, by decide⟩
  have hwords : String.ofList (Text.squeeze f.toList) = "\"var (\"" := by decide
  have hword : String.ofList (Text.squeeze t.toList) = t := by decide
  refine ⟨hids, ht, hf, ?_, ?_⟩
  · have h := (resolve_compile_eq_squeeze_iff c (fun _ => true) t f hids ht hf).2 hplain
    exact h.trans (congrArg Except.ok hwords)
  · intro h
    refine (resolve_compile_eq_squeeze_iff c (fun _ => false) t f hids ht hf).1 ?_ hcall
    exact h.trans (congrArg Except.ok hword.symm)

/-- A literal with `var(` in quotes only does not come through. -/
theorem resolve_compile_quoted_call :
    let c : Condition HookId := leaf ⟨"dark"⟩
    let t := "\"var(--x, y)\""
    let f := "none"
    (∀ id ∈ c.leaves, id.WellFormed) ∧ Balanced t.toList ∧ Balanced f.toList ∧
    CallsQuoted t.toList ∧ CallsQuoted f.toList ∧ c.eval (fun _ => true) = true ∧
    resolve (fun _ => true) (c.compile t f) = .ok "\" y\"" ∧
    resolve (fun _ => true) (c.compile t f) ≠ .ok (String.ofList (Text.squeeze t.toList)) := by
  intro c t f
  have hids : ∀ id ∈ c.leaves, id.WellFormed := by decide
  have ht : Balanced t.toList := by decide
  have hf : Balanced f.toList := by decide
  have hcut : cutCall t.toList = some (['"'], "--x, y)\"".toList) := by decide
  have hclose : cutAt ')' "--x, y)\"".toList = some ("--x, y".toList, ['"']) := by decide
  have hcall : (resolveCall (fun _ => true) "--x, y".toList).run.value = .ok " y".toList := by
    have harguments : Call.ofArguments "--x, y".toList = ⟨"--x".toList, some " y".toList⟩ := rfl
    rw [value_resolveCall harguments rfl, if_neg (by decide), Option.elim_some,
      substitute_of_no_call rfl]
    rfl
  have hrest : substitute (fun _ => true) t.toList ['"'] = pure ['"'] := substitute_of_no_call rfl
  have hresult : resolve (fun _ => true) (c.compile t f) = .ok "\" y\"" := by
    refine resolve_eq_ok_iff.2 ⟨["\"".toList, "y\"".toList], ?_, rfl⟩
    rw [outcome_compile hids ht hf]
    show outcome (fun _ => true) t.toList = _
    rw [outcome, substitute_of_closed hcut hclose, value_run_bind, hcall, hrest]
    rfl
  have hliteral : "\" y\"" ≠ String.ofList (Text.squeeze t.toList) := by decide
  refine ⟨hids, ht, hf, by decide, by decide, rfl, hresult, ?_⟩
  rw [hresult]
  intro h
  exact hliteral (Except.ok.inj h)

end Condition

end Cascade
