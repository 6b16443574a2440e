import Cascade.Proofs.Toggle
import Cascade.Proofs.Value.Balanced
import Cascade.Value.Resolve

/-!
# Substitution

What `Value.substitute` does with a text, read off the way the text is put
together: a text without a call stays as it is, a call with balanced arguments is
replaced by its result, and a space in front stays in front. A call to a toggle
asks for the state of its hook once and then takes its fallback or nothing.

Then what a resolution comes to, `outcome`: the words of the result, or the kind
of failure. White space around a text does not change it (`outcome_blank`), and
the text of a missing parenthesis, in which alone the text read so far shows, is
not part of it.
-/

namespace Cascade

namespace Value

variable {isActive : HookId → Bool} {whole cs before after arguments rest : List Char}

/-! ## The three cases -/

theorem substitute_of_no_call (h : cutCall cs = none) :
    substitute isActive whole cs = pure cs := by
  rw [substitute]
  split
  · rfl
  · next hc => simp [h] at hc

theorem substitute_of_unclosed (h : cutCall cs = some (before, after))
    (h' : cutAt ')' after = none) :
    substitute isActive whole cs = throw (.unbalanced (String.ofList whole)) := by
  rw [substitute]
  split
  · next hc => simp [h] at hc
  · next hc =>
    rw [h, Option.some.injEq, Prod.mk.injEq] at hc
    obtain ⟨rfl, rfl⟩ := hc
    split
    · rfl
    · next hc => simp [h'] at hc

theorem substitute_of_closed (h : cutCall cs = some (before, after))
    (h' : cutAt ')' after = some (arguments, rest)) :
    substitute isActive whole cs = do
      let value ← resolveCall isActive arguments
      let values ← substitute isActive whole rest
      return before ++ value ++ values := by
  rw [substitute]
  split
  · next hc => simp [h] at hc
  · next hc =>
    rw [h, Option.some.injEq, Prod.mk.injEq] at hc
    obtain ⟨rfl, rfl⟩ := hc
    split
    · next hc => simp [h'] at hc
    · next hc =>
      rw [h', Option.some.injEq, Prod.mk.injEq] at hc
      obtain ⟨rfl, rfl⟩ := hc
      rfl

/-- What holds of every text whose first call has behind it a text, and as its
fallback one, for which it holds, and of every text without such a call, holds of
every text. -/
theorem substitute_induction {motive : List Char → Prop}
    (no_call : ∀ cs, cutCall cs = none → motive cs)
    (unclosed : ∀ cs before after, cutCall cs = some (before, after) →
      cutAt ')' after = none → motive cs)
    (closed : ∀ cs before after arguments rest, cutCall cs = some (before, after) →
      cutAt ')' after = some (arguments, rest) → motive rest →
      (∀ fallback, (Call.ofArguments arguments).fallback = some fallback → motive fallback) →
      motive cs)
    (cs : List Char) : motive cs := by
  cases hc : cutCall cs with
  | none => exact no_call cs hc
  | some cut =>
    obtain ⟨before, after⟩ := cut
    cases ha : cutAt ')' after with
    | none => exact unclosed cs before after hc ha
    | some cut =>
      obtain ⟨arguments, rest⟩ := cut
      have hshort : arguments.length < cs.length ∧ rest.length < cs.length := by
        have h₁ := congrArg List.length (cutCall_eq_some hc)
        have h₂ := congrArg List.length (cutAt_eq_some ha)
        simp only [List.length_append, List.length_cons] at h₁ h₂
        omega
      refine closed cs before after arguments rest hc ha
        (substitute_induction no_call unclosed closed rest) ?_
      intro fallback hfallback
      have := Call.length_fallback hfallback
      exact substitute_induction no_call unclosed closed fallback
termination_by cs.length

/-! ## Texts put together -/

/-- A call with balanced arguments is resolved, and then what follows it. -/
theorem substitute_call (h : Balanced arguments) :
    substitute isActive whole (callStart ++ (arguments ++ ')' :: rest)) = do
      let value ← resolveCall isActive arguments
      let values ← substitute isActive whole rest
      return value ++ values :=
  substitute_of_closed (cutCall_callStart _) (h.cutAt_closing rest)

/-- A character at which no call starts stays where it is. -/
theorem substitute_cons {c : Char} (h : ¬callStart <+: c :: cs) :
    substitute isActive whole (c :: cs) = (c :: ·) <$> substitute isActive whole cs := by
  have hcut := cutCall_cons h
  cases hc : cutCall cs with
  | none =>
    rw [hc, Option.map_none] at hcut
    rw [substitute_of_no_call hcut, substitute_of_no_call hc, map_pure]
  | some cut =>
    obtain ⟨before, after⟩ := cut
    rw [hc, Option.map_some] at hcut
    cases ha : cutAt ')' after with
    | none =>
      rw [substitute_of_unclosed hcut ha, substitute_of_unclosed hc ha]
      rfl
    | some cut =>
      obtain ⟨arguments, rest⟩ := cut
      rw [substitute_of_closed hcut ha, substitute_of_closed hc ha]
      simp only [map_bind, map_pure, List.cons_append]

theorem substitute_blank (isActive : HookId → Bool) (whole cs : List Char) :
    substitute isActive whole (' ' :: cs) = (' ' :: ·) <$> substitute isActive whole cs := by
  apply substitute_cons
  simp [callStart]

/-! ## Calls -/

/-- A call to a custom property has no part in the result if the property is a
toggle that is valid. Otherwise its fallback has, without which it fails. -/
theorem resolveCall_of_hasProperty {property : List Char} {fallback : Option (List Char)}
    (hcall : Call.ofArguments arguments = ⟨property, fallback⟩)
    (hproperty : Call.hasProperty ⟨property, fallback⟩ = true) :
    resolveCall isActive arguments =
      liftM ((Call.mk property fallback).isValid isActive) >>= fun valid =>
        if valid then pure []
        else fallback.elim (throw (.unresolved (String.ofList property)))
          fun fallback => substitute isActive fallback fallback := by
  rw [resolveCall]
  simp only [hcall, hproperty, if_true]
  congr
  funext valid
  split
  · rfl
  · split
    · next hfallback =>
      rw [hcall] at hfallback
      cases hfallback
      rfl
    · next hfallback =>
      rw [hcall] at hfallback
      cases hfallback
      rfl

theorem resolveCall_of_not_hasProperty
    (h : (Call.ofArguments arguments).hasProperty = false) :
    resolveCall isActive arguments = throw (.missingProperty (String.ofList arguments)) := by
  rw [resolveCall]
  simp only [h, Bool.false_eq_true, if_false]

theorem isPlain_of_not_delimiter {c : Char} (h : c ∉ HookId.delimiters) : isPlain c = true := by
  simp_all [isPlain, Scan.isQuote, HookId.delimiters]

/-- The arguments of a call whose property has no delimiter and no white space at
its ends are cut right behind the property. -/
theorem Call.ofArguments_append {property : List Char}
    (hdelim : ∀ c ∈ property, c ∉ HookId.delimiters) (htrim : Text.trim property = property)
    (fallback : List Char) :
    ofArguments (property ++ ',' :: fallback) = ⟨property, some fallback⟩ := by
  have hplain : ∀ c ∈ property, isPlain c = true :=
    fun c hc => isPlain_of_not_delimiter (hdelim c hc)
  have hcomma : ',' ∉ property := fun hc => hdelim ',' hc (by decide)
  rw [ofArguments, cutAt_of_isPlain hplain hcomma]
  simp only [htrim]

theorem Call.ofArguments_alone {property : List Char}
    (hdelim : ∀ c ∈ property, c ∉ HookId.delimiters) (htrim : Text.trim property = property) :
    ofArguments property = ⟨property, none⟩ := by
  have hcomma : ',' ∉ property := fun hc => hdelim ',' hc (by decide)
  rw [ofArguments, cutAt, cutFrom_of_not_mem hcomma]
  simp only [htrim]

/-! ## Calls to toggles -/

theorem trim_property (toggle : Toggle) :
    Text.trim toggle.property.toList = toggle.property.toList := by
  apply Text.trim_eq_self
  · rw [Toggle.toList_property]
    simp only [List.head?_cons, Option.mem_some, forall_eq']
    decide
  · rw [Toggle.toList_property]
    simp only [List.getLast?_cons, List.getLast?_append, Option.mem_def]
    unfold Toggle.bit
    split <;> simp <;> decide

/-- The state of a hook, asked for in a resolution. -/
def askState (isActive : HookId → Bool) (id : HookId) : Resolution Bool :=
  liftM (Logged.ask isActive id)

/-- A call to a toggle asks for the state of its hook. It has no part in the
result if the toggle is valid, and otherwise its fallback has. -/
theorem resolveCall_property {toggle : Toggle} (h : toggle.id.WellFormed)
    (fallback : List Char) :
    resolveCall isActive (toggle.property.toList ++ ',' :: fallback) =
      askState isActive toggle.id >>= fun active =>
        if toggle.isValid active then pure [] else substitute isActive fallback fallback := by
  have hcall := Call.ofArguments_append (Toggle.no_delimiter_property h)
    (trim_property toggle) fallback
  have hproperty : Call.hasProperty ⟨toggle.property.toList, some fallback⟩ = true := by
    rw [Call.hasProperty, Toggle.toList_property]
    cases toggle.id.text.toList <;> rfl
  rw [resolveCall_of_hasProperty hcall hproperty, Call.isValid]
  simp only [Toggle.ofProperty?_property h, liftM_bind, liftM_pure, bind_assoc, pure_bind]
  rfl

/-- The answer is the state itself; what is left of the question is the note. -/
theorem askState_bind {β : Type} (isActive : HookId → Bool) (id : HookId)
    (next : Bool → Resolution β) :
    askState isActive id >>= next = askState isActive id >>= fun _ => next (isActive id) :=
  rfl

end Value

/-! ## What a resolution comes to -/

namespace ResolveError

/-- What sort of failure it is, without the text it is about. -/
inductive Kind where
  | unbalanced
  | missingProperty
  | unresolved
deriving DecidableEq

def kind : ResolveError → Kind
  | unbalanced _ => .unbalanced
  | missingProperty _ => .missingProperty
  | unresolved _ => .unresolved

end ResolveError

namespace Value

open Logged (value_run_bind value_run_map)

/-- A result, or the kind of a failure. -/
def blunt : Except ResolveError (List Char) → Except ResolveError.Kind (List Char)
  | .ok text => .ok text
  | .error error => .error error.kind

theorem blunt_map (f : List Char → List Char) (x : Except ResolveError (List Char)) :
    blunt (x.map f) = (blunt x).map f := by
  cases x <;> rfl

/-- The words of a result, or the kind of a failure. -/
def gist (x : Except ResolveError (List Char)) : Except ResolveError.Kind (List (List Char)) :=
  (blunt x).map Text.words

theorem gist_ok (text : List Char) : gist (.ok text) = .ok (Text.words text) := rfl

theorem gist_error (error : ResolveError) : gist (.error error) = .error error.kind := rfl

/-- What the resolution of a text comes to. -/
def outcome (isActive : HookId → Bool) (cs : List Char) :
    Except ResolveError.Kind (List (List Char)) :=
  gist (substitute isActive cs cs).run.value

/-- The text that a missing parenthesis is reported with does not matter to the
kind of failure. -/
theorem blunt_substitute (isActive : HookId → Bool) (whole whole' cs : List Char) :
    blunt (substitute isActive whole cs).run.value =
      blunt (substitute isActive whole' cs).run.value := by
  induction cs using substitute_induction with
  | no_call cs h => rw [substitute_of_no_call h, substitute_of_no_call h]
  | unclosed cs before after h h' =>
    rw [substitute_of_unclosed h h', substitute_of_unclosed h h']
    rfl
  | closed cs before after arguments rest h h' ih _ =>
    rw [substitute_of_closed h h', substitute_of_closed h h', value_run_bind, value_run_bind]
    cases (resolveCall isActive arguments).run.value with
    | error error => rfl
    | ok value =>
      simp only [bind_pure_comp]
      show blunt (_ <$> substitute isActive whole rest).run.value =
        blunt (_ <$> substitute isActive whole' rest).run.value
      rw [value_run_map, value_run_map, blunt_map, blunt_map, ih]

theorem gist_map_blank (x : Except ResolveError (List Char)) :
    gist (x.map (' ' :: ·)) = gist x := by
  have hblank : Text.isBlank ' ' = true := by decide
  cases x with
  | error error => rfl
  | ok text =>
    show gist (.ok (' ' :: text)) = gist (.ok text)
    rw [gist_ok, gist_ok, Text.words_blank_cons hblank]

/-- A space in front changes nothing. -/
theorem outcome_blank (isActive : HookId → Bool) (cs : List Char) :
    outcome isActive (' ' :: cs) = outcome isActive cs := by
  rw [outcome, outcome, substitute_blank, value_run_map, gist_map_blank, gist, gist,
    blunt_substitute isActive (' ' :: cs) cs cs]

/-- The result of a value is the words of its outcome with one space between each
two. -/
theorem resolve_eq_ok_iff {isActive : HookId → Bool} {expression result : String} :
    resolve isActive expression = .ok result ↔
      ∃ words, outcome isActive expression.toList = .ok words ∧
        result = String.ofList ([' '].intercalate words) := by
  rw [resolve, resolution, outcome, bind_pure_comp, value_run_map]
  cases (substitute isActive expression.toList expression.toList).run.value with
  | error error => simp [Except.map, gist_error]
  | ok text =>
    simp only [Except.map, gist_ok, Except.ok.injEq, Text.squeeze]
    constructor
    · rintro rfl
      exact ⟨_, rfl, rfl⟩
    · rintro ⟨words, rfl, rfl⟩
      rfl

/-- A value has no result exactly if its outcome is a failure, which is of the
same kind. -/
theorem exists_resolve_eq_error_iff {isActive : HookId → Bool} {expression : String}
    {kind : ResolveError.Kind} :
    (∃ error, resolve isActive expression = .error error ∧ error.kind = kind) ↔
      outcome isActive expression.toList = .error kind := by
  rw [resolve, resolution, outcome, bind_pure_comp, value_run_map]
  cases (substitute isActive expression.toList expression.toList).run.value with
  | error error => simp [Except.map, gist_error]
  | ok text => simp [Except.map, gist_ok]

/-- A text without a call comes to its words. -/
theorem outcome_of_no_call {isActive : HookId → Bool} {cs : List Char}
    (h : ¬callStart <:+: cs) : outcome isActive cs = .ok (Text.words cs) := by
  rw [outcome, substitute_of_no_call (cutCall_eq_none_iff.2 h)]
  rfl

end Value

end Cascade
