import Cascade.Proofs.Value.Substitution

/-!
# Declaration values as expressions

Resolution works on a text without taking it apart into a tree: it looks for the
next `var(`, for the parenthesis that closes it and for the first comma. An
`Expression` is a declaration value as a tree. `Expression.text` writes it down
and `Expression.denote` says what it stands for, part by part. Resolution of the
text gives what the expression stands for.

The text of an expression is read in front of any text that is empty or goes on
with a closing parenthesis (`value_substitute_text`). Those are the texts that
the parts of an expression have behind them: the contents of a group are followed
by its parenthesis, and a fallback is resolved by itself.
-/

namespace Cascade.Value

open Logged (value_run_bind value_run_map)

/-! ## Toggles that are valid -/

/-- The property is a toggle that is empty now, which is `--<id>-0` while the hook
is active and `--<id>-1` while it is not. The identifier is not empty and does
not end in a hyphen. -/
def IsValidToggle (isActive : HookId → Bool) (property : List Char) : Prop :=
  ∃ id : HookId, id.text.toList ≠ [] ∧ id.text.toList.getLast? ≠ some '-' ∧
    property = (if isActive id then id.off else id.on).toList

theorem isValidToggle_iff {isActive : HookId → Bool} {property : List Char} :
    IsValidToggle isActive property ↔
      ∃ id, Toggle.ofProperty? property = some ⟨id, !isActive id⟩ := by
  have hvalid : ∀ id, (if isActive id then id.off else id.on) =
      Toggle.property ⟨id, !isActive id⟩ := by
    intro id
    cases isActive id <;> rfl
  simp only [IsValidToggle, Toggle.ofProperty?_eq_some_iff, hvalid]
  constructor
  · rintro ⟨id, hne, hlast, hproperty⟩
    exact ⟨id, hproperty, hne, hlast⟩
  · rintro ⟨id, hproperty, hne, hlast⟩
    exact ⟨id, hne, hlast, hproperty⟩

theorem Call.isValid_eq_true_iff {isActive : HookId → Bool} {property : List Char}
    {fallback : Option (List Char)} :
    ((Call.mk property fallback).isValid isActive).value = true ↔
      IsValidToggle isActive property := by
  rw [isValidToggle_iff, Call.isValid]
  cases Toggle.ofProperty? property with
  | none => simp
  | some toggle =>
    obtain ⟨id, on⟩ := toggle
    show (isActive id != on) = true ↔ _
    simp only [Option.some.injEq, Toggle.mk.injEq]
    constructor
    · intro h
      refine ⟨id, rfl, ?_⟩
      cases on <;> simp_all
    · rintro ⟨_, rfl, rfl⟩
      simp

instance (isActive : HookId → Bool) (property : List Char) :
    Decidable (IsValidToggle isActive property) :=
  decidable_of_iff (((Call.mk property none).isValid isActive).value = true)
    Call.isValid_eq_true_iff

theorem value_resolveCall {isActive : HookId → Bool} {arguments property : List Char}
    {fallback : Option (List Char)} (hcall : Call.ofArguments arguments = ⟨property, fallback⟩)
    (hproperty : Call.hasProperty ⟨property, fallback⟩ = true) :
    (resolveCall isActive arguments).run.value =
      if IsValidToggle isActive property then .ok []
      else fallback.elim (.error (.unresolved (String.ofList property)))
        fun fallback => (substitute isActive fallback fallback).run.value := by
  have hvalid : (liftM ((Call.mk property fallback).isValid isActive) : Resolution Bool).run.value =
      .ok (decide (IsValidToggle isActive property)) := by
    show Except.ok ((Call.mk property fallback).isValid isActive).value = _
    rw [Except.ok.injEq, Bool.eq_iff_iff, Call.isValid_eq_true_iff, decide_eq_true_iff]
  rw [resolveCall_of_hasProperty hcall hproperty, value_run_bind, hvalid]
  by_cases h : IsValidToggle isActive property
  · rw [if_pos h, decide_eq_true h]
    rfl
  · rw [if_neg h, decide_eq_false h]
    cases fallback <;> rfl

/-- The result of a call without a property, of one to a valid toggle, and of any other
call without and with a fallback. -/
theorem value_resolveCall_cases (isActive : HookId → Bool) (arguments : List Char) :
    (resolveCall isActive arguments).run.value =
      .error (.missingProperty (String.ofList arguments)) ∨
    (resolveCall isActive arguments).run.value = .ok [] ∨
    (∃ property, (resolveCall isActive arguments).run.value = .error (.unresolved property)) ∨
    ∃ fallback, (Call.ofArguments arguments).fallback = some fallback ∧
      (resolveCall isActive arguments).run.value =
        (substitute isActive fallback fallback).run.value := by
  cases hcall : Call.ofArguments arguments with
  | mk property fallback =>
    cases hproperty : Call.hasProperty ⟨property, fallback⟩ with
    | false =>
      rw [← hcall] at hproperty
      rw [resolveCall_of_not_hasProperty hproperty]
      exact .inl rfl
    | true =>
      rw [value_resolveCall hcall hproperty]
      right
      split
      · exact .inl rfl
      · cases fallback with
        | none => exact .inr (.inl ⟨_, rfl⟩)
        | some fallback => exact .inr (.inr ⟨fallback, rfl, rfl⟩)

/-! ## Expressions -/

/-- The name of a custom property as it stands in a call. It starts with two
hyphens and has at least one more character, no parenthesis, quote or comma, and
no white space at its end. -/
structure Property where
  name : List Char
  hyphens : ['-', '-'] <+: name
  longer : 2 < name.length
  no_delimiter : ∀ c ∈ name, c ∉ HookId.delimiters
  not_blank : ∀ c ∈ name.getLast?, Text.isBlank c = false

/-- What a call stands for, given what its fallback does: nothing, if the property
is a valid toggle. -/
def Property.denote (isActive : HookId → Bool) (p : Property)
    (fallback : Except ResolveError (List Char)) : Except ResolveError (List Char) :=
  if IsValidToggle isActive p.name then .ok [] else fallback

/-- The failure of a call without a fallback. -/
def Property.error (p : Property) : ResolveError := .unresolved (String.ofList p.name)

/-- A quoted string without a call in it. -/
structure Quotation where
  quote : Char
  contents : List Char
  isQuote : Scan.isQuote quote = true
  inQuotes : InQuotes quote contents
  no_call : ¬callStart <:+: contents

/-- The string with its quotes. -/
def Quotation.text (s : Quotation) : List Char := s.quote :: (s.contents ++ [s.quote])

/-- A declaration value: nothing, or a first part and what follows it. -/
inductive Expression where
  | done
  | plain (c : Char) (isPlain : isPlain c = true) (rest : Expression)
  | quoted (s : Quotation) (rest : Expression)
  | group (inner rest : Expression)
  | call (p : Property) (rest : Expression)
  | callOr (p : Property) (fallback rest : Expression)

namespace Expression

/-- The declaration value as it is written. -/
def text : Expression → List Char
  | done => []
  | plain c _ rest => c :: rest.text
  | quoted s rest => s.text ++ rest.text
  | group inner rest => '(' :: (inner.text ++ ')' :: rest.text)
  | call p rest => callStart ++ (p.name ++ ')' :: rest.text)
  | callOr p fallback rest =>
    callStart ++ ((p.name ++ ',' :: fallback.text) ++ ')' :: rest.text)

/-- Whether an expression starts with the characters of a word and then a group. -/
def groupAfter : List Char → Expression → Bool
  | [], group _ _ => true
  | c :: word, plain d _ rest => c == d && groupAfter word rest
  | _, _ => false

/-- Whether no group comes right after the characters `var`, which would make it
look like a call. -/
def separated : Expression → Bool
  | done => true
  | plain c h rest => !groupAfter ['v', 'a', 'r'] (plain c h rest) && rest.separated
  | quoted _ rest => rest.separated
  | group inner rest => inner.separated && rest.separated
  | call _ rest => rest.separated
  | callOr _ fallback rest => fallback.separated && rest.separated

/-- What an expression stands for. A call to a valid toggle stands for nothing and
any other call for its fallback, and a call without fallback fails. Everything
else stands for itself. -/
def denote (isActive : HookId → Bool) : Expression → Except ResolveError (List Char)
  | done => return []
  | plain c _ rest => return c :: (← rest.denote isActive)
  | quoted s rest => return s.text ++ (← rest.denote isActive)
  | group inner rest => do
    let value ← inner.denote isActive
    return '(' :: (value ++ ')' :: (← rest.denote isActive))
  | call p rest => do
    let value ← p.denote isActive (.error p.error)
    return value ++ (← rest.denote isActive)
  | callOr p fallback rest => do
    let value ← p.denote isActive (fallback.denote isActive)
    return value ++ (← rest.denote isActive)

/-- The calls that fail, from left to right. What is in the fallback of a valid
toggle does not count. -/
def failing (isActive : HookId → Bool) : Expression → List Property
  | done => []
  | plain _ _ rest => rest.failing isActive
  | quoted _ rest => rest.failing isActive
  | group inner rest => inner.failing isActive ++ rest.failing isActive
  | call p rest =>
    (if IsValidToggle isActive p.name then [] else [p]) ++ rest.failing isActive
  | callOr p fallback rest =>
    (if IsValidToggle isActive p.name then [] else fallback.failing isActive) ++
      rest.failing isActive

end Expression

/-! ## The parts of an expression -/

namespace Property

theorem exists_name_eq (p : Property) : ∃ c cs, p.name = '-' :: '-' :: c :: cs := by
  obtain ⟨cs, hcs⟩ := p.hyphens
  have hlonger := p.longer
  rw [← hcs] at hlonger ⊢
  cases cs with
  | nil => exact absurd hlonger (by decide)
  | cons c cs => exact ⟨c, cs, rfl⟩

theorem trim_name (p : Property) : Text.trim p.name = p.name := by
  obtain ⟨c, cs, hname⟩ := p.exists_name_eq
  apply Text.trim_eq_self
  · rw [hname]
    simp only [List.head?_cons, Option.mem_some, forall_eq']
    decide
  · exact p.not_blank

theorem isPlain_of_mem (p : Property) : ∀ c ∈ p.name, isPlain c = true :=
  fun c hc => isPlain_of_not_delimiter (p.no_delimiter c hc)

theorem hasProperty (p : Property) (fallback : Option (List Char)) :
    Call.hasProperty ⟨p.name, fallback⟩ = true := by
  obtain ⟨c, cs, hname⟩ := p.exists_name_eq
  rw [Call.hasProperty, hname]
  rfl

theorem balanced_arguments (p : Property) {fallback : List Char} (h : Balanced fallback) :
    Balanced (p.name ++ ',' :: fallback) := by
  have hcomma : Balanced [','] := by decide
  exact (balanced_of_isPlain p.isPlain_of_mem).append (hcomma.append h)

theorem value_resolveCall_alone (p : Property) (isActive : HookId → Bool) :
    (resolveCall isActive p.name).run.value = p.denote isActive (.error p.error) :=
  value_resolveCall (Call.ofArguments_alone p.no_delimiter p.trim_name) (p.hasProperty none)

theorem value_resolveCall_append (p : Property) (isActive : HookId → Bool)
    (fallback : List Char) :
    (resolveCall isActive (p.name ++ ',' :: fallback)).run.value =
      p.denote isActive (substitute isActive fallback fallback).run.value :=
  value_resolveCall (Call.ofArguments_append p.no_delimiter p.trim_name fallback)
    (p.hasProperty (some fallback))

end Property

/-- A character that is not in `var(` ends every call that might have started
before it. -/
theorem not_callStart_append {c : Char} {cs : List Char} (hc : c ∉ callStart)
    (h : ¬callStart <+: cs) (ds : List Char) : ¬callStart <+: cs ++ c :: ds := by
  rintro ⟨rest, hrest⟩
  rw [List.append_eq_append_iff] at hrest
  rcases hrest with ⟨as, hcs, -⟩ | ⟨as, hstart, has⟩
  · exact h ⟨as, hcs.symm⟩
  · cases as with
    | nil =>
      rw [List.append_nil] at hstart
      exact h ⟨[], by rw [List.append_nil, hstart]⟩
    | cons a as =>
      rw [List.cons_append, List.cons.injEq] at has
      exact hc (by rw [hstart, has.1]; simp)

/-- A text without a call in it stays where it is, if no call starts in it and goes
on behind it. -/
theorem substitute_append {isActive : HookId → Bool} {whole before : List Char} {c : Char}
    {cs : List Char} (hc : c ∉ callStart) (h : ¬callStart <:+: before) :
    substitute isActive whole (before ++ c :: cs) =
      (before ++ ·) <$> substitute isActive whole (c :: cs) := by
  induction before with
  | nil => simp
  | cons b before ih =>
    have hhere : ¬callStart <+: b :: before ++ c :: cs :=
      not_callStart_append hc (fun hstart => h hstart.isInfix) cs
    have hlater : ¬callStart <:+: before :=
      fun hin => h (hin.trans (List.suffix_cons b before).isInfix)
    rw [List.cons_append] at hhere ⊢
    rw [substitute_cons hhere, ih hlater, Functor.map_map]
    rfl

theorem Quotation.substitute_text {isActive : HookId → Bool} {whole : List Char} (s : Quotation)
    (cs : List Char) :
    substitute isActive whole (s.text ++ cs) = (s.text ++ ·) <$> substitute isActive whole cs := by
  have hquote : s.quote ∉ callStart := by
    intro hmem
    have hq := s.isQuote
    simp only [callStart, List.mem_cons, List.not_mem_nil, or_false] at hmem
    rcases hmem with h | h | h | h <;> rw [h] at hq <;> exact absurd hq (by decide)
  have hhere : ∀ ds, ¬callStart <+: s.quote :: ds :=
    not_callStart_append hquote (show ¬callStart <+: [] by decide)
  rw [text, List.cons_append, List.append_assoc, List.singleton_append,
    substitute_cons (hhere _), substitute_append hquote s.no_call, substitute_cons (hhere _)]
  simp

namespace Expression

theorem balanced_text (e : Expression) : Balanced e.text := by
  induction e with
  | done => decide
  | plain c h rest ih =>
    have hplain : Balanced [c] := balanced_of_isPlain (by simpa using h)
    exact hplain.append ih
  | quoted s rest ih => exact (s.inQuotes.balanced s.isQuote).append ih
  | group inner rest ihi ihr => simpa [text] using ihi.group.append ihr
  | call p rest ih =>
    have hname : Balanced p.name := balanced_of_isPlain p.isPlain_of_mem
    simpa [text] using hname.call.append ih
  | callOr p fallback rest ihf ihr =>
    simpa [text] using (p.balanced_arguments ihf).call.append ihr

/-! ## Where a call starts -/

variable {isActive : HookId → Bool} {whole tail : List Char}

/-- Only a group starts with an opening parenthesis. -/
theorem exists_group_of_head? (htail : ∀ c ∈ tail.head?, c = ')') {e : Expression}
    (h : (e.text ++ tail).head? = some '(') : ∃ inner rest, e = group inner rest := by
  cases e with
  | done => exact absurd (htail '(' h) (by decide)
  | plain c hc rest =>
    rw [Option.some.inj h] at hc
    exact absurd hc (by decide)
  | quoted s rest =>
    have hquote := s.isQuote
    rw [Option.some.inj h] at hquote
    exact absurd hquote (by decide)
  | group inner rest => exact ⟨inner, rest, rfl⟩
  | call p rest => exact absurd (Option.some.inj h) (by decide)
  | callOr p fallback rest => exact absurd (Option.some.inj h) (by decide)

/-- A character other than `v`, with which a call starts, is a part by itself. -/
theorem exists_plain_of_head? (htail : ∀ c ∈ tail.head?, c = ')') {e : Expression} {c : Char}
    (hc : isPlain c = true) (hv : c ≠ 'v') (h : (e.text ++ tail).head? = some c) :
    ∃ rest, e = plain c hc rest := by
  cases e with
  | done =>
    rw [htail c h] at hc
    exact absurd hc (by decide)
  | plain d hd rest =>
    cases Option.some.inj h
    exact ⟨rest, rfl⟩
  | quoted s rest =>
    have hquote := s.isQuote
    rw [Option.some.inj h] at hquote
    simp [isPlain, hquote] at hc
  | group inner rest =>
    rw [← Option.some.inj h] at hc
    exact absurd hc (by decide)
  | call p rest => exact absurd (Option.some.inj h).symm hv
  | callOr p fallback rest => exact absurd (Option.some.inj h).symm hv

/-- A word with an opening parenthesis behind it is that word with a group behind
it. -/
theorem groupAfter_of_isPrefix {word : List Char} (hword : ∀ c ∈ word, isPlain c = true ∧ c ≠ 'v')
    (htail : ∀ c ∈ tail.head?, c = ')') {e : Expression}
    (h : word ++ ['('] <+: e.text ++ tail) : groupAfter word e = true := by
  obtain ⟨behind, hbehind⟩ := h
  induction word generalizing e with
  | nil =>
    obtain ⟨inner, rest, rfl⟩ := exists_group_of_head? htail (e := e) (by rw [← hbehind]; rfl)
    rfl
  | cons c word ih =>
    rw [List.forall_mem_cons] at hword
    have hhead := exists_plain_of_head? htail hword.1.1 hword.1.2 (e := e) (by rw [← hbehind]; rfl)
    obtain ⟨rest, rfl⟩ := hhead
    rw [text, List.cons_append, List.cons_append, List.cons_append, List.cons.injEq] at hbehind
    rw [groupAfter, ih hword.2 hbehind.2, Bool.and_true, beq_iff_eq]

theorem not_callStart_plain {c : Char} {h : isPlain c = true} {rest : Expression}
    (hseparated : (plain c h rest).separated = true) (htail : ∀ c ∈ tail.head?, c = ')') :
    ¬callStart <+: c :: (rest.text ++ tail) := by
  intro hstart
  rw [callStart, List.cons_prefix_cons] at hstart
  obtain ⟨rfl, hstart⟩ := hstart
  have hword : ∀ c ∈ ['a', 'r'], isPlain c = true ∧ c ≠ 'v' := by simp [isPlain, Scan.isQuote]
  have hgroup : groupAfter ['a', 'r'] rest = true := groupAfter_of_isPrefix hword htail hstart
  simp [separated, groupAfter, hgroup] at hseparated

/-! ## Resolution -/

theorem value_run_map_eq_bind (f : List Char → List Char) (x : Resolution (List Char)) :
    (f <$> x).run.value = x.run.value >>= fun value => pure (f value) := by
  rw [value_run_map]
  cases x.run.value <;> rfl

theorem value_substitute_call {arguments rest : List Char} (h : Balanced arguments) :
    (substitute isActive whole (callStart ++ (arguments ++ ')' :: rest))).run.value = do
      let value ← (resolveCall isActive arguments).run.value
      let values ← (substitute isActive whole rest).run.value
      return value ++ values := by
  rw [substitute_call h, value_run_bind]
  congr
  funext value
  rw [value_run_bind]
  rfl

theorem bind_substitute_nil (x : Except ResolveError (List Char)) :
    (do
      let value ← x
      let values ← (substitute isActive whole []).run.value
      return value ++ values) = x := by
  have hnil : substitute isActive whole [] = pure [] := substitute_of_no_call rfl
  rw [hnil]
  show (x >>= fun value => pure (value ++ [])) = x
  simp

/-- The text of an expression resolves to what the expression stands for, and then
the text behind it is resolved. -/
theorem value_substitute_text (e : Expression) (hseparated : e.separated = true)
    (htail : ∀ c ∈ tail.head?, c = ')') :
    (substitute isActive whole (e.text ++ tail)).run.value = do
      let value ← e.denote isActive
      let values ← (substitute isActive whole tail).run.value
      return value ++ values := by
  induction e generalizing whole tail with
  | done => simp [text, denote]
  | plain c h rest ih =>
    have hrest : rest.separated = true := by
      rw [separated, Bool.and_eq_true] at hseparated
      exact hseparated.2
    rw [text, List.cons_append, substitute_cons (not_callStart_plain hseparated htail),
      value_run_map_eq_bind, ih hrest htail, denote]
    simp only [bind_assoc, pure_bind, List.cons_append]
  | quoted s rest ih =>
    rw [text, List.append_assoc, s.substitute_text, value_run_map_eq_bind, ih hseparated htail,
      denote]
    simp only [bind_assoc, pure_bind, List.append_assoc]
  | group inner rest ihi ihr =>
    rw [separated, Bool.and_eq_true] at hseparated
    have hopen : ¬callStart <+: '(' :: (inner.text ++ ')' :: (rest.text ++ tail)) := by
      simp [callStart]
    have hclose : ¬callStart <+: ')' :: (rest.text ++ tail) := by
      simp [callStart]
    rw [text, List.cons_append, List.append_assoc, List.cons_append, substitute_cons hopen,
      value_run_map_eq_bind, ihi hseparated.1 (by simp), substitute_cons hclose,
      value_run_map_eq_bind, ihr hseparated.2 htail, denote]
    simp only [bind_assoc, pure_bind, List.append_assoc, List.cons_append]
  | call p rest ih =>
    have hname : Balanced p.name := balanced_of_isPlain p.isPlain_of_mem
    rw [text, List.append_assoc, List.append_assoc, List.cons_append,
      value_substitute_call hname, p.value_resolveCall_alone, ih hseparated htail, denote]
    simp only [bind_assoc, pure_bind, List.append_assoc]
  | callOr p fallback rest ihf ihr =>
    rw [separated, Bool.and_eq_true] at hseparated
    have hfallback : (substitute isActive fallback.text fallback.text).run.value =
        fallback.denote isActive := by
      have h := @ihf fallback.text [] hseparated.1 (by simp)
      rwa [List.append_nil, bind_substitute_nil] at h
    rw [text, List.append_assoc, List.append_assoc, List.cons_append,
      value_substitute_call (p.balanced_arguments fallback.balanced_text),
      p.value_resolveCall_append, hfallback, ihr hseparated.2 htail, denote]
    simp only [bind_assoc, pure_bind, List.append_assoc]

/-! ## Failures -/

/-- The failure that a result is, if it is one. -/
def failure : Except ResolveError (List Char) → Option ResolveError
  | .ok _ => none
  | .error error => some error

theorem failure_eq_some_iff {x : Except ResolveError (List Char)} {error : ResolveError} :
    failure x = some error ↔ x = .error error := by
  cases x <;> simp [failure]

theorem failure_bind_pure (x : Except ResolveError (List Char)) (f : List Char → List Char) :
    failure (x >>= fun a => pure (f a)) = failure x := by
  cases x <;> rfl

theorem failure_bind_bind (x y : Except ResolveError (List Char))
    (f : List Char → List Char → List Char) :
    failure (x >>= fun a => y >>= fun b => pure (f a b)) = (failure x).or (failure y) := by
  cases x with
  | error error => rfl
  | ok a => cases y <;> rfl

/-- What fails is the first of the calls that do. -/
theorem failure_denote (isActive : HookId → Bool) (e : Expression) :
    failure (e.denote isActive) = (e.failing isActive).head?.map Property.error := by
  induction e with
  | done => rfl
  | plain c h rest ih => rw [denote, failure_bind_pure, ih, failing]
  | quoted s rest ih => rw [denote, failure_bind_pure, ih, failing]
  | group inner rest ihi ihr =>
    rw [denote, failure_bind_bind, ihi, ihr, failing, List.head?_append, Option.map_or]
  | call p rest ih =>
    rw [denote, failure_bind_bind, ih, failing, List.head?_append, Option.map_or, Property.denote]
    split <;> rfl
  | callOr p fallback rest ihf ihr =>
    rw [denote, failure_bind_bind, ihr, failing, List.head?_append, Option.map_or, Property.denote]
    split
    · rfl
    · rw [ihf]

/-- The text of an expression resolves to what the expression stands for, with its
white space squeezed. It fails if some call fails, and then as the first of them
does: calls count from left to right, those in a fallback before those behind it,
and those in the fallback of a valid toggle not at all. -/
theorem resolve_text (e : Expression) (isActive : HookId → Bool) (h : e.separated = true) :
    resolve isActive (String.ofList e.text) =
        (e.denote isActive).map (fun value => String.ofList (Text.squeeze value)) ∧
      ∀ error, e.denote isActive = .error error ↔
        ∃ p, (e.failing isActive).head? = some p ∧ error = .unresolved (String.ofList p.name) := by
  constructor
  · have hvalue : (substitute isActive e.text e.text).run.value = e.denote isActive := by
      have htext := @value_substitute_text isActive e.text [] e h (by simp)
      rwa [List.append_nil, bind_substitute_nil] at htext
    rw [resolve, resolution, bind_pure_comp, value_run_map, String.toList_ofList, hvalue]
  · intro error
    rw [← failure_eq_some_iff, failure_denote, Option.map_eq_some_iff]
    constructor
    · rintro ⟨p, hp, rfl⟩
      exact ⟨p, hp, rfl⟩
    · rintro ⟨p, hp, rfl⟩
      exact ⟨p, hp, rfl⟩

/-- A call in a group, a parenthesis in quotes, and a call as the fallback of
another one. While the hook is active the last call is not reached. -/
theorem resolve_text_nested :
    ∃ e : Expression, String.ofList e.text = "f(var(--a-1, 2 ))  \"a)\" var(--a-0,var(--c))" ∧
      e.separated = true ∧
      resolve (fun _ => true) (String.ofList e.text) = .ok "f( 2 ) \"a)\"" ∧
      resolve (fun _ => false) (String.ofList e.text) = .error (.unresolved "--c") := by
  let on : Property := ⟨['-', '-', 'a', '-', '1'], by decide, by decide,
    by simp [HookId.delimiters], by rintro _ ⟨⟩; rfl⟩
  let off : Property := ⟨['-', '-', 'a', '-', '0'], by decide, by decide,
    by simp [HookId.delimiters], by rintro _ ⟨⟩; rfl⟩
  let unset : Property := ⟨['-', '-', 'c'], by decide, by decide,
    by simp [HookId.delimiters], by rintro _ ⟨⟩; rfl⟩
  let string : Quotation := ⟨'"', ['a', ')'], rfl,
    .char (by decide) (by decide) (.char (by decide) (by decide) .nil), by decide⟩
  let e : Expression :=
    plain 'f' rfl <|
    group (callOr on (plain ' ' rfl <| plain '2' rfl <| plain ' ' rfl done) done) <|
    plain ' ' rfl <| plain ' ' rfl <| quoted string <| plain ' ' rfl <|
    callOr off (call unset done) done
  have hseparated : e.separated = true := by decide
  have hactive : e.denote (fun _ => true) = .ok "f( 2 )  \"a)\" ".toList := rfl
  have hinactive : e.denote (fun _ => false) = .error (.unresolved "--c") := rfl
  have hwords : Text.squeeze "f( 2 )  \"a)\" ".toList = "f( 2 ) \"a)\"".toList := by decide
  refine ⟨e, by decide, hseparated, ?_, ?_⟩
  · rw [(resolve_text e _ hseparated).1, hactive]
    show Except.ok (String.ofList (Text.squeeze _)) = _
    rw [hwords, String.ofList_toList]
  · rw [(resolve_text e _ hseparated).1, hinactive]
    rfl

end Expression

end Cascade.Value
