import Cascade.Proofs.Table
import Cascade.Proofs.Value.Expression

/-!
# Matching parentheses

A scan finds the parenthesis that closes a group by counting. Here the texts that can
stand inside a group are generated by a grammar, `Nested`, that knows nothing of scans.
They are the texts that a scan finds balanced (`nested_iff_balanced`), so a cut at a
closing parenthesis has a text of the grammar in front of it, and such a text can be cut
nowhere else.

There are three groups.

* The grammar, and how a balanced text is taken apart along it.
* Cuts at a closing parenthesis, and the arguments of calls.
* Cuts at a comma. `Outside` says of a character in a text of the grammar that it is in
  no group and no quoted string.
-/

namespace Cascade.Value

open Logged (value_run_bind)

/-! ## The grammar -/

/-- The texts made of characters other than parentheses and quotes, of quoted strings and
of groups. -/
inductive Nested : List Char → Prop
  | empty : Nested []
  | char {c : Char} (hc : c ∉ ['(', ')', '"', '\x27']) : Nested [c]
  | quotation {quote : Char} {cs : List Char} (hquote : quote ∈ ['"', '\x27'])
      (contents : InQuotes quote cs) : Nested (quote :: (cs ++ [quote]))
  | group {cs : List Char} (contents : Nested cs) : Nested ('(' :: (cs ++ [')']))
  | append {cs ds : List Char} (left : Nested cs) (right : Nested ds) : Nested (cs ++ ds)

theorem isQuote_iff {c : Char} : Scan.isQuote c = true ↔ c ∈ ['"', '\x27'] := by
  simp [Scan.isQuote]

theorem isPlain_iff {c : Char} : isPlain c = true ↔ c ∉ ['(', ')', '"', '\x27'] := by
  simp only [isPlain, Scan.isQuote, Bool.and_eq_true, Bool.not_eq_true', Bool.or_eq_false_iff,
    beq_eq_false_iff_ne, bne_iff_ne, List.mem_cons, List.not_mem_nil, or_false, not_or]
  constructor
  · intro h
    exact ⟨h.1.2, h.2, h.1.1.1, h.1.1.2⟩
  · intro h
    exact ⟨⟨⟨h.2.2.1, h.2.2.2⟩, h.1⟩, h.2.1⟩

theorem Nested.balanced {cs : List Char} (h : Nested cs) : Balanced cs := by
  induction h with
  | empty => decide
  | char hc =>
    apply balanced_of_isPlain
    intro c hmem
    rw [List.mem_singleton.1 hmem]
    exact isPlain_iff.2 hc
  | quotation hquote contents => exact contents.balanced (isQuote_iff.2 hquote)
  | group _ ih => exact ih.group
  | append _ _ ihl ihr => exact ihl.append ihr

theorem Balanced.of_append {cs ds : List Char} (h : Balanced (cs ++ ds)) (hcs : Balanced cs) :
    Balanced ds := by
  rw [balanced_iff, hcs.cutAt_append, Option.map_eq_none_iff, Scan.run_append, hcs.ends_level] at h
  exact balanced_iff.2 h

/-- A scan that has left a quoted string has passed the quote that closes it. -/
theorem exists_quotation_of_run {quote : Char} {depth depth' : Nat} :
    ∀ {cs : List Char}, Scan.run (.quoted quote depth) cs = .plain depth' →
      ∃ contents rest, cs = contents ++ quote :: rest ∧ InQuotes quote contents
  | [], h => by cases h
  | c :: cs, h => by
    by_cases hback : c = '\\'
    · cases cs with
      | nil =>
        rw [hback] at h
        cases h
      | cons next cs =>
        have hrest : Scan.run (.quoted quote depth) cs = .plain depth' := by
          rw [hback] at h
          exact h
        obtain ⟨contents, rest, hcs, hin⟩ := exists_quotation_of_run hrest
        refine ⟨'\\' :: next :: contents, rest, ?_, .escape hin⟩
        rw [hback, hcs]
        rfl
    · by_cases hquote : c = quote
      · exact ⟨[], cs, by rw [hquote]; rfl, .nil⟩
      · rw [Scan.run_cons, Scan.step_quoted hquote hback] at h
        obtain ⟨contents, rest, hcs, hin⟩ := exists_quotation_of_run h
        refine ⟨c :: contents, rest, ?_, .char hquote hback hin⟩
        rw [hcs]
        rfl

/-- In front of the parenthesis at which a text is cut it is balanced. -/
theorem balanced_of_cutAt {cs before after : List Char}
    (h : cutAt ')' cs = some (before, after)) : Balanced before := by
  obtain ⟨-, hrun, hnone⟩ := cutFrom_eq_some_iff.1 h
  exact balanced_iff.2 ⟨hnone, hrun⟩

/-- A scan that has left a group has passed the parenthesis that closes it. -/
theorem exists_group_of_run {cs : List Char} (h : Scan.run (.plain 1) cs = .plain 0) :
    ∃ contents rest, cs = contents ++ ')' :: rest ∧ Balanced contents := by
  cases hcut : cutAt ')' cs with
  | none =>
    -- Without a cut the scan would still be inside the group.
    have hinside : Scan.run (.plain 1) cs = (Scan.run (.plain 0) cs).inside 1 := run_inside hcut 1
    rw [hinside] at h
    exact absurd h (Scan.inside_succ_ne _ 0)
  | some cut =>
    obtain ⟨contents, rest⟩ := cut
    exact ⟨contents, rest, cutAt_eq_some hcut, balanced_of_cutAt hcut⟩

/-- A balanced text starts with a character, a quoted string or a group, if the balanced
texts that may be inside the group are texts of the grammar. -/
theorem Balanced.exists_part {c : Char} {cs : List Char} (h : Balanced (c :: cs))
    (hinner : ∀ ds : List Char, ds.length < cs.length → Balanced ds → Nested ds) :
    ∃ part rest, c :: cs = part ++ rest ∧ part ≠ [] ∧ Nested part := by
  have hrun : Scan.run (Scan.step (.plain 0) c) cs = .plain 0 := h.ends_level
  by_cases hquote : Scan.isQuote c = true
  · rw [Scan.step, if_pos hquote] at hrun
    obtain ⟨contents, rest, hcs, hin⟩ := exists_quotation_of_run hrun
    refine ⟨c :: (contents ++ [c]), rest, ?_, List.cons_ne_nil _ _,
      .quotation (isQuote_iff.1 hquote) hin⟩
    simp [hcs]
  by_cases hopen : c = '('
  · rw [hopen] at hrun
    obtain ⟨contents, rest, hcs, hcontents⟩ := exists_group_of_run hrun
    have hshort : contents.length < cs.length := by
      rw [hcs, List.length_append, List.length_cons]
      omega
    refine ⟨'(' :: (contents ++ [')']), rest, ?_, List.cons_ne_nil _ _,
      .group (hinner contents hshort hcontents)⟩
    simp [hopen, hcs]
  by_cases hclose : c = ')'
  · exact absurd rfl (h.closes_own [] cs (by rw [hclose]; rfl))
  · have hplain : isPlain c = true := by simp [isPlain, hquote, hopen, hclose]
    exact ⟨[c], cs, rfl, List.cons_ne_nil _ _, .char (isPlain_iff.1 hplain)⟩

/-- The texts of the grammar are those that a scan finds balanced. -/
theorem nested_iff_balanced {cs : List Char} : Nested cs ↔ Balanced cs := by
  refine ⟨Nested.balanced, ?_⟩
  -- Part by part; the contents of a group and what follows a part are both shorter.
  induction hlength : cs.length using Nat.strongRecOn generalizing cs with
  | ind n ih =>
    intro h
    cases cs with
    | nil => exact .empty
    | cons c cs =>
      rw [List.length_cons] at hlength
      have hinner : ∀ ds : List Char, ds.length < cs.length → Balanced ds → Nested ds :=
        fun ds hds => ih ds.length (by omega) rfl
      obtain ⟨part, rest, hcs, hne, hpart⟩ := h.exists_part hinner
      have hshort : rest.length < n := by
        have htotal := congrArg List.length hcs
        have hpos := List.length_pos_iff.2 hne
        rw [List.length_append, List.length_cons] at htotal
        omega
      rw [hcs] at h ⊢
      exact hpart.append (ih rest.length hshort rfl (h.of_append hpart.balanced))

/-! ## The closing parenthesis -/

/-- The parenthesis between the two texts closes what is open in front of the text. -/
def Closes (cs before after : List Char) : Prop := cs = before ++ ')' :: after ∧ Nested before

theorem cutAt_eq_some_iff_closes {cs before after : List Char} :
    cutAt ')' cs = some (before, after) ↔ Closes cs before after := by
  constructor
  · intro h
    exact ⟨cutAt_eq_some h, nested_iff_balanced.2 (balanced_of_cutAt h)⟩
  · intro h
    rw [h.1]
    exact h.2.balanced.cutAt_closing after

theorem cutAt_eq_none_iff_closes {cs : List Char} :
    cutAt ')' cs = none ↔ ¬∃ before after, Closes cs before after := by
  constructor
  · intro h hcloses
    obtain ⟨before, after, hcloses⟩ := hcloses
    rw [cutAt_eq_some_iff_closes.2 hcloses] at h
    cases h
  · intro h
    cases hcut : cutAt ')' cs with
    | none => rfl
    | some cut => exact absurd ⟨cut.1, cut.2, cutAt_eq_some_iff_closes.1 hcut⟩ h

theorem Closes.unique {cs before after before' after' : List Char} (h : Closes cs before after)
    (h' : Closes cs before' after') : before = before' ∧ after = after' := by
  have hsame := cutAt_eq_some_iff_closes.2 h
  rw [cutAt_eq_some_iff_closes.2 h', Option.some.injEq, Prod.mk.injEq] at hsame
  exact ⟨hsame.1.symm, hsame.2.symm⟩

variable {isActive : HookId → Bool} {whole cs before after arguments : List Char}

/-- The first call of a text is resolved with the text of the grammar up to the
parenthesis that closes it. Without such a parenthesis there is no result, and without a
call nothing to resolve. -/
theorem substitute_cases (isActive : HookId → Bool) (whole cs : List Char) :
    (cutCall cs = none ∧ substitute isActive whole cs = pure cs) ∨
    (∃ before after, cutCall cs = some (before, after) ∧
      (¬∃ arguments rest, Closes after arguments rest) ∧
      substitute isActive whole cs = throw (.unbalanced (String.ofList whole))) ∨
    ∃ before after arguments rest, cutCall cs = some (before, after) ∧
      Closes after arguments rest ∧
      substitute isActive whole cs = do
        let value ← resolveCall isActive arguments
        let values ← substitute isActive whole rest
        return before ++ value ++ values := by
  cases hcall : cutCall cs with
  | none => exact .inl ⟨rfl, substitute_of_no_call hcall⟩
  | some cut =>
    obtain ⟨before, after⟩ := cut
    right
    cases hclose : cutAt ')' after with
    | none =>
      left
      exact ⟨before, after, rfl, cutAt_eq_none_iff_closes.1 hclose,
        substitute_of_unclosed hcall hclose⟩
    | some cut =>
      obtain ⟨arguments, rest⟩ := cut
      right
      exact ⟨before, after, arguments, rest, rfl, cutAt_eq_some_iff_closes.1 hclose,
        substitute_of_closed hcall hclose⟩

/-- The arguments that a failure reports, of whatever call on the way, are a text of the
grammar. -/
theorem nested_of_missingProperty {text : String}
    (h : (substitute isActive whole cs).run.value = .error (.missingProperty text)) :
    Nested text.toList := by
  induction cs using substitute_induction generalizing whole with
  | no_call cs hcut =>
    rw [substitute_of_no_call hcut] at h
    cases h
  | unclosed cs before after hcut hclose =>
    rw [substitute_of_unclosed hcut hclose] at h
    cases h
  | closed cs before after arguments rest hcut hclose ihrest ihfallback =>
    rw [substitute_of_closed hcut hclose, value_run_bind, bind_eq_error_iff] at h
    obtain hcall | ⟨value, -, h⟩ := h
    · rcases value_resolveCall_cases isActive arguments with
        hv | hv | ⟨property, hv⟩ | ⟨fallback, hfallback, hv⟩ <;> rw [hv] at hcall
      · cases hcall
        rw [String.toList_ofList]
        exact (cutAt_eq_some_iff_closes.1 hclose).2
      · cases hcall
      · cases hcall
      · exact ihfallback fallback hfallback hcall
    · rw [value_run_bind, bind_eq_error_iff] at h
      obtain hrest | ⟨values, -, h⟩ := h
      · exact ihrest hrest
      · cases h

/-! ## Commas -/

/-- A character in a text of the grammar is in no group and no quoted string. It is one of
the characters of which the text is made, with texts of the grammar in front of it and
behind it. -/
inductive Outside (c : Char) : List Char → List Char → Prop
  | alone (hc : c ∉ ['(', ')', '"', '\x27']) : Outside c [] []
  | inLeft {before after ds : List Char} (left : Outside c before after) (right : Nested ds) :
      Outside c before (after ++ ds)
  | inRight {before after cs : List Char} (left : Nested cs) (right : Outside c before after) :
      Outside c (cs ++ before) after

theorem Outside.nested {c : Char} (h : Outside c before after) : Nested before ∧ Nested after := by
  induction h with
  | alone => exact ⟨.empty, .empty⟩
  | inLeft _ hright ih => exact ⟨ih.1, ih.2.append hright⟩
  | inRight hleft _ ih => exact ⟨hleft.append ih.1, ih.2⟩

theorem outside_of_nested {c : Char} (hc : isPlain c = true) (hbefore : Nested before)
    (hafter : Nested after) : Outside c before after := by
  have halone : Outside c [] [] := .alone (isPlain_iff.1 hc)
  have h : Outside c (before ++ []) ([] ++ after) := .inRight hbefore (.inLeft halone hafter)
  rwa [List.append_nil, List.nil_append] at h

/-- In a text of the grammar a character is outside if the scan says so. -/
theorem Nested.outside_iff {c : Char} (hc : isPlain c = true)
    (h : Nested (before ++ c :: after)) :
    Outside c before after ↔ Scan.run (.plain 0) before = .plain 0 := by
  constructor
  · intro hout
    exact hout.nested.1.balanced.ends_level
  · intro hrun
    have hbefore : Balanced before := by
      refine ⟨?_, hrun⟩
      intro b a he
      exact h.balanced.closes_own b (a ++ c :: after) (by rw [he]; simp)
    have hafter : Balanced after :=
      (h.balanced.of_append hbefore).of_append (Nested.char (isPlain_iff.1 hc)).balanced
    exact outside_of_nested hc (nested_iff_balanced.2 hbefore) (nested_iff_balanced.2 hafter)

/-- A cut falls at the first mark outside all groups and strings. -/
theorem Nested.cutAt_eq_some_iff {mark : Char} (hmark : isPlain mark = true) (h : Nested cs) :
    cutAt mark cs = some (before, after) ↔
      cs = before ++ mark :: after ∧ Outside mark before after ∧
        ∀ b a, cs = b ++ mark :: a → Outside mark b a → before.length ≤ b.length := by
  rw [cutAt, cutFrom_eq_some_iff]
  constructor
  · intro hcut
    obtain ⟨he, hrun, hnone⟩ := hcut
    rw [he] at h
    refine ⟨he, (h.outside_iff hmark).2 hrun, ?_⟩
    intro b a he' hout
    rw [he] at he'
    -- An earlier mark would be one in `before`, where there is no cut.
    rcases List.append_eq_append_iff.1 he' with ⟨ds, hb, -⟩ | ⟨ds, hbefore, hds⟩
    · rw [hb, List.length_append]
      omega
    · cases ds with
      | nil => exact Nat.le_of_eq (by rw [hbefore, List.append_nil])
      | cons d ds =>
        obtain rfl : mark = d := (List.cons.inj hds).1
        rw [he'] at h
        exact absurd ((h.outside_iff hmark).1 hout) (cutFrom_eq_none_iff.1 hnone b ds hbefore)
  · intro hfirst
    obtain ⟨he, hout, hfirst⟩ := hfirst
    refine ⟨he, hout.nested.1.balanced.ends_level, ?_⟩
    rw [cutFrom_eq_none_iff]
    intro b a hbefore hrun
    have he' : cs = b ++ mark :: (a ++ mark :: after) := by rw [he, hbefore]; simp
    have hle : before.length ≤ b.length := by
      apply hfirst b _ he'
      rw [he'] at h
      exact (h.outside_iff hmark).2 hrun
    rw [hbefore, List.length_append, List.length_cons] at hle
    omega

theorem Nested.cutAt_eq_none_iff {mark : Char} (hmark : isPlain mark = true) (h : Nested cs) :
    cutAt mark cs = none ↔ ∀ before after, cs = before ++ mark :: after →
      ¬Outside mark before after := by
  rw [cutAt, cutFrom_eq_none_iff]
  constructor
  · intro hnone before after he hout
    rw [he] at h
    exact hnone before after he ((h.outside_iff hmark).1 hout)
  · intro hnone before after he hrun
    rw [he] at h
    exact hnone before after he ((h.outside_iff hmark).2 hrun)

/-- Cuts at parentheses and commas, in the words of the grammar.

* A text is cut at the closing parenthesis behind a text of the grammar. There is at most
  one, and where there is none the text is not cut.
* Only such texts are given to calls as arguments, and a failure reports no others.
* In a text of the grammar the scan has a group open wherever it comes to a closing
  parenthesis, so that it never counts below zero. The text is cut at the first comma
  that is in no group and no quoted string, and is not cut if there is none. -/
theorem cutAt_finds_matching :
    (∀ cs before after, cutAt ')' cs = some (before, after) ↔ Closes cs before after) ∧
    (∀ cs, cutAt ')' cs = none ↔ ¬∃ before after, Closes cs before after) ∧
    (∀ cs before after before' after', Closes cs before after → Closes cs before' after' →
      before = before' ∧ after = after') ∧
    (∀ isActive whole cs,
      (cutCall cs = none ∧ substitute isActive whole cs = pure cs) ∨
      (∃ before after, cutCall cs = some (before, after) ∧
        (¬∃ arguments rest, Closes after arguments rest) ∧
        substitute isActive whole cs = throw (.unbalanced (String.ofList whole))) ∨
      ∃ before after arguments rest, cutCall cs = some (before, after) ∧
        Closes after arguments rest ∧
        substitute isActive whole cs = do
          let value ← resolveCall isActive arguments
          let values ← substitute isActive whole rest
          return before ++ value ++ values) ∧
    (∀ isActive expression text,
      resolve isActive expression = .error (.missingProperty text) → Nested text.toList) ∧
    ∀ arguments, Nested arguments →
      (∀ before after depth, arguments = before ++ ')' :: after →
        Scan.run (.plain 0) before = .plain depth → 0 < depth) ∧
      (∀ before after, cutAt ',' arguments = some (before, after) ↔
        arguments = before ++ ',' :: after ∧ Outside ',' before after ∧
          ∀ b a, arguments = b ++ ',' :: a → Outside ',' b a → before.length ≤ b.length) ∧
      (cutAt ',' arguments = none ↔
        ∀ before after, arguments = before ++ ',' :: after → ¬Outside ',' before after) := by
  have hcomma : isPlain ',' = true := by decide
  refine ⟨?_, ?_, ?_, substitute_cases, ?_, ?_⟩
  · intro cs before after
    exact cutAt_eq_some_iff_closes
  · intro cs
    exact cutAt_eq_none_iff_closes
  · intro cs before after before' after' h h'
    exact h.unique h'
  · intro isActive expression text h
    rw [resolve, resolution, value_run_bind, bind_eq_error_iff] at h
    obtain h | ⟨resolved, -, h⟩ := h
    · exact nested_of_missingProperty h
    · cases h
  · intro arguments h
    refine ⟨?_, fun before after => h.cutAt_eq_some_iff hcomma, h.cutAt_eq_none_iff hcomma⟩
    intro before after depth he hrun
    apply Nat.pos_of_ne_zero
    intro hzero
    rw [hzero] at hrun
    exact h.balanced.closes_own before after he hrun

/-- The text `f(",)"),'\''` inside a call. The parentheses and commas of the first group
and of the strings are passed over. -/
theorem cutAt_finds_matching_strings :
    let arguments := "f(\",)\"),'\\''".toList
    Closes (arguments ++ ") x)".toList) arguments " x)".toList ∧
    ¬(∃ before after, Closes "f(\")".toList before after) ∧
    cutAt ',' arguments = some ("f(\",)\")".toList, "'\\''".toList) ∧
    Outside ',' "f(\",)\")".toList "'\\''".toList ∧
    ∃ depth, Scan.run (.plain 0) "f(\",)\"".toList = .plain depth ∧ 0 < depth := by
  intro arguments
  obtain ⟨hsome, hnone, -, -, -, harguments⟩ := cutAt_finds_matching
  have hcloses : Closes (arguments ++ ") x)".toList) arguments " x)".toList :=
    (hsome _ _ _).1 (by decide)
  obtain ⟨hdepth, hcomma, -⟩ := harguments arguments hcloses.2
  have hcut : cutAt ',' arguments = some ("f(\",)\")".toList, "'\\''".toList) := by decide
  have hscan : Scan.run (.plain 0) "f(\",)\"".toList = .plain 1 := by decide
  exact ⟨hcloses, (hnone _).1 (by decide), hcut, ((hcomma _ _).1 hcut).2.1, 1, hscan,
    hdepth _ ",'\\''".toList 1 (by decide) hscan⟩

end Cascade.Value
