import Cascade.Proofs.Sheet.Lines

/-!
# Sheets with either kind of line end

A sheet reads the same whether its lines end in line feeds or in carriage returns with
line feeds behind them. `SameLines` relates a text of the first kind to the one of the
second, and each part of the reader is shown to go through both in step: what it reads
off the first it reads off the second, and what is left of the two is related again.

* A run of characters without a line feed is the same in both texts (`of_append`), and a
  run that no part of a line end belongs to goes equally far (`span`).
* Blanks, lexemes and conditions. A literal that has a line feed in it is the only
  lexeme that differs, so there must be none in the condition that is read.
* Definitions, by induction on how they are read one after the other (`Defines`), and
  the whole sheet.
-/

namespace Cascade

/-- The text with a carriage return in front of every line feed. -/
def Text.withReturns (s : String) : String :=
  String.ofList (s.toList.flatMap fun c => if c = '\n' then ['\r', '\n'] else [c])

namespace Grammar

/-! ## Lexemes in the results of reading -/

/-- A literal has the line feeds of the text it stands for. -/
theorem Escaped.not_mem_feed {body text : List Char} (h : Escaped body text)
    (htext : '\n' ∉ text) : '\n' ∉ body := by
  induction h with
  | nil => exact htext
  | plain _ _ _ ih =>
    rw [List.mem_cons, not_or] at htext ⊢
    exact ⟨htext.1, ih htext.2⟩
  | escape _ _ ih =>
    rw [List.mem_cons, not_or] at htext
    rw [List.mem_cons, not_or, List.mem_cons, not_or]
    exact ⟨by decide, htext.1, ih htext.2⟩
  | backslash _ _ _ ih =>
    rw [List.mem_cons, not_or, List.mem_cons, not_or] at htext ⊢
    exact ⟨htext.1, htext.2.1, ih htext.2.2⟩

section Lexemes

variable {cs rest : List Char} {word : String}

theorem starts_of_identifier? (h : identifier? cs = some (word, rest)) :
    Starts cs (.word word) rest := by
  obtain ⟨c, run, rfl, hc, hrun, hstop, rfl⟩ := identifier?_eq_some_iff.1 h
  exact .word hc hrun hstop

theorem starts_of_literal? {text : String} (h : literal? cs = some (text, rest)) :
    Starts cs (.literal text) rest := by
  unfold literal? at h
  split at h
  · obtain ⟨⟨text', rest'⟩, htail, he⟩ := Option.map_eq_some_iff.1 h
    cases he
    obtain ⟨body, rfl, hbody⟩ := literalTail?_eq_some_iff.1 htail
    exact .literal hbody
  · cases h

theorem literal?_of_identifier? (h : identifier? cs = some (word, rest)) : literal? cs = none := by
  obtain ⟨c, run, rfl, hc, -⟩ := identifier?_eq_some_iff.1 h
  unfold literal?
  split
  · next he => exact absurd hc (by rw [(List.cons.inj he).1]; decide)
  · rfl

/-- An operator comes next exactly if the next word is a spelling of it. -/
theorem next?_keyword_iff {k : Keyword} (hop : ∀ c, k.token ≠ .operand c) :
    Token.next? cs = some (k.token, rest) ↔
      ∃ word ∈ k.spellings, identifier? (skipBlanks cs) = some (word, rest) := by
  constructor
  · intro h
    obtain ⟨l, hl, hstarts⟩ := exists_lexeme_of_next? h
    obtain ⟨word, hword, rfl⟩ := Lexeme.exists_word_of_token hl hop
    exact ⟨word, hword, hstarts.identifier?⟩
  · intro h
    obtain ⟨word, hword, hread⟩ := h
    rw [(starts_of_identifier? hread).next?, Lexeme.token, Keyword.ofWord_eq hword]

end Lexemes

-- The recursion is on the derivation: a literal among the lexemes of a phrase is one of
-- those of an operand, and at the end a primary.
mutual

/-- The literals of a disjunction are among the leaves of the condition. -/
theorem Disjunction.mem_leaves {ls : List Lexeme} {c : Condition String} {text : String} :
    Disjunction ls c → .literal text ∈ ls → text ∈ c.leaves
  | .lone operand, h => by simpa using operand.mem_leaves h
  | .node operands _, h => by
    rw [Condition.leaves_any]
    exact operands.mem_leaves h

theorem Disjuncts.mem_leaves {ls : List Lexeme} {items : List (Condition String)}
    {text : String} :
    Disjuncts ls items → .literal text ∈ ls → text ∈ items.flatMap Condition.leaves
  | .first operand, h => by simpa using operand.mem_leaves h
  | .next operands _ operand, h => by
    rw [List.flatMap_append, List.mem_append, List.flatMap_singleton]
    rw [List.mem_append, List.mem_cons] at h
    rcases h with h | h | h
    · exact .inl (operands.mem_leaves h)
    · cases h
    · exact .inr (operand.mem_leaves h)

theorem Conjunction.mem_leaves {ls : List Lexeme} {c : Condition String} {text : String} :
    Conjunction ls c → .literal text ∈ ls → text ∈ c.leaves
  | .lone operand, h => by simpa using operand.mem_leaves h
  | .node operands _, h => by
    rw [Condition.leaves_all]
    exact operands.mem_leaves h

theorem Conjuncts.mem_leaves {ls : List Lexeme} {items : List (Condition String)}
    {text : String} :
    Conjuncts ls items → .literal text ∈ ls → text ∈ items.flatMap Condition.leaves
  | .first operand, h => by simpa using operand.mem_leaves h
  | .next operands _ operand, h => by
    rw [List.flatMap_append, List.mem_append, List.flatMap_singleton]
    rw [List.mem_append, List.mem_cons] at h
    rcases h with h | h | h
    · exact .inl (operands.mem_leaves h)
    · cases h
    · exact .inr (operand.mem_leaves h)

theorem Negation.mem_leaves {ls : List Lexeme} {c : Condition String} {text : String} :
    Negation ls c → .literal text ∈ ls → text ∈ c.leaves
  | .not _ operand, h => by
    rcases List.mem_cons.1 h with h | h
    · cases h
    · exact operand.mem_leaves h
  | .primary primary, h => primary.mem_leaves h

theorem Primary.mem_leaves {ls : List Lexeme} {c : Condition String} {text : String} :
    Primary ls c → .literal text ∈ ls → text ∈ c.leaves
  | .group inner, h => by
    simp only [List.cons_append, List.mem_cons, List.mem_append, List.not_mem_nil, or_false,
      reduceCtorEq, false_or] at h
    exact inner.mem_leaves h
  | .literal, h => by
    cases List.mem_singleton.1 h
    exact List.mem_singleton_self _
  | .name _, h => by cases List.mem_singleton.1 h
  | .true _, h => by cases List.mem_singleton.1 h
  | .false _, h => by cases List.mem_singleton.1 h

end

/-! ## Definitions and their parts -/

theorem hookDefinition_eq_ok_iff {cs rest : List Char} {d : String × Hook} :
    hookDefinition cs = .ok (d, rest) ↔
      ∃ mid start, hookName? (skipBlanks cs) = some (d.1, mid) ∧ colon mid = .ok start ∧
        hookText (start.dropWhile fun c => c == ' ' || c == '\t') = .ok (d.2, rest) := by
  simp only [hookDefinition, bind_eq_ok_iff, orFail_eq_ok_iff, pure, Except.pure, Except.ok.injEq,
    Prod.exists, Prod.mk.injEq]
  constructor
  · intro h
    obtain ⟨name, mid, hname, start, hcolon, hook, rest, htext, rfl, rfl⟩ := h
    exact ⟨mid, start, hname, hcolon, htext⟩
  · intro h
    obtain ⟨mid, start, hname, hcolon, htext⟩ := h
    exact ⟨d.1, mid, hname, start, hcolon, d.2, rest, htext, rfl, rfl⟩

theorem conditionDefinition_eq_ok_iff {cs rest : List Char} {d : String × Condition String} :
    conditionDefinition cs = .ok (d, rest) ↔
      ∃ mid start, identifier? (skipBlanks cs) = some (d.1, mid) ∧ colon mid = .ok start ∧
        expression start = .ok (d.2, rest) := by
  simp only [conditionDefinition, bind_eq_ok_iff, orFail_eq_ok_iff, mapError_eq_ok_iff, pure,
    Except.pure, Except.ok.injEq, Prod.exists, Prod.mk.injEq]
  constructor
  · intro h
    obtain ⟨name, mid, hname, start, hcolon, c, rest, hc, rfl, rfl⟩ := h
    exact ⟨mid, start, hname, hcolon, hc⟩
  · intro h
    obtain ⟨mid, start, hname, hcolon, hc⟩ := h
    exact ⟨d.1, mid, hname, start, hcolon, d.2, rest, hc, rfl, rfl⟩

/-- A text starts with definitions that are read one after the other as a draft, and no
definition comes behind them. -/
inductive Defines : List Char → Draft → List Char → Prop where
  | hook {cs mid after rest : List Char} {d : String × Hook} {draft : Draft}
      (hword : identifier? (skipBlanks cs) = some ("hook", mid))
      (hdef : hookDefinition mid = .ok (d, after)) (tail : Defines after draft rest) :
      Defines cs (draft.consHook d.1 d.2) rest
  | condition {cs mid after rest : List Char} {d : String × Condition String} {draft : Draft}
      (hword : identifier? (skipBlanks cs) = some ("condition", mid))
      (hdef : conditionDefinition mid = .ok (d, after)) (tail : Defines after draft rest) :
      Defines cs (draft.consCondition d.1 d.2) rest
  | stop {cs : List Char} (hhook : ∀ mid, identifier? (skipBlanks cs) ≠ some ("hook", mid))
      (hcondition : ∀ mid, identifier? (skipBlanks cs) ≠ some ("condition", mid)) :
      Defines cs .empty cs

theorem Defines.definitions {cs rest : List Char} {draft : Draft} (h : Defines cs draft rest) :
    definitions cs = .ok (draft, rest) := by
  induction h with
  | hook hword hdef _ ih =>
    rw [definitions_eq, hword]
    simp only [hdef, ih]
    rfl
  | condition hword hdef _ ih =>
    rw [definitions_eq, hword]
    simp only [hdef, ih]
    rfl
  | stop hhook hcondition =>
    rw [definitions_eq]
    split
    · next mid hword => exact absurd hword (hhook mid)
    · next mid hword => exact absurd hword (hcondition mid)
    · rfl

theorem defines_of_definitions {cs rest : List Char} {draft : Draft}
    (h : definitions cs = .ok (draft, rest)) : Defines cs draft rest := by
  -- Each definition takes at least the word that it starts with.
  induction hn : cs.length using Nat.strongRecOn generalizing cs draft with
  | ind n ih =>
    subst hn
    have hblanks := length_skipBlanks_le cs
    rw [definitions_eq] at h
    split at h
    · next mid hword =>
      have hmid := identifier?_length hword
      split at h
      · cases h
      · next hdef =>
        have hafter := hookDefinition_length hdef
        obtain ⟨⟨draft, rest⟩, htail, he⟩ := map_eq_ok_iff.1 h
        cases he
        exact .hook hword hdef (ih _ (by omega) htail rfl)
    · next mid hword =>
      have hmid := identifier?_length hword
      split at h
      · cases h
      · next hdef =>
        have hafter := conditionDefinition_length hdef
        obtain ⟨⟨draft, rest⟩, htail, he⟩ := map_eq_ok_iff.1 h
        cases he
        exact .condition hword hdef (ih _ (by omega) htail rfl)
    · next hhook hcondition =>
      cases h
      exact .stop hhook hcondition

theorem finish_eq_ok_iff {α : Type} {a b : α} {cs : List Char} :
    finish a cs = .ok b ↔ skipBlanks cs = [] ∧ a = b := by
  unfold finish
  split
  · next h => simp [h]
  · next h => exact iff_of_false nofun fun hnil => h hnil.1

/-! ## Texts with the same lines -/

/-- The first text has no carriage return, and the second is the first with one in front
of every line feed. -/
inductive SameLines : List Char → List Char → Prop where
  | nil : SameLines [] []
  | char {c : Char} {cs cs' : List Char} (hfeed : c ≠ '\n') (hreturn : c ≠ '\r')
      (tail : SameLines cs cs') : SameLines (c :: cs) (c :: cs')
  | feed {cs cs' : List Char} (tail : SameLines cs cs') :
      SameLines ('\n' :: cs) ('\r' :: '\n' :: cs')

theorem sameLines_withReturns {s : String} (h : '\r' ∉ s.toList) :
    SameLines s.toList (Text.withReturns s).toList := by
  have hlist : ∀ cs : List Char, '\r' ∉ cs →
      SameLines cs (cs.flatMap fun c => if c = '\n' then ['\r', '\n'] else [c]) := by
    intro cs hcs
    induction cs with
    | nil => exact .nil
    | cons c cs ih =>
      rw [List.mem_cons, not_or] at hcs
      have htail := ih hcs.2
      rw [List.flatMap_cons]
      by_cases hc : c = '\n'
      · rw [if_pos hc, hc]
        exact .feed htail
      · rw [if_neg hc]
        exact .char hc (Ne.symm hcs.1) htail
  rw [Text.withReturns, String.toList_ofList]
  exact hlist s.toList h

namespace SameLines

variable {cs cs' : List Char}

/-! ## Runs -/

theorem eq_nil (h : SameLines [] cs') : cs' = [] := by
  cases h
  rfl

theorem of_cons {c : Char} {rest : List Char} (h : SameLines (c :: rest) cs') (hc : c ≠ '\n') :
    ∃ rest', cs' = c :: rest' ∧ SameLines rest rest' := by
  cases h with
  | char _ _ tail => exact ⟨_, rfl, tail⟩
  | feed tail => exact absurd rfl hc

/-- A run without a line feed is the same in both texts. -/
theorem of_append {run rest : List Char} (h : SameLines (run ++ rest) cs') (hrun : '\n' ∉ run) :
    ∃ rest', cs' = run ++ rest' ∧ SameLines rest rest' := by
  induction run generalizing cs' with
  | nil => exact ⟨cs', rfl, h⟩
  | cons c run ih =>
    rw [List.mem_cons, not_or] at hrun
    obtain ⟨tail', rfl, htail⟩ := h.of_cons (Ne.symm hrun.1)
    obtain ⟨rest', rfl, hrest⟩ := ih htail hrun.2
    exact ⟨rest', rfl, hrest⟩

/-- A run goes equally far in both texts if neither part of a line end belongs to it. -/
theorem span {p : Char → Bool} (h : SameLines cs cs') (hfeed : p '\n' = false)
    (hreturn : p '\r' = false) :
    cs'.takeWhile p = cs.takeWhile p ∧ SameLines (cs.dropWhile p) (cs'.dropWhile p) := by
  induction h with
  | nil => exact ⟨rfl, .nil⟩
  | @char c cs cs' hc hc' tail ih =>
    by_cases hp : p c = true
    · rw [List.takeWhile_cons_of_pos hp, List.takeWhile_cons_of_pos hp,
        List.dropWhile_cons_of_pos hp, List.dropWhile_cons_of_pos hp, ih.1]
      exact ⟨rfl, ih.2⟩
    · rw [List.takeWhile_cons_of_neg hp, List.takeWhile_cons_of_neg hp,
        List.dropWhile_cons_of_neg hp, List.dropWhile_cons_of_neg hp]
      exact ⟨rfl, .char hc hc' tail⟩
  | feed tail ih =>
    simp only [List.takeWhile_cons, List.dropWhile_cons, hfeed, hreturn]
    exact ⟨rfl, .feed tail⟩

theorem head {p : Char → Bool} (h : SameLines cs cs') (hreturn : p '\r' = false)
    (hhead : ∀ c ∈ cs.head?, p c = false) : ∀ c ∈ cs'.head?, p c = false := by
  cases h with
  | nil => exact hhead
  | char _ _ tail => exact hhead
  | feed tail =>
    intro c hc
    cases hc
    exact hreturn

/-- Where the first text has no more characters in the line, a line ends in both. -/
theorem lineEnd (h : SameLines cs cs') (hhead : ∀ c ∈ cs.head?, isInLine c = false) :
    LineEnd cs ∧ LineEnd cs' := by
  cases h with
  | nil => exact ⟨.text, .text⟩
  | @char c cs cs' hc hc' tail =>
    have hline : isInLine c = true := by simp [isInLine, hc, hc']
    rw [hhead c rfl] at hline
    cases hline
  | feed tail => exact ⟨.feed, .returnFeed⟩

/-- The rest of a line is the same in both texts, and what is behind it has the same
lines again. -/
theorem line (h : SameLines cs cs') :
    cs'.takeWhile isInLine = cs.takeWhile isInLine ∧
      SameLines (cs.dropWhile isInLine) (cs'.dropWhile isInLine) ∧
      LineEnd (cs.dropWhile isInLine) ∧ LineEnd (cs'.dropWhile isInLine) := by
  obtain ⟨htake, hdrop⟩ := h.span (p := isInLine) rfl rfl
  exact ⟨htake, hdrop, hdrop.lineEnd (head?_dropWhile_eq_false isInLine cs)⟩

/-! ## Blanks and lexemes -/

theorem skipBlanks (h : SameLines cs cs') :
    SameLines (Grammar.skipBlanks cs) (Grammar.skipBlanks cs') := by
  -- A comment takes more than one character, so the induction is on the length.
  induction hn : cs.length using Nat.strongRecOn generalizing cs cs' with
  | ind n ih =>
    subst hn
    cases h with
    | nil => exact .nil
    | feed tail =>
      rw [skipBlanks_space (by simp), skipBlanks_space (by simp), skipBlanks_space (by simp)]
      exact ih _ (Nat.lt_succ_self _) tail rfl
    | @char c cs cs' hc hc' tail =>
      obtain ⟨-, hrest, hend, hend'⟩ := tail.line
      rw [skipBlanks_cons, skipBlanks_cons, atLineEnd_iff.2 hend, atLineEnd_iff.2 hend']
      by_cases hspace : isSpace c = true
      · rw [if_pos hspace, if_pos hspace]
        exact ih _ (Nat.lt_succ_self _) tail rfl
      · rw [if_neg hspace, if_neg hspace]
        by_cases hhash : c = '#' ∧ true = true
        · have hlength := length_dropWhile_le isInLine cs
          rw [if_pos hhash, if_pos hhash]
          exact ih _ (Nat.lt_succ_of_le hlength) hrest rfl
        · rw [if_neg hhash, if_neg hhash]
          exact .char hc hc' tail

/-- There is the same word at the start of both texts, or none. -/
theorem identifier?_cases (h : SameLines cs cs') :
    (Grammar.identifier? cs = none ∧ Grammar.identifier? cs' = none) ∨
      ∃ word rest rest', Grammar.identifier? cs = some (word, rest) ∧
        Grammar.identifier? cs' = some (word, rest') ∧ SameLines rest rest' := by
  cases h with
  | nil => exact .inl ⟨rfl, rfl⟩
  | feed tail => exact .inl ⟨rfl, rfl⟩
  | @char c cs cs' hc hc' tail =>
    obtain ⟨htake, hdrop⟩ := tail.span (p := Char.isAlphanum) rfl rfl
    rw [Grammar.identifier?, Grammar.identifier?, htake]
    by_cases halpha : c.isAlpha = true
    · rw [if_pos halpha, if_pos halpha]
      exact .inr ⟨_, _, _, rfl, rfl, hdrop⟩
    · rw [if_neg halpha, if_neg halpha]
      exact .inl ⟨rfl, rfl⟩

theorem identifier? {word : String} {rest : List Char} (h : SameLines cs cs')
    (hread : Grammar.identifier? cs = some (word, rest)) :
    ∃ rest', Grammar.identifier? cs' = some (word, rest') ∧ SameLines rest rest' := by
  rcases h.identifier?_cases with ⟨hnone, -⟩ | ⟨_, _, rest', hsome, hsome', hrest⟩
  · rw [hread] at hnone
    cases hnone
  · rw [hread] at hsome
    cases hsome
    exact ⟨rest', hsome', hrest⟩

/-- A word that is read off the second text is there in the first. -/
theorem exists_identifier? {word : String} {rest' : List Char} (h : SameLines cs cs')
    (hread : Grammar.identifier? cs' = some (word, rest')) :
    ∃ rest, Grammar.identifier? cs = some (word, rest) := by
  rcases h.identifier?_cases with ⟨-, hnone⟩ | ⟨_, rest, _, hsome, hsome', -⟩
  · rw [hread] at hnone
    cases hnone
  · rw [hread] at hsome'
    cases hsome'
    exact ⟨rest, hsome⟩

/-- The same lexeme is at the start of both texts, if it is no literal with a line feed
in it. -/
theorem starts {l : Lexeme} {rest : List Char} (h : SameLines cs cs') (hl : Starts cs l rest)
    (hliteral : ∀ text, l = .literal text → '\n' ∉ text.toList) :
    ∃ rest', Starts cs' l rest' ∧ SameLines rest rest' := by
  cases hl with
  | opening =>
    obtain ⟨rest', rfl, hrest⟩ := h.of_cons (by decide)
    exact ⟨rest', .opening, hrest⟩
  | closing =>
    obtain ⟨rest', rfl, hrest⟩ := h.of_cons (by decide)
    exact ⟨rest', .closing, hrest⟩
  | @literal body text rest hbody =>
    have htext : '\n' ∉ text := by simpa using hliteral _ rfl
    obtain ⟨_, rfl, hquote⟩ := h.of_cons (by decide)
    obtain ⟨_, rfl, hclosing⟩ := hquote.of_append (hbody.not_mem_feed htext)
    obtain ⟨rest', rfl, hrest⟩ := hclosing.of_cons (by decide)
    exact ⟨rest', .literal hbody, hrest⟩
  | @word c run rest hc hrun hstop =>
    have hfeed : '\n' ∉ c :: run := by
      intro hmem
      rcases List.mem_cons.1 hmem with hmem | hmem
      · exact absurd (hmem ▸ hc) (by decide)
      · exact absurd (hrun _ hmem) (by decide)
    obtain ⟨rest', rfl, hrest⟩ := h.of_append hfeed
    exact ⟨rest', .word hc hrun (hrest.head rfl hstop), hrest⟩

/-- The same lexemes are at the start of both texts. -/
theorem takes {ls : List Lexeme} {rest : List Char} (h : SameLines cs cs') (hls : Takes cs ls rest)
    (hliterals : ∀ text, .literal text ∈ ls → '\n' ∉ text.toList) :
    ∃ rest', Takes cs' ls rest' ∧ SameLines rest rest' := by
  induction hls generalizing cs' with
  | nil => exact ⟨cs', .nil, h⟩
  | cons hl _ ih =>
    obtain ⟨mid', hl', hmid⟩ := h.skipBlanks.starts hl fun text he =>
      hliterals text (he ▸ List.mem_cons_self)
    obtain ⟨rest', htail', hrest⟩ := ih hmid fun text hmem =>
      hliterals text (List.mem_cons_of_mem _ hmem)
    exact ⟨rest', .cons hl' htail', hrest⟩

/-! ## Conditions -/

/-- Where no operator follows in the first text, none follows in the second. -/
theorem final (h : SameLines cs cs') (hfinal : Final cs) : Final cs' := by
  have hkeyword {k : Keyword} (hop : ∀ c, k.token ≠ .operand c)
      (hnone : ∀ rest, Token.next? cs ≠ some (k.token, rest)) (rest' : List Char) :
      Token.next? cs' ≠ some (k.token, rest') := by
    intro hnext
    obtain ⟨word, hword, hread'⟩ := (next?_keyword_iff hop).1 hnext
    obtain ⟨rest, hread⟩ := h.skipBlanks.exists_identifier? hread'
    exact hnone rest ((next?_keyword_iff hop).2 ⟨word, hword, hread⟩)
  intro rest'
  constructor
  · refine hkeyword (k := .and) ?_ (fun rest => (hfinal rest).1) rest'
    intro c hc
    cases hc
  · refine hkeyword (k := .or) ?_ (fun rest => (hfinal rest).2) rest'
    intro c hc
    cases hc

/-- A condition without a line feed in its leaves is read off both texts. -/
theorem expression {c : Condition String} {rest : List Char} (h : SameLines cs cs')
    (hread : Grammar.expression cs = .ok (c, rest))
    (hleaves : ∀ leaf ∈ c.leaves, '\n' ∉ leaf.toList) :
    ∃ rest', Grammar.expression cs' = .ok (c, rest') ∧ SameLines rest rest' := by
  obtain ⟨ls, htakes, hc, hfinal⟩ := expression_eq_ok_iff.1 hread
  obtain ⟨rest', htakes', hrest⟩ := h.takes htakes fun text hmem =>
    hleaves text (hc.mem_leaves hmem)
  exact ⟨rest', expression_eq_ok_iff.2 ⟨ls, htakes', hc, hrest.final hfinal⟩, hrest⟩

/-! ## Definitions -/

theorem colon {rest : List Char} (h : SameLines cs cs') (hread : Grammar.colon cs = .ok rest) :
    ∃ rest', Grammar.colon cs' = .ok rest' ∧ SameLines rest rest' := by
  have hblanks := h.skipBlanks
  unfold Grammar.colon at hread
  split at hread
  · next hcolon =>
    cases hread
    rw [hcolon] at hblanks
    obtain ⟨rest', hcolon', hrest⟩ := hblanks.of_cons (by decide)
    refine ⟨rest', ?_, hrest⟩
    rw [Grammar.colon, hcolon']
    rfl
  · cases hread

/-- The name of a hook is read off both texts, if it has no line feed in it. -/
theorem hookName? {name : String} {rest : List Char} (h : SameLines cs cs')
    (hread : Grammar.hookName? cs = some (name, rest)) (hname : '\n' ∉ name.toList) :
    ∃ rest', Grammar.hookName? cs' = some (name, rest') ∧ SameLines rest rest' := by
  unfold Grammar.hookName? at hread ⊢
  rw [Option.or_eq_some_iff] at hread
  rcases hread with hliteral | ⟨-, hword⟩
  · obtain ⟨rest', hstarts, hrest⟩ := h.starts (starts_of_literal? hliteral) fun text he => by
      cases he
      exact hname
    exact ⟨rest', by rw [hstarts.literal?, Option.some_or], hrest⟩
  · obtain ⟨rest', hword', hrest⟩ := h.identifier? hword
    exact ⟨rest', by rw [literal?_of_identifier? hword', Option.none_or, hword'], hrest⟩

/-- The text of a hook is the rest of a line, without the line end. -/
theorem hookText {hook : Hook} {rest : List Char} (h : SameLines cs cs')
    (hread : Grammar.hookText cs = .ok (hook, rest)) :
    ∃ rest', Grammar.hookText cs' = .ok (hook, rest') ∧ SameLines rest rest' := by
  obtain ⟨htake, hdrop, hend, hend'⟩ := h.line
  simp only [Grammar.hookText, atLineEnd_iff.2 hend, if_true] at hread
  simp only [Grammar.hookText, htake, atLineEnd_iff.2 hend', if_true]
  split at hread
  · cases hread
    exact ⟨_, rfl, hdrop⟩
  · cases hread

theorem hookDefinition {d : String × Hook} {rest : List Char} (h : SameLines cs cs')
    (hread : Grammar.hookDefinition cs = .ok (d, rest)) (hname : '\n' ∉ d.1.toList) :
    ∃ rest', Grammar.hookDefinition cs' = .ok (d, rest') ∧ SameLines rest rest' := by
  obtain ⟨mid, start, hread, hcolon, htext⟩ := hookDefinition_eq_ok_iff.1 hread
  obtain ⟨mid', hread', hmid⟩ := h.skipBlanks.hookName? hread hname
  obtain ⟨start', hcolon', hstart⟩ := hmid.colon hcolon
  obtain ⟨rest', htext', hrest⟩ := (hstart.span rfl rfl).2.hookText htext
  exact ⟨rest', hookDefinition_eq_ok_iff.2 ⟨mid', start', hread', hcolon', htext'⟩, hrest⟩

theorem conditionDefinition {d : String × Condition String} {rest : List Char}
    (h : SameLines cs cs') (hread : Grammar.conditionDefinition cs = .ok (d, rest))
    (hleaves : ∀ leaf ∈ d.2.leaves, '\n' ∉ leaf.toList) :
    ∃ rest', Grammar.conditionDefinition cs' = .ok (d, rest') ∧ SameLines rest rest' := by
  obtain ⟨mid, start, hname, hcolon, hc⟩ := conditionDefinition_eq_ok_iff.1 hread
  obtain ⟨mid', hname', hmid⟩ := h.skipBlanks.identifier? hname
  obtain ⟨start', hcolon', hstart⟩ := hmid.colon hcolon
  obtain ⟨rest', hc', hrest⟩ := hstart.expression hc hleaves
  exact ⟨rest', conditionDefinition_eq_ok_iff.2 ⟨mid', start', hname', hcolon', hc'⟩, hrest⟩

/-- Definitions without a line feed in a name or a leaf are read off both texts. -/
theorem defines {draft : Draft} {rest : List Char} (h : SameLines cs cs')
    (hdraft : Defines cs draft rest) (hnames : ∀ d ∈ draft.hooks, '\n' ∉ d.1.toList)
    (hleaves : ∀ d ∈ draft.conditions, ∀ leaf ∈ d.2.leaves, '\n' ∉ leaf.toList) :
    ∃ rest', Defines cs' draft rest' ∧ SameLines rest rest' := by
  induction hdraft generalizing cs' with
  | hook hword hdef _ ih =>
    rw [Draft.consHook, List.forall_mem_cons] at hnames
    obtain ⟨mid', hword', hmid⟩ := h.skipBlanks.identifier? hword
    obtain ⟨after', hdef', hafter⟩ := hmid.hookDefinition hdef hnames.1
    obtain ⟨rest', htail', hrest⟩ := ih hafter hnames.2 hleaves
    exact ⟨rest', .hook hword' hdef' htail', hrest⟩
  | condition hword hdef _ ih =>
    rw [Draft.consCondition, List.forall_mem_cons] at hleaves
    obtain ⟨mid', hword', hmid⟩ := h.skipBlanks.identifier? hword
    obtain ⟨after', hdef', hafter⟩ := hmid.conditionDefinition hdef hleaves.1
    obtain ⟨rest', htail', hrest⟩ := ih hafter hnames hleaves.2
    exact ⟨rest', .condition hword' hdef' htail', hrest⟩
  | stop hhook hcondition =>
    -- A word that only the second text had would have been read as one more definition.
    refine ⟨cs', .stop ?_ ?_, h⟩
    · intro mid' hword'
      obtain ⟨mid, hword⟩ := h.skipBlanks.exists_identifier? hword'
      exact hhook mid hword
    · intro mid' hword'
      obtain ⟨mid, hword⟩ := h.skipBlanks.exists_identifier? hword'
      exact hcondition mid hword

/-- A sheet without a line feed in a name or a leaf is read off both texts. -/
theorem sheet {draft : Draft} (h : SameLines cs cs') (hread : Grammar.sheet cs = .ok draft)
    (hnames : ∀ d ∈ draft.hooks, '\n' ∉ d.1.toList)
    (hleaves : ∀ d ∈ draft.conditions, ∀ leaf ∈ d.2.leaves, '\n' ∉ leaf.toList) :
    Grammar.sheet cs' = .ok draft := by
  rw [Grammar.sheet, bind_eq_ok_iff] at hread ⊢
  obtain ⟨⟨draft', rest⟩, hread, hfinish⟩ := hread
  change finish draft' rest = .ok draft at hfinish
  obtain ⟨hblank, rfl⟩ := finish_eq_ok_iff.1 hfinish
  obtain ⟨rest', hdraft', hrest⟩ := h.defines (defines_of_definitions hread) hnames hleaves
  have hblank' := hrest.skipBlanks
  rw [hblank] at hblank'
  exact ⟨(draft', rest'), hdraft'.definitions, finish_eq_ok_iff.2 ⟨hblank'.eq_nil, rfl⟩⟩

end SameLines

end Grammar

/-- A sheet reads the same with a carriage return in front of every line feed, if it had
none before and there is no line feed in the name of a hook or in a leaf of a condition. -/
theorem Draft.parse_withReturns (s : String) (draft : Draft) (hreturn : '\r' ∉ s.toList)
    (hread : Draft.parse s = .ok draft)
    (hnames : ∀ d ∈ draft.hooks, '\n' ∉ d.1.toList)
    (hleaves : ∀ d ∈ draft.conditions, ∀ leaf ∈ d.2.leaves, '\n' ∉ leaf.toList) :
    Draft.parse (Text.withReturns s) = .ok draft := by
  rw [Draft.parse, mapError_eq_ok_iff] at hread ⊢
  exact (Grammar.sameLines_withReturns hreturn).sheet hread hnames hleaves

/-- A comment, a blank line, a hook that takes up its line and a condition that does not
end with its own. -/
theorem Draft.parse_withReturns_comment :
    let text := "# paper\n\nhook \"paper\": @media print\ncondition screen: (NOT \"paper\")\n"
    let draft : Draft :=
      ⟨[("paper", .atRule .media " print")], [("screen", .not (.leaf "paper"))]⟩
    Draft.parse text = .ok draft ∧
      Text.withReturns text = "# paper\r\n\r\nhook \"paper\": @media print\r\n" ++
        "condition screen: (NOT \"paper\")\r\n" ∧
      Draft.parse (Text.withReturns text) = .ok draft := by
  intro text draft
  have hcondition : Grammar.Lists "\ncondition screen: (NOT \"paper\")\n".toList
      [.condition "screen" (.not (.leaf "paper"))] :=
    .cons (by decide : _ = _ ++ ['\n']) .feed (.nil rfl)
  have hlists : Grammar.Lists text.toList
      [.hook "paper" (.atRule .media " print"), .condition "screen" (.not (.leaf "paper"))] :=
    .cons (by decide) .feed hcondition
  have hwritable : ∀ d ∈ [Definition.hook "paper" (.atRule .media " print"),
      .condition "screen" (.not (.leaf "paper"))], d.Writable := by
    simp only [List.forall_mem_cons]
    refine ⟨⟨rfl, ?_, ?_, ?_⟩, rfl, nofun⟩ <;>
      simp [Hook.text, AtRule.keyword, Text.isBlank, Text.blankRanges]
  have hread : Draft.parse text = .ok draft := by
    rw [Draft.parse, Grammar.sheet_of_lists hlists hwritable]
    rfl
  refine ⟨hread, by decide, Draft.parse_withReturns text draft (by decide) hread ?_ ?_⟩
  · decide
  · simp [draft]

end Cascade
