import Cascade.ParseError
import Cascade.Proofs.Grammar.Derivation
import Cascade.Proofs.Table

/-!
# Reading follows the grammar

The reader of conditions accepts exactly the texts whose lexemes are a
disjunction, and gives the condition that the disjunction stands for.

There are three groups.

* One step of the reader, by the token that comes next.
* What the grammar derives is read. `Disjunction.passes` and the theorems with it
  follow the derivation of a phrase: the reader passes over the lexemes of the
  phrase, whatever the level, the groups around it and the text behind it. It stops
  where no operator follows (`expression_of_disjunction`).
* What is read is derived. `Level.Before` and `Level.After` say what the lexemes
  on a level are when an operand has to come and when an operator may, `Enclosed`
  what those in front of the open parentheses are, and `HaveRead` what all of them
  are. Every step keeps this, so that at the end they are a disjunction
  (`operand_completes`).
-/

namespace Cascade

namespace Grammar

/-! ## One step -/

theorem operand_eq (level : Level) (groups : List Group) (cs : List Char) :
    operand level groups cs =
      match Token.next? cs with
      | some (.not, rest) => operand level.negate groups rest
      | some (.opening, rest) => operand .fresh (⟨skipBlanks cs, level⟩ :: groups) rest
      | some (.operand c, rest) => operator (level.push c) groups rest
      | _ => .error (Failure.leave ⟨skipBlanks cs, [.condition], none⟩ level.committed groups) := by
  rw [operand]
  split <;> simp_all

theorem operator_eq (level : Level) (groups : List Group) (cs : List Char) :
    operator level groups cs =
      match Token.next? cs, groups with
      | some (.and, rest), groups => operand level groups rest
      | some (.or, rest), groups => operand level.next groups rest
      | some (.closing, rest), group :: groups =>
        operator (group.outer.push level.result) groups rest
      | _, groups => stop level groups cs := by
  rw [operator]
  split <;> simp_all
  cases groups <;> rfl

/-! ## What the grammar derives is read -/

theorem negated_not (n : Nat) (c : Condition String) : negated n (.not c) = .not (negated n c) := by
  induction n with
  | zero => rfl
  | succ n ih => rw [negated, ih, negated]

/-- A `NOT` is part of the operand behind it. -/
theorem Level.push_negate (level : Level) (c : Condition String) :
    level.negate.push c = level.push (.not c) := by
  simp only [negate, push, negated_not]
  rfl

theorem chain_of_length_ne_one {node : List (Condition String) → Condition String}
    {items : List (Condition String)} (h : items.length ≠ 1) : chain node items = node items := by
  unfold chain
  split
  · exact absurd rfl h
  · rfl

section Steps

variable {level : Level} {groups : List Group} {cs rest : List Char} {word : String}

theorem operand_operand {l : Lexeme} {c : Condition String} (hl : Starts (skipBlanks cs) l rest)
    (h : l.token = .operand c) :
    operand level groups cs = operator (level.push c) groups rest := by
  rw [operand_eq, hl.next?, h]

theorem operand_not (hl : Starts (skipBlanks cs) (.word word) rest)
    (hword : word ∈ Keyword.not.spellings) :
    operand level groups cs = operand level.negate groups rest := by
  rw [operand_eq, hl.next?, Lexeme.token, Keyword.ofWord_eq hword]
  rfl

theorem operand_opening (hl : Starts (skipBlanks cs) .opening rest) :
    operand level groups cs = operand .fresh (⟨skipBlanks cs, level⟩ :: groups) rest := by
  rw [operand_eq, hl.next?]
  rfl

theorem operator_closing {group : Group} (hl : Starts (skipBlanks cs) .closing rest) :
    operator level (group :: groups) cs =
      operator (group.outer.push level.result) groups rest := by
  rw [operator_eq, hl.next?]
  rfl

theorem operator_and (hl : Starts (skipBlanks cs) (.word word) rest)
    (hword : word ∈ Keyword.and.spellings) :
    operator level groups cs = operand level groups rest := by
  rw [operator_eq, hl.next?, Lexeme.token, Keyword.ofWord_eq hword]
  rfl

theorem operator_or (hl : Starts (skipBlanks cs) (.word word) rest)
    (hword : word ∈ Keyword.or.spellings) :
    operator level groups cs = operand level.next groups rest := by
  rw [operator_eq, hl.next?, Lexeme.token, Keyword.ofWord_eq hword]
  rfl

end Steps

-- From a state in which an operand has to come, the reader passes over a phrase to
-- one in which an operator may. The recursion is on the derivation, with a case for
-- each rule of the grammar.
mutual

/-- A disjunction is read as the condition of a level. -/
theorem Disjunction.passes {ls : List Lexeme} {c : Condition String} :
    Disjunction ls c → ∀ groups {cs rest}, Takes cs ls rest →
      ∃ level, operand .fresh groups cs = operator level groups rest ∧ level.result = c
  | .lone operand, groups, cs, rest, hcs => by
    obtain ⟨level, hpass, hitems⟩ := operand.passes groups hcs
    refine ⟨level, hpass, ?_⟩
    rw [Level.result, hitems, chain]
  | .node operands several, groups, cs, rest, hcs => by
    obtain ⟨level, hpass, hitems⟩ := operands.passes groups hcs
    refine ⟨level, hpass, ?_⟩
    rw [Level.result, hitems, chain_of_length_ne_one (by omega)]

/-- The operands of `OR` are read one after the other. -/
theorem Disjuncts.passes {ls : List Lexeme} {items : List (Condition String)} :
    Disjuncts ls items → ∀ groups {cs rest}, Takes cs ls rest →
      ∃ level, operand .fresh groups cs = operator level groups rest ∧
        (level.disjunct :: level.disjuncts).reverse = items
  | .first operand, groups, cs, rest, hcs => by
    obtain ⟨level, hpass, hlast, hothers⟩ := operand.passes [] groups hcs
    exact ⟨level, hpass, by rw [hlast, hothers]; rfl⟩
  | .next operands or operand, groups, cs, rest, hcs => by
    obtain ⟨mid, hmid, _ | ⟨hl, htail⟩⟩ := takes_append_iff.1 hcs
    obtain ⟨level, hpass, rfl⟩ := operands.passes groups hmid
    obtain ⟨last, hpass', hlast, hothers⟩ := operand.passes _ groups htail
    refine ⟨last, ?_, by rw [hlast, hothers, List.reverse_cons]⟩
    rw [hpass, operator_or hl or, ← hpass']
    rfl

/-- A conjunction is read as the operand of `OR` that comes next. -/
theorem Conjunction.passes {ls : List Lexeme} {c : Condition String} :
    Conjunction ls c → ∀ disjuncts groups {cs rest}, Takes cs ls rest →
      ∃ level, operand ⟨disjuncts, [], 0⟩ groups cs = operator level groups rest ∧
        level.disjunct = c ∧ level.disjuncts = disjuncts
  | .lone operand, disjuncts, groups, cs, rest, hcs =>
    ⟨_, operand.passes disjuncts groups hcs, rfl, rfl⟩
  | .node operands several, disjuncts, groups, cs, rest, hcs => by
    refine ⟨_, operands.passes disjuncts groups hcs, ?_, rfl⟩
    rw [Level.disjunct, List.reverse_reverse, chain_of_length_ne_one (by omega)]

/-- The operands of `AND` are read one after the other. -/
theorem Conjuncts.passes {ls : List Lexeme} {items : List (Condition String)} :
    Conjuncts ls items → ∀ disjuncts groups {cs rest}, Takes cs ls rest →
      operand ⟨disjuncts, [], 0⟩ groups cs = operator ⟨disjuncts, items.reverse, 0⟩ groups rest
  | .first operand, disjuncts, groups, cs, rest, hcs =>
    operand.passes ⟨disjuncts, [], 0⟩ groups hcs
  | .next operands and operand, disjuncts, groups, cs, rest, hcs => by
    obtain ⟨mid, hmid, _ | ⟨hl, htail⟩⟩ := takes_append_iff.1 hcs
    rw [operands.passes disjuncts groups hmid, operator_and hl and,
      operand.passes _ groups htail, List.reverse_append]
    rfl

/-- A negation is read as an operand. -/
theorem Negation.passes {ls : List Lexeme} {c : Condition String} :
    Negation ls c → ∀ level groups {cs rest}, Takes cs ls rest →
      operand level groups cs = operator (level.push c) groups rest
  | .not not operand, level, groups, cs, rest, .cons hl htail => by
    rw [operand_not hl not, operand.passes level.negate groups htail, Level.push_negate]
  | .primary primary, level, groups, cs, rest, hcs => primary.passes level groups hcs

/-- A primary is read as an operand. -/
theorem Primary.passes {ls : List Lexeme} {c : Condition String} :
    Primary ls c → ∀ level groups {cs rest}, Takes cs ls rest →
      operand level groups cs = operator (level.push c) groups rest
  | .group inner, level, groups, cs, rest, .cons hopening htail => by
    obtain ⟨mid, hmid, _ | ⟨hclosing, _ | _⟩⟩ := takes_append_iff.1 htail
    obtain ⟨last, hpass, rfl⟩ := inner.passes (⟨skipBlanks cs, level⟩ :: groups) hmid
    rw [operand_opening hopening, hpass, operator_closing hclosing]
  | .literal, level, groups, cs, rest, .cons hl .nil => operand_operand hl rfl
  | .name name, level, groups, cs, rest, .cons hl .nil => operand_operand hl name.ofWord_eq
  | .true keyword, level, groups, cs, rest, .cons hl .nil =>
    operand_operand hl (Keyword.ofWord_eq keyword)
  | .false keyword, level, groups, cs, rest, .cons hl .nil =>
    operand_operand hl (Keyword.ofWord_eq keyword)

end

/-- Whether no operator follows. -/
def Final (cs : List Char) : Prop :=
  ∀ rest, Token.next? cs ≠ some (.and, rest) ∧ Token.next? cs ≠ some (.or, rest)

theorem final_of_blank {cs : List Char} (h : skipBlanks cs = []) : Final cs := by
  intro rest
  rw [Token.next?, h]
  simp [Token.here?, identifier?]

theorem final_of_operand {cs rest : List Char} {c : Condition String}
    (h : Token.next? cs = some (.operand c, rest)) : Final cs := by
  intro rest'
  simp [h]

/-- A condition is read up to where no operator follows. -/
theorem expression_of_disjunction {cs rest : List Char} {ls : List Lexeme} {c : Condition String}
    (hcs : Takes cs ls rest) (h : Disjunction ls c) (hrest : Final rest) :
    expression cs = .ok (c, rest) := by
  obtain ⟨level, hpass, rfl⟩ := h.passes [] hcs
  rw [expression, hpass, operator_eq]
  split
  · next hnext => exact absurd hnext (hrest _).1
  · next hnext => exact absurd hnext (hrest _).2
  · next hgroups => exact absurd hgroups nofun
  · rfl

/-- A text that the grammar derives is accepted. -/
theorem condition_of_disjunction {cs : List Char} {ls : List Lexeme} {c : Condition String}
    (hcs : Lexes cs ls) (h : Disjunction ls c) : condition cs = .ok c := by
  obtain ⟨rest, htakes, hrest⟩ := lexes_iff_takes.1 hcs
  rw [condition, expression_of_disjunction htakes h (final_of_blank hrest)]
  show finish c rest = _
  rw [finish, hrest]

/-! ## What is read is derived

The lexemes of one level are operands of `OR`, then operands of `AND`, then
`NOT`s, each with the operator behind it that makes the reader wait for the next
operand. -/

/-- Operands with an operator behind the last of them, or nothing. -/
inductive Awaiting (op : Keyword) (Operands : List Lexeme → List (Condition String) → Prop) :
    List Lexeme → List (Condition String) → Prop where
  | nil : Awaiting op Operands [] []
  | operator {ls items word} (operands : Operands ls items) (hword : word ∈ op.spellings) :
      Awaiting op Operands (ls ++ [.word word]) items

/-- A number of `NOT`s. -/
inductive Nots : List Lexeme → Nat → Prop where
  | nil : Nots [] 0
  | cons {ls n word} (hword : word ∈ Keyword.not.spellings) (tail : Nots ls n) :
      Nots (.word word :: ls) (n + 1)

/-- The lexemes on a level when an operand has to come. -/
def Level.Before (level : Level) (ls : List Lexeme) : Prop :=
  ∃ ds cs ns, ls = ds ++ cs ++ ns ∧ Awaiting .or Disjuncts ds level.disjuncts.reverse ∧
    Awaiting .and Conjuncts cs level.conjuncts.reverse ∧ Nots ns level.negations

/-- The lexemes on a level when an operator may come. -/
def Level.After (level : Level) (ls : List Lexeme) : Prop :=
  ∃ ds cs, ls = ds ++ cs ∧ Awaiting .or Disjuncts ds level.disjuncts.reverse ∧
    Conjuncts cs level.conjuncts.reverse ∧ level.negations = 0

/-- The lexemes in front of the current level, up to the parenthesis that opened
it. -/
inductive Enclosed : List Group → List Lexeme → Prop where
  | nil : Enclosed [] []
  | cons {group groups ls ls'} (outer : Enclosed groups ls) (before : group.outer.Before ls') :
      Enclosed (group :: groups) (ls ++ ls' ++ [.opening])

/-- All lexemes that have been read, given what those on the current level are. -/
def HaveRead (groups : List Group) (OnLevel : List Lexeme → Prop) (ls : List Lexeme) : Prop :=
  ∃ outer own, ls = outer ++ own ∧ Enclosed groups outer ∧ OnLevel own

section Derived

variable {level : Level} {groups : List Group} {ls ls' : List Lexeme}
  {items : List (Condition String)} {c : Condition String} {word : String}

/-- The operand that was awaited comes first, or next to the others. -/
theorem Awaiting.append {op : Keyword}
    {Operands : List Lexeme → List (Condition String) → Prop} (h : Awaiting op Operands ls items)
    (hfirst : Operands ls' [c])
    (hnext : ∀ {ls items word}, Operands ls items → word ∈ op.spellings →
      Operands (ls ++ .word word :: ls') (items ++ [c])) :
    Operands (ls ++ ls') (items ++ [c]) := by
  cases h with
  | nil => exact hfirst
  | operator operands hword =>
    rw [List.append_assoc]
    exact hnext operands hword

theorem Nots.negation {n : Nat} (h : Nots ls n) (hc : Primary ls' c) :
    Negation (ls ++ ls') (negated n c) := by
  induction h with
  | nil => exact .primary hc
  | cons hword _ ih => exact .not hword ih

theorem Nots.snoc {n : Nat} (h : Nots ls n) (hword : word ∈ Keyword.not.spellings) :
    Nots (ls ++ [.word word]) (n + 1) := by
  induction h with
  | nil => exact .cons hword .nil
  | cons hword' _ ih => exact .cons hword' ih

/-- Operands are joined to a node, or there is one and it stays as it is. -/
theorem chain_elim {node : List (Condition String) → Condition String}
    {P : Condition String → Prop} (hne : items ≠ []) (hlone : ∀ c, items = [c] → P c)
    (hnode : 2 ≤ items.length → P (node items)) : P (chain node items) := by
  match items with
  | [] => exact absurd rfl hne
  | [c] => exact hlone c rfl
  | c :: d :: items => exact hnode (by simp)

theorem Conjuncts.conjunction (h : Conjuncts ls items) : Conjunction ls (chain .all items) := by
  have hne : items ≠ [] := by cases h <;> simp
  exact chain_elim hne (fun c he => .lone (he ▸ h)) (.node h)

theorem Disjuncts.disjunction (h : Disjuncts ls items) : Disjunction ls (chain .any items) := by
  have hne : items ≠ [] := by cases h <;> simp
  exact chain_elim hne (fun c he => .lone (he ▸ h)) (.node h)

/-! ### One step on a level -/

theorem Level.before_fresh : fresh.Before [] := ⟨[], [], [], rfl, .nil, .nil, .nil⟩

theorem Level.Before.negate (h : level.Before ls) (hword : word ∈ Keyword.not.spellings) :
    level.negate.Before (ls ++ [.word word]) := by
  obtain ⟨ds, cs, ns, rfl, hds, hcs, hns⟩ := h
  exact ⟨ds, cs, ns ++ [.word word], by simp, hds, hcs, hns.snoc hword⟩

theorem Level.Before.push (h : level.Before ls) (hc : Primary ls' c) :
    (level.push c).After (ls ++ ls') := by
  obtain ⟨ds, cs, ns, rfl, hds, hcs, hns⟩ := h
  refine ⟨ds, cs ++ (ns ++ ls'), by simp, hds, ?_, rfl⟩
  rw [Level.push, List.reverse_cons]
  have hoperand := hns.negation hc
  exact hcs.append (.first hoperand) fun operands hword => .next operands hword hoperand

theorem Level.After.and (h : level.After ls) (hword : word ∈ Keyword.and.spellings) :
    level.Before (ls ++ [.word word]) := by
  obtain ⟨ds, cs, rfl, hds, hcs, hnone⟩ := h
  refine ⟨ds, cs ++ [.word word], [], by simp, hds, .operator hcs hword, ?_⟩
  rw [hnone]
  exact .nil

/-- The operands of `AND` are an operand of `OR`. -/
theorem Level.After.disjuncts (h : level.After ls) :
    Disjuncts ls (level.disjunct :: level.disjuncts).reverse := by
  obtain ⟨ds, cs, rfl, hds, hcs, -⟩ := h
  rw [List.reverse_cons]
  have hoperand := hcs.conjunction
  exact hds.append (.first hoperand) fun operands hword => .next operands hword hoperand

theorem Level.After.next (h : level.After ls) (hword : word ∈ Keyword.or.spellings) :
    level.next.Before (ls ++ [.word word]) :=
  ⟨ls ++ [.word word], [], [], by simp, .operator h.disjuncts hword, .nil, .nil⟩

theorem Level.After.result (h : level.After ls) : Disjunction ls level.result :=
  h.disjuncts.disjunction

/-! ### One step of the reader -/

/-- A step that stays on the level. -/
theorem HaveRead.append {OnLevel OnLevel' : List Lexeme → Prop} (h : HaveRead groups OnLevel ls)
    (hstep : ∀ {own}, OnLevel own → OnLevel' (own ++ ls')) :
    HaveRead groups OnLevel' (ls ++ ls') := by
  obtain ⟨outer, own, rfl, houter, hown⟩ := h
  exact ⟨outer, own ++ ls', by simp, houter, hstep hown⟩

theorem HaveRead.opening (h : HaveRead groups level.Before ls) (cs : List Char) :
    HaveRead (⟨cs, level⟩ :: groups) Level.fresh.Before (ls ++ [.opening]) := by
  obtain ⟨outer, own, rfl, houter, hown⟩ := h
  exact ⟨outer ++ own ++ [.opening], [], by simp, .cons houter hown, Level.before_fresh⟩

/-- A closing parenthesis makes the condition on the level a primary on the level
around it. -/
theorem HaveRead.closing {group : Group} (h : HaveRead (group :: groups) level.After ls) :
    HaveRead groups (group.outer.push level.result).After (ls ++ [.closing]) := by
  obtain ⟨_, own, rfl, houter, hown⟩ := h
  cases houter with
  | @cons _ _ outer before houter hbefore =>
    have hprimary : Primary (.opening :: own ++ [.closing]) level.result := .group hown.result
    exact ⟨outer, _, by simp, houter, hbefore.push hprimary⟩

/-! ### The whole run -/

/-- What has been read of `cs` down to `rest` completes `ls` to a disjunction, and no
operator follows. -/
def Completes (ls : List Lexeme) (cs rest : List Char) (c : Condition String) : Prop :=
  ∃ ls', Takes cs ls' rest ∧ Disjunction (ls ++ ls') c ∧ Final rest

theorem Completes.step {l : Lexeme} {cs mid rest : List Char} (hl : Starts (skipBlanks cs) l mid)
    (h : Completes (ls ++ [l]) mid rest c) : Completes ls cs rest c := by
  obtain ⟨ls', htakes, hc, hfinal⟩ := h
  refine ⟨l :: ls', .cons hl htakes, ?_, hfinal⟩
  rwa [List.append_assoc] at hc

/-- The reader stops with a condition only outside of all groups. -/
theorem HaveRead.stop {cs rest : List Char} (h : HaveRead groups level.After ls)
    (hfinal : Final cs) (hread : Grammar.stop level groups cs = .ok (c, rest)) :
    Completes ls cs rest c := by
  obtain ⟨_, own, rfl, houter, hown⟩ := h
  cases houter with
  | nil =>
    cases hread
    refine ⟨[], .nil, ?_, hfinal⟩
    rw [List.append_nil]
    exact hown.result
  | cons => exact absurd hread nofun

end Derived

-- The recursion is that of the reader: what has been read grows by the lexeme of
-- the token, and the text is shorter after it.
mutual

/-- From a state in which an operand has to come. -/
theorem operand_completes {level : Level} {groups : List Group} {ls : List Lexeme}
    {cs rest : List Char} {c : Condition String} (h : HaveRead groups level.Before ls)
    (hread : operand level groups cs = .ok (c, rest)) : Completes ls cs rest c := by
  rw [operand_eq] at hread
  split at hread
  · next mid hnext =>
    obtain ⟨l, hl, hstarts⟩ := exists_lexeme_of_next? hnext
    obtain ⟨word, hword, rfl⟩ := Lexeme.exists_word_of_token (k := .not) hl nofun
    exact .step hstarts (operand_completes (h.append fun hown => hown.negate hword) hread)
  · next mid hnext =>
    obtain ⟨l, hl, hstarts⟩ := exists_lexeme_of_next? hnext
    obtain rfl : l = .opening := Lexeme.eq_of_token hl (Or.inl rfl)
    exact .step hstarts (operand_completes (h.opening _) hread)
  · next c' mid hnext =>
    obtain ⟨l, hl, hstarts⟩ := exists_lexeme_of_next? hnext
    have hprimary := Lexeme.primary_of_token hl
    exact .step hstarts (operator_completes (h.append fun hown => hown.push hprimary) hread)
  · exact absurd hread nofun
termination_by cs.length
decreasing_by
  all_goals exact Token.next?_length ‹_›

/-- From a state in which an operator may come. -/
theorem operator_completes {level : Level} {groups : List Group} {ls : List Lexeme}
    {cs rest : List Char} {c : Condition String} (h : HaveRead groups level.After ls)
    (hread : operator level groups cs = .ok (c, rest)) : Completes ls cs rest c := by
  rw [operator_eq] at hread
  split at hread
  · next mid _ hnext =>
    obtain ⟨l, hl, hstarts⟩ := exists_lexeme_of_next? hnext
    obtain ⟨word, hword, rfl⟩ := Lexeme.exists_word_of_token (k := .and) hl nofun
    exact .step hstarts (operand_completes (h.append fun hown => hown.and hword) hread)
  · next mid _ hnext =>
    obtain ⟨l, hl, hstarts⟩ := exists_lexeme_of_next? hnext
    obtain ⟨word, hword, rfl⟩ := Lexeme.exists_word_of_token (k := .or) hl nofun
    exact .step hstarts (operand_completes (h.append fun hown => hown.next hword) hread)
  · next mid group groups hnext =>
    obtain ⟨l, hl, hstarts⟩ := exists_lexeme_of_next? hnext
    obtain rfl : l = .closing := Lexeme.eq_of_token hl (Or.inr rfl)
    exact .step hstarts (operator_completes h.closing hread)
  · next hand hor _ =>
    exact h.stop (fun rest => ⟨hand rest, hor rest⟩) hread
termination_by cs.length
decreasing_by
  all_goals exact Token.next?_length ‹_›

end

/-- A condition is read off the start of a text exactly if there is a disjunction there
with no operator behind it. -/
theorem expression_eq_ok_iff {cs rest : List Char} {c : Condition String} :
    expression cs = .ok (c, rest) ↔ ∃ ls, Takes cs ls rest ∧ Disjunction ls c ∧ Final rest := by
  constructor
  · intro h
    have hstart : HaveRead [] Level.fresh.Before [] := ⟨[], [], rfl, .nil, Level.before_fresh⟩
    exact operand_completes hstart h
  · rintro ⟨ls, htakes, hc, hfinal⟩
    exact expression_of_disjunction htakes hc hfinal

/-- A text that is accepted is derived by the grammar. -/
theorem exists_disjunction_of_condition {cs : List Char} {c : Condition String}
    (h : condition cs = .ok c) : ∃ ls, Lexes cs ls ∧ Disjunction ls c := by
  cases hread : expression cs with
  | error failure =>
    rw [condition, hread] at h
    exact absurd h nofun
  | ok result =>
    obtain ⟨c', rest⟩ := result
    rw [condition, hread] at h
    change finish c' rest = .ok c at h
    obtain ⟨ls, htakes, hc, -⟩ := expression_eq_ok_iff.1 hread
    unfold finish at h
    split at h
    · next hrest =>
      cases h
      exact ⟨ls, lexes_iff_takes.2 ⟨rest, htakes, hrest⟩, hc⟩
    · exact absurd h nofun

end Grammar

namespace Condition

theorem parse_eq_ok {s : String} {c : Condition String} :
    parse s = .ok c ↔ Grammar.condition s.toList = .ok c := by
  rw [parse, mapError_eq_ok_iff]

/-- A text is read as a condition exactly if it is a sequence of lexemes from which
the grammar derives that condition. -/
theorem parse_eq_ok_iff_derived (s : String) (c : Condition String) :
    parse s = .ok c ↔ ∃ ls, Grammar.Lexes s.toList ls ∧ Grammar.Disjunction ls c := by
  rw [parse_eq_ok]
  constructor
  · exact Grammar.exists_disjunction_of_condition
  · rintro ⟨ls, hls, hc⟩
    exact Grammar.condition_of_disjunction hls hc

end Condition

end Cascade
