import Cascade.Proofs.Grammar.Lexemes

/-!
# The grammar of conditions

The phrases of the condition notation, as relations between a sequence of
lexemes and the condition it stands for:

* a disjunction is conjunctions with `OR` between them;
* a conjunction is negations with `AND` between them;
* a negation is `NOT` and a negation, or a primary;
* a primary is a disjunction in parentheses, a literal, a name or a constant.

A keyword counts in upper case and in lower case, as a whole word, and is no
name then. Several operands become the items of one node, and a lone operand
stays as it is.
-/

namespace Cascade.Grammar

/-! ## Keywords -/

/-- The words with a meaning of their own. -/
inductive Keyword where
  | and
  | or
  | not
  | true
  | false

namespace Keyword

/-- The two ways to write a keyword. -/
def spellings : Keyword → List String
  | and => ["AND", "and"]
  | or => ["OR", "or"]
  | not => ["NOT", "not"]
  | true => ["TRUE", "true"]
  | false => ["FALSE", "false"]

/-- The token that a keyword is. -/
def token : Keyword → Token
  | and => .and
  | or => .or
  | not => .not
  | true => .operand (.all [])
  | false => .operand (.any [])

end Keyword

/-- A word that is no keyword. -/
def IsName (word : String) : Prop := ∀ k : Keyword, word ∉ k.spellings

theorem Keyword.ofWord_eq {k : Keyword} {word : String} (h : word ∈ k.spellings) :
    Token.ofWord word = k.token := by
  cases k <;>
  · simp only [spellings, List.mem_cons, List.not_mem_nil, or_false] at h
    rcases h with rfl | rfl <;> rfl

theorem IsName.ofWord_eq {word : String} (h : IsName word) :
    Token.ofWord word = .operand (.leaf word) := by
  have hand := h .and
  have hor := h .or
  have hnot := h .not
  have htrue := h .true
  have hfalse := h .false
  unfold Token.ofWord
  split <;> simp_all [Keyword.spellings]

/-! ## Phrases -/

mutual

/-- Conjunctions with `OR` between them, as one condition. -/
inductive Disjunction : List Lexeme → Condition String → Prop where
  | lone {ls c} (operand : Disjuncts ls [c]) : Disjunction ls c
  | node {ls items} (operands : Disjuncts ls items) (several : 2 ≤ items.length) :
      Disjunction ls (.any items)

/-- The operands of `OR`, in order. -/
inductive Disjuncts : List Lexeme → List (Condition String) → Prop where
  | first {ls c} (operand : Conjunction ls c) : Disjuncts ls [c]
  | next {ls ls' items c word} (operands : Disjuncts ls items)
      (or : word ∈ Keyword.or.spellings) (operand : Conjunction ls' c) :
      Disjuncts (ls ++ .word word :: ls') (items ++ [c])

/-- Negations with `AND` between them, as one condition. -/
inductive Conjunction : List Lexeme → Condition String → Prop where
  | lone {ls c} (operand : Conjuncts ls [c]) : Conjunction ls c
  | node {ls items} (operands : Conjuncts ls items) (several : 2 ≤ items.length) :
      Conjunction ls (.all items)

/-- The operands of `AND`, in order. -/
inductive Conjuncts : List Lexeme → List (Condition String) → Prop where
  | first {ls c} (operand : Negation ls c) : Conjuncts ls [c]
  | next {ls ls' items c word} (operands : Conjuncts ls items)
      (and : word ∈ Keyword.and.spellings) (operand : Negation ls' c) :
      Conjuncts (ls ++ .word word :: ls') (items ++ [c])

/-- A primary with any number of `NOT`s in front. -/
inductive Negation : List Lexeme → Condition String → Prop where
  | not {ls c word} (not : word ∈ Keyword.not.spellings) (operand : Negation ls c) :
      Negation (.word word :: ls) (.not c)
  | primary {ls c} (primary : Primary ls c) : Negation ls c

/-- An operand without an operator of its own. -/
inductive Primary : List Lexeme → Condition String → Prop where
  | group {ls c} (inner : Disjunction ls c) : Primary (.opening :: ls ++ [.closing]) c
  | literal {text} : Primary [.literal text] (.leaf text)
  | name {word} (name : IsName word) : Primary [.word word] (.leaf word)
  | true {word} (true : word ∈ Keyword.true.spellings) : Primary [.word word] (.all [])
  | false {word} (false : word ∈ Keyword.false.spellings) : Primary [.word word] (.any [])

end

/-! ## Phrases of one lexeme -/

/-- A word is a keyword or a name, and its token is that of the one or the
other. -/
theorem ofWord_cases (word : String) :
    (∃ k : Keyword, word ∈ k.spellings ∧ Token.ofWord word = k.token) ∨
      IsName word ∧ Token.ofWord word = .operand (.leaf word) := by
  by_cases hname : IsName word
  · exact Or.inr ⟨hname, hname.ofWord_eq⟩
  · simp only [IsName, Classical.not_forall, Classical.not_not] at hname
    obtain ⟨k, hk⟩ := hname
    exact Or.inl ⟨k, hk, Keyword.ofWord_eq hk⟩

namespace Lexeme

/-- A parenthesis is read off a parenthesis only. -/
theorem eq_of_token {l parenthesis : Lexeme} (h : l.token = parenthesis.token)
    (hp : parenthesis = .opening ∨ parenthesis = .closing) : l = parenthesis := by
  cases l with
  | opening => rcases hp with rfl | rfl <;> first | rfl | exact absurd h nofun
  | closing => rcases hp with rfl | rfl <;> first | rfl | exact absurd h nofun
  | literal text => rcases hp with rfl | rfl <;> exact absurd h nofun
  | word word =>
    rcases ofWord_cases word with ⟨k, -, hk⟩ | ⟨-, hk⟩ <;> rw [token, hk] at h
    · cases k <;> rcases hp with rfl | rfl <;> exact absurd h nofun
    · rcases hp with rfl | rfl <;> exact absurd h nofun

/-- An operator is read off a keyword only. -/
theorem exists_word_of_token {l : Lexeme} {k : Keyword} (h : l.token = k.token)
    (hop : ∀ c, k.token ≠ .operand c) : ∃ word ∈ k.spellings, l = .word word := by
  cases l with
  | opening => cases k <;> exact absurd h nofun
  | closing => cases k <;> exact absurd h nofun
  | literal text => exact absurd h.symm (hop _)
  | word word =>
    rcases ofWord_cases word with ⟨k', hword, hk'⟩ | ⟨-, hk'⟩ <;> rw [token, hk'] at h
    · have hk : k' = k := by cases k <;> cases k' <;> first | rfl | exact absurd h nofun
      exact ⟨word, hk ▸ hword, rfl⟩
    · exact absurd h.symm (hop _)

/-- An operand is read off a primary of one lexeme. -/
theorem primary_of_token {l : Lexeme} {c : Condition String} (h : l.token = .operand c) :
    Primary [l] c := by
  cases l with
  | opening => exact absurd h nofun
  | closing => exact absurd h nofun
  | literal text =>
    cases h
    exact .literal
  | word word =>
    rcases ofWord_cases word with ⟨k, hword, hk⟩ | ⟨hname, hk⟩ <;> rw [token, hk] at h
    · cases k <;> cases h
      · exact .true hword
      · exact .false hword
    · cases h
      exact .name hname

end Lexeme

end Cascade.Grammar
