import Cascade.Grammar.Token
import Cascade.Text.Blank

/-!
# Lexemes

The texts of the condition notation as sequences of lexemes: parentheses,
literals and words, with blanks between and around them. `Lexes` is that
relation, stated without a reader.

There are three groups.

* Literals. `Escaped` relates what stands between the quotes to the text it
  stands for, and `literalTail?_eq_some_iff` says that this is what is read.
* The lexeme at the start of a text. `Starts` is the relation, and
  `here?_eq_some_iff` connects it to the tokens.
* Whole texts, and the first lexemes of a text. `lexes_nil_iff` and
  `lexes_cons_iff` take a sequence of lexemes apart the way the reader does, blanks
  first. `Takes` stops after some lexemes, with anything behind them, and
  `lexes_iff_takes` connects the two.
-/

namespace Cascade.Grammar

variable {cs rest : List Char}

/-! ## Literals -/

/-- The text that stands between quotes, and the text it stands for. -/
inductive Escaped : List Char → List Char → Prop where
  | nil : Escaped [] []
  | plain {c body text} (hquote : c ≠ '"') (hslash : c ≠ '\\') (tail : Escaped body text) :
      Escaped (c :: body) (c :: text)
  | escape {c body text} (hc : c = '"' ∨ c = '\\') (tail : Escaped body text) :
      Escaped ('\\' :: c :: body) (c :: text)
  | backslash {c body text} (hquote : c ≠ '"') (hslash : c ≠ '\\') (tail : Escaped body text) :
      Escaped ('\\' :: c :: body) ('\\' :: c :: text)

theorem Escaped.literalTail? {body text : List Char} (h : Escaped body text)
    (rest : List Char) : literalTail? (body ++ '"' :: rest) = some (text, rest) := by
  induction h with
  | nil => rfl
  | plain hquote hslash _ ih => simp_all [Grammar.literalTail?, Text.prepend]
  | escape hc _ ih => rcases hc with rfl | rfl <;> simp_all [Grammar.literalTail?, Text.prepend]
  | backslash hquote hslash _ ih => simp_all [Grammar.literalTail?, Text.prepend]

theorem exists_escaped_of_literalTail? {text : List Char}
    (h : literalTail? cs = some (text, rest)) :
    ∃ body, cs = body ++ '"' :: rest ∧ Escaped body text := by
  fun_induction literalTail? cs generalizing text with
  | case1 => simp at h
  | case2 rest' =>
    simp only [Option.some.injEq, Prod.mk.injEq] at h
    obtain ⟨rfl, rfl⟩ := h
    exact ⟨[], rfl, .nil⟩
  | case3 rest' ih =>
    obtain ⟨t, ht, rfl⟩ := Text.prepend_eq_some_iff.1 h
    obtain ⟨body, rfl, hbody⟩ := ih ht
    exact ⟨'\\' :: '"' :: body, rfl, .escape (Or.inl rfl) hbody⟩
  | case4 rest' ih =>
    obtain ⟨t, ht, rfl⟩ := Text.prepend_eq_some_iff.1 h
    obtain ⟨body, rfl, hbody⟩ := ih ht
    exact ⟨'\\' :: '\\' :: body, rfl, .escape (Or.inr rfl) hbody⟩
  | case5 c rest' hquote hslash ih =>
    obtain ⟨t, ht, rfl⟩ := Text.prepend_eq_some_iff.1 h
    obtain ⟨t', ht', rfl⟩ := Text.prepend_eq_some_iff.1 ht
    obtain ⟨body, rfl, hbody⟩ := ih ht'
    exact ⟨'\\' :: c :: body, rfl, .backslash hquote hslash hbody⟩
  | case6 c rest' hquote h1 h2 h3 ih =>
    obtain ⟨t, ht, rfl⟩ := Text.prepend_eq_some_iff.1 h
    obtain ⟨body, rfl, hbody⟩ := ih ht
    -- A backslash here would be the last character, and the closing quote is behind it.
    have hslash : c ≠ '\\' := by
      intro hc
      cases body with
      | nil => exact h3 '"' rest hc rfl
      | cons d body => exact h3 d _ hc rfl
    exact ⟨c :: body, rfl, .plain hquote hslash hbody⟩

/-- A literal is read up to the quote that is not escaped. -/
theorem literalTail?_eq_some_iff {text : List Char} :
    literalTail? cs = some (text, rest) ↔
      ∃ body, cs = body ++ '"' :: rest ∧ Escaped body text := by
  constructor
  · exact exists_escaped_of_literalTail?
  · rintro ⟨body, rfl, h⟩
    exact h.literalTail? rest

/-! ## Runs of characters -/

/-- A run ends in front of the first character that does not belong to it. -/
theorem takeWhile_dropWhile_run {p : Char → Bool} {run : List Char}
    (hrun : ∀ c ∈ run, p c = true) (hstop : ∀ c ∈ rest.head?, p c = false) :
    (run ++ rest).takeWhile p = run ∧ (run ++ rest).dropWhile p = rest := by
  have hdrop : (run ++ rest).dropWhile p = rest := by
    rw [List.dropWhile_append_of_pos hrun, Text.dropWhile_eq_self hstop]
  refine ⟨?_, hdrop⟩
  have happend : (run ++ rest).takeWhile p ++ rest = run ++ rest := by
    conv => lhs; arg 2; rw [← hdrop]
    exact List.takeWhile_append_dropWhile
  exact List.append_cancel_right happend

theorem head?_dropWhile_eq_false (p : Char → Bool) (cs : List Char) :
    ∀ c ∈ (cs.dropWhile p).head?, p c = false := by
  induction cs with
  | nil => simp
  | cons d cs ih =>
    rw [List.dropWhile_cons]
    split
    · exact ih
    · next hd => simpa using hd

theorem identifier?_eq_some_iff {word : String} :
    identifier? cs = some (word, rest) ↔
      ∃ c run, cs = c :: run ++ rest ∧ c.isAlpha = true ∧ (∀ d ∈ run, d.isAlphanum = true) ∧
        (∀ d ∈ rest.head?, d.isAlphanum = false) ∧ word = String.ofList (c :: run) := by
  constructor
  · intro h
    cases cs with
    | nil => simp [identifier?] at h
    | cons c cs =>
      rw [identifier?] at h
      split at h
      · next hc =>
        simp only [Option.some.injEq, Prod.mk.injEq] at h
        obtain ⟨rfl, rfl⟩ := h
        refine ⟨c, cs.takeWhile Char.isAlphanum, ?_, hc, ?_, ?_, rfl⟩
        · rw [List.cons_append, List.takeWhile_append_dropWhile]
        · exact List.all_eq_true.1 List.all_takeWhile
        · exact head?_dropWhile_eq_false Char.isAlphanum cs
      · simp at h
  · rintro ⟨c, run, rfl, hc, hrun, hstop, rfl⟩
    obtain ⟨htake, hdrop⟩ := takeWhile_dropWhile_run hrun hstop
    rw [List.cons_append, identifier?, if_pos hc, htake, hdrop]

theorem isIdentifier_iff {word : String} :
    isIdentifier word = true ↔
      ∃ c run, word.toList = c :: run ∧ c.isAlpha = true ∧ ∀ d ∈ run, d.isAlphanum = true := by
  unfold isIdentifier
  constructor
  · intro h
    split at h
    · next word' heq =>
      obtain ⟨c, run, hcs, hc, hrun, -, -⟩ := identifier?_eq_some_iff.1 heq
      rw [List.append_nil] at hcs
      exact ⟨c, run, hcs, hc, hrun⟩
    · exact absurd h nofun
  · intro h
    obtain ⟨c, run, hcs, hc, hrun⟩ := h
    have hread : identifier? word.toList = some (String.ofList (c :: run), []) :=
      identifier?_eq_some_iff.2 ⟨c, run, by rw [hcs, List.append_nil], hc, hrun, by simp, rfl⟩
    rw [hread]

/-! ## The lexeme at the start of a text -/

/-- A parenthesis, a literal or a word. A literal is given by the text it stands
for. -/
inductive Lexeme where
  | opening
  | closing
  | literal (text : String)
  | word (text : String)
deriving DecidableEq

/-- The token that a lexeme is. -/
def Lexeme.token : Lexeme → Token
  | opening => .opening
  | closing => .closing
  | literal text => .operand (.leaf text)
  | word text => .ofWord text

/-- A text that starts with a lexeme, and what is behind it. A word takes all the
letters and digits that there are. -/
inductive Starts : List Char → Lexeme → List Char → Prop where
  | opening {rest : List Char} : Starts ('(' :: rest) .opening rest
  | closing {rest : List Char} : Starts (')' :: rest) .closing rest
  | literal {body text rest : List Char} (hbody : Escaped body text) :
      Starts ('"' :: body ++ '"' :: rest) (.literal (String.ofList text)) rest
  | word {c : Char} {run rest : List Char} (hc : c.isAlpha = true)
      (hrun : ∀ d ∈ run, d.isAlphanum = true)
      (hstop : ∀ d ∈ rest.head?, d.isAlphanum = false) :
      Starts (c :: run ++ rest) (.word (String.ofList (c :: run))) rest

/-- A letter starts a word. -/
theorem here?_of_isAlpha {c : Char} (hc : c.isAlpha = true) (cs : List Char) :
    Token.here? (c :: cs) =
      (identifier? (c :: cs)).map fun (word, rest) => (Token.ofWord word, rest) := by
  unfold Token.here?
  split
  · next h => exact absurd hc (by rw [(List.cons.inj h).1]; decide)
  · next h => exact absurd hc (by rw [(List.cons.inj h).1]; decide)
  · next h => exact absurd hc (by rw [(List.cons.inj h).1]; decide)
  · rfl

theorem Starts.here? {l : Lexeme} (h : Starts cs l rest) :
    Token.here? cs = some (l.token, rest) := by
  cases h with
  | opening => rfl
  | closing => rfl
  | @literal body text _ hbody =>
    rw [List.cons_append, Token.here?, literal?, hbody.literalTail? rest]
    rfl
  | @word c run _ hc hrun hstop =>
    have hword := identifier?_eq_some_iff.2 ⟨c, run, rfl, hc, hrun, hstop, rfl⟩
    rw [List.cons_append, here?_of_isAlpha hc, ← List.cons_append, hword]
    rfl

theorem Starts.literal? {text : String} (h : Starts cs (.literal text) rest) :
    literal? cs = some (text, rest) := by
  cases h with
  | literal hbody =>
    rw [List.cons_append, Grammar.literal?, hbody.literalTail? rest]
    rfl

theorem Starts.identifier? {word : String} (h : Starts cs (.word word) rest) :
    identifier? cs = some (word, rest) := by
  cases h with
  | word hc hrun hstop => exact identifier?_eq_some_iff.2 ⟨_, _, rfl, hc, hrun, hstop, rfl⟩

theorem here?_eq_some_iff {token : Token} :
    Token.here? cs = some (token, rest) ↔ ∃ l, Starts cs l rest ∧ l.token = token := by
  constructor
  · intro h
    unfold Token.here? at h
    split at h
    · cases h
      exact ⟨.opening, .opening, rfl⟩
    · cases h
      exact ⟨.closing, .closing, rfl⟩
    · next cs =>
      rw [literal?, Option.map_map, Option.map_eq_some_iff] at h
      obtain ⟨⟨text, rest'⟩, htail, he⟩ := h
      cases he
      obtain ⟨body, rfl, hbody⟩ := literalTail?_eq_some_iff.1 htail
      exact ⟨.literal (String.ofList text), .literal hbody, rfl⟩
    · rw [Option.map_eq_some_iff] at h
      obtain ⟨⟨word, rest'⟩, hword, he⟩ := h
      cases he
      obtain ⟨c, run, rfl, hc, hrun, hstop, rfl⟩ := identifier?_eq_some_iff.1 hword
      exact ⟨.word (String.ofList (c :: run)), .word hc hrun hstop, rfl⟩
  · rintro ⟨l, hl, rfl⟩
    exact hl.here?

/-! ## Whole texts -/

/-- Where a line ends, and with it a comment. A lone carriage return does not end
one. -/
inductive LineEnd : List Char → Prop where
  | text : LineEnd []
  | feed {cs : List Char} : LineEnd ('\n' :: cs)
  | returnFeed {cs : List Char} : LineEnd ('\r' :: '\n' :: cs)

theorem atLineEnd_iff : atLineEnd cs = true ↔ LineEnd cs := by
  constructor
  · intro h
    unfold atLineEnd at h
    split at h
    · exact .text
    · exact .feed
    · exact .returnFeed
    · exact absurd h nofun
  · intro h
    cases h <;> rfl

/-- The lexemes of a text, in order. Between and around them there are blanks. -/
inductive Lexes : List Char → List Lexeme → Prop where
  | nil : Lexes [] []
  | space {c : Char} {cs : List Char} {ls : List Lexeme}
      (hc : c ∈ [' ', '\t', '\n', '\x0c', '\r']) (tail : Lexes cs ls) : Lexes (c :: cs) ls
  | comment {line cs : List Char} {ls : List Lexeme} (hline : ∀ c ∈ line, c ≠ '\r' ∧ c ≠ '\n')
      (hend : LineEnd cs) (tail : Lexes cs ls) : Lexes ('#' :: line ++ cs) ls
  | lexeme {cs rest : List Char} {l : Lexeme} {ls : List Lexeme} (hl : Starts cs l rest)
      (tail : Lexes rest ls) : Lexes cs (l :: ls)

theorem skipBlanks_space {c : Char} (hc : c ∈ [' ', '\t', '\n', '\x0c', '\r']) (cs : List Char) :
    skipBlanks (c :: cs) = skipBlanks cs := by
  have hspace : isSpace c = true := by simpa [isSpace, or_assoc] using hc
  rw [skipBlanks_cons, if_pos hspace]

theorem skipBlanks_comment {line : List Char} (hline : ∀ c ∈ line, c ≠ '\r' ∧ c ≠ '\n')
    (hend : LineEnd cs) : skipBlanks ('#' :: line ++ cs) = skipBlanks cs := by
  have hrun : ∀ c ∈ line, isInLine c = true := by simpa [isInLine] using hline
  have hstop : ∀ c ∈ cs.head?, isInLine c = false := by
    cases hend <;> simp [isInLine]
  have hdrop := (takeWhile_dropWhile_run hrun hstop).2
  have hspace : ¬isSpace '#' = true := by decide
  rw [List.cons_append, skipBlanks_cons, if_neg hspace, hdrop,
    if_pos ⟨rfl, atLineEnd_iff.2 hend⟩]

theorem skipBlanks_eq_self {c : Char} (hspace : isSpace c = false) (hhash : c ≠ '#')
    (cs : List Char) : skipBlanks (c :: cs) = c :: cs := by
  rw [skipBlanks_cons, if_neg (Bool.not_eq_true _ ▸ hspace), if_neg fun h => hhash h.1]

theorem isSpace_eq_false_of_isAlpha {c : Char} (hc : c.isAlpha = true) :
    isSpace c = false := by
  rw [← Bool.not_eq_true]
  intro h
  simp only [isSpace, Bool.or_eq_true, beq_iff_eq] at h
  rcases h with (((rfl | rfl) | rfl) | rfl) | rfl <;> exact absurd hc (by decide)

/-- No lexeme starts with a blank. -/
theorem Starts.skipBlanks {l : Lexeme} (h : Starts cs l rest) : skipBlanks cs = cs := by
  cases h with
  | opening => exact skipBlanks_eq_self rfl (by decide) _
  | closing => exact skipBlanks_eq_self rfl (by decide) _
  | literal => exact skipBlanks_eq_self rfl (by decide) _
  | @word c _ _ hc =>
    have hhash : c ≠ '#' := by
      rintro rfl
      exact absurd hc (by decide)
    exact skipBlanks_eq_self (isSpace_eq_false_of_isAlpha hc) hhash _

/-- After the blanks there is the first lexeme, or nothing. -/
theorem Lexes.skipBlanks {ls : List Lexeme} (h : Lexes cs ls) :
    ls = [] ∧ skipBlanks cs = [] ∨
      ∃ l ls' rest, ls = l :: ls' ∧ Starts (skipBlanks cs) l rest ∧ Lexes rest ls' := by
  induction h with
  | nil => exact Or.inl ⟨rfl, rfl⟩
  | space hc _ ih =>
    rw [skipBlanks_space hc]
    exact ih
  | comment hline hend _ ih =>
    rw [skipBlanks_comment hline hend]
    exact ih
  | @lexeme cs rest l ls hl tail _ =>
    rw [hl.skipBlanks]
    exact Or.inr ⟨l, ls, rest, rfl, hl, tail⟩

/-- Blanks in front of a text do not change its lexemes. -/
theorem Lexes.of_skipBlanks {ls : List Lexeme} (h : Lexes (Grammar.skipBlanks cs) ls) :
    Lexes cs ls := by
  -- `passOver` is the recursion behind `skipBlanks`.
  have key : ∀ n cs, Lexes (passOver n cs) ls → Lexes (cs.drop n) ls := by
    intro n cs
    fun_induction passOver n cs with
    | case1 n => simp
    | case2 n c cs ih => exact ih
    | case3 c cs hc ih =>
      intro h
      exact .space (by simpa [isSpace, or_assoc] using hc) (ih h)
    | case4 c cs _ hc ih =>
      intro h
      rw [drop_length_takeWhile] at ih
      have hline : ∀ d ∈ cs.takeWhile isInLine, d ≠ '\r' ∧ d ≠ '\n' := by
        simpa [isInLine] using List.all_eq_true.1 (List.all_takeWhile (p := isInLine) (l := cs))
      have hcomment := Lexes.comment hline (atLineEnd_iff.1 hc.2) (ih h)
      rwa [List.cons_append, List.takeWhile_append_dropWhile, ← hc.1] at hcomment
    | case5 c cs => exact id
  exact key 0 cs h

theorem lexes_nil_iff : Lexes cs [] ↔ skipBlanks cs = [] := by
  constructor
  · intro h
    rcases h.skipBlanks with ⟨-, hnil⟩ | ⟨l, ls, rest, he, -⟩
    · exact hnil
    · exact absurd he nofun
  · intro h
    apply Lexes.of_skipBlanks
    rw [h]
    exact .nil

theorem lexes_cons_iff {l : Lexeme} {ls : List Lexeme} :
    Lexes cs (l :: ls) ↔ ∃ rest, Starts (skipBlanks cs) l rest ∧ Lexes rest ls := by
  constructor
  · intro h
    rcases h.skipBlanks with ⟨he, -⟩ | ⟨l', ls', rest, he, hl, tail⟩
    · exact absurd he nofun
    · cases he
      exact ⟨rest, hl, tail⟩
  · rintro ⟨rest, hl, tail⟩
    exact .of_skipBlanks (.lexeme hl tail)

/-! ## The first lexemes of a text -/

/-- The lexemes at the start of a text, and what is left of it after them. -/
inductive Takes : List Char → List Lexeme → List Char → Prop where
  | nil {cs : List Char} : Takes cs [] cs
  | cons {cs mid rest : List Char} {l : Lexeme} {ls : List Lexeme}
      (hl : Starts (skipBlanks cs) l mid) (tail : Takes mid ls rest) : Takes cs (l :: ls) rest

section Takes

variable {mid : List Char} {l : Lexeme} {ls ls' : List Lexeme}

/-- The lexemes of a text are those at its start, if only blanks are left. -/
theorem lexes_iff_takes : Lexes cs ls ↔ ∃ rest, Takes cs ls rest ∧ skipBlanks rest = [] := by
  induction ls generalizing cs with
  | nil =>
    rw [lexes_nil_iff]
    constructor
    · intro h
      exact ⟨cs, .nil, h⟩
    · rintro ⟨_, ⟨⟩, h⟩
      exact h
  | cons l ls ih =>
    simp only [lexes_cons_iff, ih]
    constructor
    · rintro ⟨mid, hl, rest, htail, hrest⟩
      exact ⟨rest, .cons hl htail, hrest⟩
    · rintro ⟨rest, _ | ⟨hl, htail⟩, hrest⟩
      exact ⟨_, hl, rest, htail, hrest⟩

theorem Takes.append (h : Takes cs ls mid) (h' : Takes mid ls' rest) :
    Takes cs (ls ++ ls') rest := by
  induction h with
  | nil => exact h'
  | cons hl _ ih => exact .cons hl (ih h')

theorem takes_append_iff :
    Takes cs (ls ++ ls') rest ↔ ∃ mid, Takes cs ls mid ∧ Takes mid ls' rest := by
  constructor
  · intro h
    induction ls generalizing cs with
    | nil => exact ⟨cs, .nil, h⟩
    | cons l ls ih =>
      obtain _ | ⟨hl, htail⟩ := h
      obtain ⟨mid, hmid, hrest⟩ := ih htail
      exact ⟨mid, .cons hl hmid, hrest⟩
  · rintro ⟨mid, hmid, hrest⟩
    exact hmid.append hrest

end Takes

/-! ## The next token -/

theorem Starts.next? {l : Lexeme} (h : Starts (Grammar.skipBlanks cs) l rest) :
    Token.next? cs = some (l.token, rest) := h.here?

/-- A token that is read is that of a lexeme at the start of the text. -/
theorem exists_lexeme_of_next? {token : Token} (h : Token.next? cs = some (token, rest)) :
    ∃ l : Lexeme, l.token = token ∧ Starts (skipBlanks cs) l rest := by
  obtain ⟨l, hl, htoken⟩ := here?_eq_some_iff.1 h
  exact ⟨l, htoken, hl⟩

end Cascade.Grammar
