import Cascade.Text.Quoted

/-!
# Blanks, names and literals

What both notations, that of conditions and that of sheets, are made of. Between
any two parts there may be blanks: ASCII white space and comments, which start
with `#` and end with their line.

A line ends before a line feed, before a carriage return with a line feed behind
it, or at the end of the text. Where a lone carriage return comes first the line
has no end, and a `#` in it starts no comment.
-/

namespace Cascade.Grammar

/-- ASCII white space, without the vertical tab. -/
def isSpace (c : Char) : Bool :=
  c == ' ' || c == '\t' || c == '\n' || c == '\x0c' || c == '\r'

/-- Whether a character can stand inside a line. -/
def isInLine (c : Char) : Bool := c != '\r' && c != '\n'

/-- Whether a line can end here. -/
def atLineEnd : List Char → Bool
  | [] => true
  | '\n' :: _ => true
  | '\r' :: '\n' :: _ => true
  | _ => false

theorem length_dropWhile_le (p : Char → Bool) (cs : List Char) :
    (cs.dropWhile p).length ≤ cs.length :=
  (List.dropWhile_sublist p).length_le

theorem drop_length_takeWhile (p : Char → Bool) (cs : List Char) :
    cs.drop (cs.takeWhile p).length = cs.dropWhile p := by
  conv => lhs; arg 2; rw [← List.takeWhile_append_dropWhile (p := p) (l := cs)]
  exact List.drop_left

/-- Passes over `n` characters, and then over all blanks. -/
def passOver : Nat → List Char → List Char
  | _, [] => []
  | n + 1, _ :: cs => passOver n cs
  | 0, c :: cs =>
    if isSpace c then passOver 0 cs
    else if c = '#' ∧ atLineEnd (cs.dropWhile isInLine) then
      passOver (cs.takeWhile isInLine).length cs
    else c :: cs

/-- The text without the blanks at its start. -/
def skipBlanks (cs : List Char) : List Char := passOver 0 cs

theorem passOver_eq_skipBlanks_drop (n : Nat) (cs : List Char) :
    passOver n cs = skipBlanks (cs.drop n) := by
  induction cs generalizing n with
  | nil => simp [passOver, skipBlanks]
  | cons c cs ih =>
    cases n with
    | zero => rfl
    | succ n => simpa [passOver] using ih n

@[simp] theorem skipBlanks_nil : skipBlanks [] = [] := rfl

/-- White space is skipped, and so is a comment; its line end is not part of
it. -/
theorem skipBlanks_cons (c : Char) (cs : List Char) :
    skipBlanks (c :: cs) =
      if isSpace c then skipBlanks cs
      else if c = '#' ∧ atLineEnd (cs.dropWhile isInLine) then
        skipBlanks (cs.dropWhile isInLine)
      else c :: cs := by
  rw [skipBlanks, passOver]
  simp only [passOver_eq_skipBlanks_drop, drop_length_takeWhile, List.drop_zero]

theorem length_passOver_le (n : Nat) (cs : List Char) :
    (passOver n cs).length ≤ cs.length := by
  fun_induction passOver n cs with
  | case1 => simp
  | case2 _ _ _ ih => exact Nat.le_succ_of_le ih
  | case3 _ _ _ ih => exact Nat.le_succ_of_le ih
  | case4 _ _ _ _ ih => exact Nat.le_succ_of_le ih
  | case5 => simp

theorem length_skipBlanks_le (cs : List Char) : (skipBlanks cs).length ≤ cs.length :=
  length_passOver_le 0 cs

/-- An identifier is a letter with letters and digits behind it, as many as
there are; ASCII only. -/
def identifier? : List Char → Option (String × List Char)
  | [] => none
  | c :: cs =>
    if c.isAlpha then
      some (String.ofList (c :: cs.takeWhile Char.isAlphanum), cs.dropWhile Char.isAlphanum)
    else none

theorem identifier?_length {cs rest : List Char} {word : String}
    (h : identifier? cs = some (word, rest)) : rest.length < cs.length := by
  cases cs with
  | nil => simp [identifier?] at h
  | cons c cs =>
    simp only [identifier?] at h
    split at h
    · have := length_dropWhile_le Char.isAlphanum cs
      simp only [Option.some.injEq, Prod.mk.injEq] at h
      simp only [← h.2, List.length_cons]
      omega
    · simp at h

/-- Whether a text is an identifier and nothing more. -/
def isIdentifier (s : String) : Bool :=
  match identifier? s.toList with
  | some (_, []) => true
  | _ => false

/-- Reads a literal up to its closing quote, the opening one being read already.
A backslash before a quote or a backslash is left out; before anything else it
stands for itself. -/
def literalTail? : List Char → Option (List Char × List Char)
  | [] => none
  | '"' :: rest => some ([], rest)
  | '\\' :: '"' :: rest => Text.prepend '"' (literalTail? rest)
  | '\\' :: '\\' :: rest => Text.prepend '\\' (literalTail? rest)
  | '\\' :: c :: rest => Text.prepend '\\' (Text.prepend c (literalTail? rest))
  | c :: rest => Text.prepend c (literalTail? rest)

theorem literalTail?_length {cs text rest : List Char}
    (h : literalTail? cs = some (text, rest)) : rest.length < cs.length := by
  fun_induction literalTail? cs generalizing text rest with
  | case1 => simp at h
  | case2 => simp_all
  | case3 _ ih | case4 _ ih | case6 _ _ _ _ _ _ ih =>
    obtain ⟨t, ht, -⟩ := Text.prepend_eq_some_iff.1 h
    have := ih ht
    simp only [List.length_cons]
    omega
  | case5 _ _ _ _ ih =>
    obtain ⟨t, ht, -⟩ := Text.prepend_eq_some_iff.1 h
    obtain ⟨t', ht', -⟩ := Text.prepend_eq_some_iff.1 ht
    have := ih ht'
    simp only [List.length_cons]
    omega

/-- A literal: text between double quotes. -/
def literal? : List Char → Option (String × List Char)
  | '"' :: cs => (literalTail? cs).map fun (text, rest) => (String.ofList text, rest)
  | _ => none

theorem literal?_length {cs rest : List Char} {text : String}
    (h : literal? cs = some (text, rest)) : rest.length < cs.length := by
  unfold literal? at h
  split at h
  · obtain ⟨⟨t, r⟩, ht, he⟩ := Option.map_eq_some_iff.1 h
    have := literalTail?_length ht
    simp only [Prod.mk.injEq] at he
    simp only [← he.2, List.length_cons]
    omega
  · simp at h

end Cascade.Grammar
