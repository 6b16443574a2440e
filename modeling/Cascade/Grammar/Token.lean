import Cascade.Condition.Basic
import Cascade.Grammar.Lexeme

/-!
# Tokens of the condition notation

An operator is a word that is written all in upper case or all in lower case. So
are the two constants; any other word is the name of a leaf, and so is a
literal.
-/

namespace Cascade.Grammar

/-- A token. An operand is a condition already. -/
inductive Token where
  | opening
  | closing
  | and
  | or
  | not
  | operand (condition : Condition String)
deriving DecidableEq

namespace Token

/-- The token that a word stands for. -/
def ofWord (word : String) : Token :=
  match word with
  | "AND" => and
  | "and" => and
  | "OR" => or
  | "or" => or
  | "NOT" => not
  | "not" => not
  | "TRUE" => operand (.all [])
  | "true" => operand (.all [])
  | "FALSE" => operand (.any [])
  | "false" => operand (.any [])
  | name => operand (.leaf name)

/-- The token at the very start of a text, and what follows it. -/
def here? : List Char → Option (Token × List Char)
  | '(' :: rest => some (opening, rest)
  | ')' :: rest => some (closing, rest)
  | '"' :: cs => (literal? ('"' :: cs)).map fun (text, rest) => (operand (.leaf text), rest)
  | cs => (identifier? cs).map fun (word, rest) => (ofWord word, rest)

theorem here?_length {cs rest : List Char} {token : Token}
    (h : here? cs = some (token, rest)) : rest.length < cs.length := by
  unfold here? at h
  split at h
  · simp_all
  · simp_all
  · obtain ⟨⟨t, r⟩, ht, he⟩ := Option.map_eq_some_iff.1 h
    simp only [Prod.mk.injEq] at he
    exact he.2 ▸ literal?_length ht
  · obtain ⟨⟨w, r⟩, hw, he⟩ := Option.map_eq_some_iff.1 h
    simp only [Prod.mk.injEq] at he
    exact he.2 ▸ identifier?_length hw

/-- The first token of a text, after blanks, and what follows it. -/
def next? (cs : List Char) : Option (Token × List Char) :=
  here? (skipBlanks cs)

theorem next?_length {cs rest : List Char} {token : Token}
    (h : next? cs = some (token, rest)) : rest.length < cs.length :=
  Nat.lt_of_lt_of_le (here?_length h) (length_skipBlanks_le cs)

end Token

end Cascade.Grammar
