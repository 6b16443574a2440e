import Cascade.Json.Basic

/-!
# Tokens of JSON

The white space of JSON is space, tab, line feed and carriage return only.
`Token.next?` takes one token off the front of a text; `Token.next?_length` says
that the rest is shorter, which is why readers built on it end.
-/

namespace Cascade.Json

/-- A token. A number, a truth value and `null` are whole values already. -/
inductive Token where
  | openArray
  | closeArray
  | openObject
  | closeObject
  | comma
  | colon
  | text (value : String)
  | scalar (value : Json)

/-- Whether a character may stand between tokens. -/
def isSpace (c : Char) : Bool := c == ' ' || c == '\t' || c == '\n' || c == '\r'

namespace Token

/-- The token at the very start of a text, and what follows it. -/
def here? : List Char → Option (Token × List Char)
  | '[' :: rest => some (openArray, rest)
  | ']' :: rest => some (closeArray, rest)
  | '\x7b' :: rest => some (openObject, rest)
  | '\x7d' :: rest => some (closeObject, rest)
  | ',' :: rest => some (comma, rest)
  | ':' :: rest => some (colon, rest)
  | '"' :: rest => (Text.unquote? rest).map fun (s, rest) => (text (String.ofList s), rest)
  | 't' :: 'r' :: 'u' :: 'e' :: rest => some (scalar (bool true), rest)
  | 'f' :: 'a' :: 'l' :: 's' :: 'e' :: rest => some (scalar (bool false), rest)
  | 'n' :: 'u' :: 'l' :: 'l' :: rest => some (scalar null, rest)
  | cs => (Number.read? cs).map fun (n, rest) => (scalar (number n), rest)

/-- The first token of a text, and what follows it. -/
def next? (cs : List Char) : Option (Token × List Char) :=
  here? (cs.dropWhile isSpace)

end Token

/-- What follows a token is shorter than the text it was taken from. -/
theorem Token.next?_length {cs rest : List Char} {token : Token}
    (h : next? cs = some (token, rest)) : rest.length < cs.length := by
  have hspace := (List.dropWhile_sublist (l := cs) isSpace).length_le
  unfold next? at h
  generalize cs.dropWhile isSpace = ds at h hspace
  unfold here? at h
  split at h
  case h_7 =>
    obtain ⟨⟨t, r⟩, ht, he⟩ := Option.map_eq_some_iff.1 h
    have := Text.unquote?_length ht
    simp only [Prod.mk.injEq] at he
    simp only [List.length_cons, ← he.2] at *
    omega
  case h_11 =>
    obtain ⟨⟨n, r⟩, hn, he⟩ := Option.map_eq_some_iff.1 h
    have := Number.read?_length hn
    simp only [Prod.mk.injEq] at he
    simp only [← he.2] at *
    omega
  all_goals
    simp only [Option.some.injEq, Prod.mk.injEq] at h
    simp only [List.length_cons, ← h.2] at *
    omega

end Cascade.Json
