import Cascade.Text.Extending
import Cascade.Text.Invisible

/-!
# Legible text

Text in quotes as a message shows it to a reader. The quotes that `Text.quoted`
writes are for reading back; here every character has to be seen. One that
cannot be, or that would join its neighbour, is given by its number.
-/

namespace Cascade.Text

/-- Whether a character can be seen, in a place of its own. -/
def isLegible (c : Char) : Bool := !isExtending c && !isInvisible c

/-- A character given by its number, in hexadecimal digits. -/
def numbered (c : Char) : List Char :=
  '\\' :: 'u' :: '\x7b' :: (Nat.toDigits 16 c.toNat ++ ['\x7d'])

/-- The letter that stands for a character after a backslash. -/
def letter? (c : Char) : Option Char :=
  match c with
  | '\x00' => some '0'
  | '\t' => some 't'
  | '\n' => some 'n'
  | '\r' => some 'r'
  | '"' => some '"'
  | '\\' => some '\\'
  | _ => none

/-- How a character is shown between the quotes. -/
def legibleChar (c : Char) : List Char :=
  match letter? c with
  | some letter => ['\\', letter]
  | none => if isLegible c then [c] else numbered c

/-- The text in quotes, for a reader. -/
def legible (s : String) : String :=
  String.ofList ('"' :: (s.toList.flatMap legibleChar ++ ['"']))

/-- From the space to the tilde every character is legible. -/
theorem isLegible_of_ascii {c : Char} (space : 0x20 ≤ c.toNat) (tilde : c.toNat < 0x7F) :
    isLegible c = true := by
  simp [isLegible, isExtending_of_ascii (show c.toNat < 0x80 by omega),
    isInvisible_of_ascii space tilde]

theorem isLegible_of_letter? {c letter : Char} (h : letter? c = some letter) :
    isLegible letter = true := by
  unfold letter? at h
  split at h <;> cases h <;> exact isLegible_of_ascii (by decide) (by decide)

theorem isLegible_of_mem_toDigits {n : Nat} {d : Char} (h : d ∈ Nat.toDigits 16 n) :
    isLegible d = true := by
  have digits : ∀ k < 16, 0x20 ≤ k.digitChar.toNat ∧ k.digitChar.toNat < 0x7F := by decide
  induction n using Nat.strongRecOn with
  | ind n ih =>
    by_cases small : n < 16
    · rw [Nat.toDigits_of_lt_base small, List.mem_singleton] at h
      exact h ▸ isLegible_of_ascii (digits n small).1 (digits n small).2
    · rw [← Nat.div_add_mod n 16, ← Nat.toDigits_append_toDigits (by decide) (by omega)
        (Nat.mod_lt n (by decide)), List.mem_append] at h
      rcases h with h | h
      · exact ih (n / 16) (by omega) h
      · exact ih (n % 16) (by omega) h

theorem isLegible_of_mem_numbered {c d : Char} (h : d ∈ numbered c) : isLegible d = true := by
  simp only [numbered, List.mem_cons, List.mem_append, List.not_mem_nil, or_false] at h
  rcases h with rfl | rfl | rfl | h | rfl
  · exact isLegible_of_ascii (by decide) (by decide)
  · exact isLegible_of_ascii (by decide) (by decide)
  · exact isLegible_of_ascii (by decide) (by decide)
  · exact isLegible_of_mem_toDigits h
  · exact isLegible_of_ascii (by decide) (by decide)

/-- Whatever is shown can be seen. -/
theorem isLegible_of_mem_legibleChar {c d : Char} (h : d ∈ legibleChar c) :
    isLegible d = true := by
  unfold legibleChar at h
  split at h
  next letter found =>
    simp only [List.mem_cons, List.not_mem_nil, or_false] at h
    rcases h with rfl | rfl
    · exact isLegible_of_ascii (by decide) (by decide)
    · exact isLegible_of_letter? found
  next =>
    split at h
    next legible => exact List.mem_singleton.1 h ▸ legible
    next => exact isLegible_of_mem_numbered h

end Cascade.Text
