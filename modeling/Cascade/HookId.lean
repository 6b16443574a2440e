import Cascade.Text.Quoted
import Cascade.Text.Units

/-!
# Identifiers of hooks

A hook is known to CSS by a short identifier. It is a fingerprint of the hook's
text, written in base 36 with a letter in front, so that it can stand inside the
name of a custom property.

The fingerprint keeps 31 bits, so two texts may share an identifier. Nothing in
the library assumes that they do not.
-/

namespace Cascade

/-- The identifier of a hook. -/
structure HookId where
  text : String
deriving DecidableEq, Inhabited

namespace HookId

/-- The bits a fingerprint keeps. -/
def mask : UInt32 := 0x7fffffff

/-- Takes one more code unit into a fingerprint: thirty-one times the old one,
as a shift and a subtraction, plus the unit. -/
def absorb (h : UInt32) (unit : UInt16) : UInt32 :=
  ((h <<< 5) - h + unit.toUInt32) &&& mask

/-- The fingerprint of a text, taken over its code units from left to right. -/
def fingerprint (s : String) : UInt32 :=
  (Text.units s).foldl absorb 0

/-- The digit of a number below 36: `0` to `9`, then `a` to `z`. -/
def digit (n : Nat) : Char :=
  if n < 10 then Char.ofNat ('0'.toNat + n) else Char.ofNat ('a'.toNat + (n - 10))

/-- The numeral in base 36, without leading zeros. -/
def numeral (n : Nat) : List Char :=
  if n < 36 then [digit n] else numeral (n / 36) ++ [digit (n % 36)]
termination_by n
decreasing_by omega

/-- The identifier of a fingerprint: its numeral, after an `a` when the numeral
starts with a decimal digit. -/
def encode (n : Nat) : HookId :=
  match numeral n with
  | [] => ⟨""⟩
  | c :: cs => ⟨String.ofList (if c.isDigit then 'a' :: c :: cs else c :: cs)⟩

/-- The identifier of a text: the fingerprint is that of the text in quotes. -/
def ofText (s : String) : HookId :=
  encode (fingerprint (Text.quoted s)).toNat

end HookId

end Cascade
