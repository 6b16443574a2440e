/-!
# Code units of sixteen bits

A character of the basic plane is one unit, its code point. Any other is two:
a leading and a trailing surrogate with ten bits each of its code point less
`0x10000`.
-/

namespace Cascade.Text

/-- The units of one character. -/
def unitsOfChar (c : Char) : List UInt16 :=
  if c.toNat < 0x10000 then
    [c.toNat.toUInt16]
  else
    [(0xD800 + (c.toNat - 0x10000) / 0x400).toUInt16,
     (0xDC00 + (c.toNat - 0x10000) % 0x400).toUInt16]

/-- The units of a text, character by character. -/
def units (s : String) : List UInt16 :=
  s.toList.flatMap unitsOfChar

@[simp] theorem units_empty : units "" = [] := rfl

@[simp] theorem units_append (s t : String) : units (s ++ t) = units s ++ units t := by
  simp [units]

end Cascade.Text
