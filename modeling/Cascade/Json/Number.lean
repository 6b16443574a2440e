import Cascade.Decimal.Shortest

/-!
# Numbers of JSON

A number without fraction and exponent is an integer as long as it fits in 64
bits. Every other number is a float.

A float is read from a significand of 64 bits and a power of ten. Digits that no
longer fit are left out; before the point they still count towards the power of
ten. The significand is rounded to a float and then scaled once, so the result
may be one unit off the nearest float. A number too large for a float is
refused, and one too small is zero.
-/

namespace Cascade.Json

/-- A number as JSON distinguishes them. -/
inductive Number where
  | integer (value : Int)
  | float (value : Float)
deriving Inhabited

namespace Number

/-- The parts of a number as they are written. -/
structure Parts where
  negative : Bool
  whole : List Nat
  fraction : List Nat
  exponent : Option (Bool × List Nat)

/-- The digits at the start of a text, as values, and what follows them. -/
def digits (cs : List Char) : List Nat × List Char :=
  ((cs.takeWhile Char.isDigit).map fun c => c.toNat - '0'.toNat, cs.dropWhile Char.isDigit)

/-- Digits of which there has to be one at least. -/
def digits₁? (cs : List Char) : Option (List Nat × List Char) :=
  match digits cs with
  | ([], _) => none
  | result => some result

/-- The digits before the point: a zero stands alone. -/
def whole? (cs : List Char) : Option (List Nat × List Char) :=
  match digits₁? cs with
  | some (0 :: _ :: _, _) => none
  | result => result

/-- The digits after a point, if there is a point. -/
def fraction? : List Char → Option (List Nat × List Char)
  | '.' :: cs => digits₁? cs
  | cs => some ([], cs)

/-- The digits of an exponent, and whether it is negative. -/
def signedDigits? : List Char → Option ((Bool × List Nat) × List Char)
  | '-' :: cs => (digits₁? cs).map fun (ds, rest) => ((true, ds), rest)
  | '+' :: cs => (digits₁? cs).map fun (ds, rest) => ((false, ds), rest)
  | cs => (digits₁? cs).map fun (ds, rest) => ((false, ds), rest)

/-- The exponent after an `e`, if there is an `e`. -/
def exponent? : List Char → Option (Option (Bool × List Nat) × List Char)
  | 'e' :: cs => (signedDigits? cs).map fun (e, rest) => (some e, rest)
  | 'E' :: cs => (signedDigits? cs).map fun (e, rest) => (some e, rest)
  | cs => some (none, cs)

/-- A leading minus sign, if there is one. -/
def sign : List Char → Bool × List Char
  | '-' :: cs => (true, cs)
  | cs => (false, cs)

/-- The parts of the number at the start of a text, and what follows it. -/
def parts? (cs : List Char) : Option (Parts × List Char) := do
  let (negative, cs) := sign cs
  let (whole, cs) ← whole? cs
  let (fraction, cs) ← fraction? cs
  let (exponent, cs) ← exponent? cs
  return (⟨negative, whole, fraction, exponent⟩, cs)

/-- Appends digits to a significand while it fits in 64 bits; gives the digits
left over as well. -/
def accumulate : Nat → List Nat → Nat × List Nat
  | n, [] => (n, [])
  | n, d :: ds => if n * 10 + d < Nat.pow 2 64 then accumulate (n * 10 + d) ds else (n, d :: ds)

/-- The largest exponent that is taken at its value. -/
def maxExponent : Nat := Nat.pow 2 31 - 1

/-- The power of ten as a float; `n` is at most 308. -/
def powerOfTen (n : Nat) : Float := Float.ofScientific 1 false n

/-- Scales a float by a power of ten, unless it becomes too large. A power below
the range is applied in steps. -/
def scale? (x : Float) (e : Int) : Option Float :=
  if e.natAbs ≤ 308 then
    if 0 ≤ e then
      let y := x * powerOfTen e.natAbs
      if y.isInf then none else some y
    else
      some (x / powerOfTen e.natAbs)
  else if x == 0 then some x
  else if 0 ≤ e then none
  else scale? (x / powerOfTen 308) (e + 308)
termination_by e.natAbs
decreasing_by omega

/-- A float with the sign that was written. -/
def signed (negative : Bool) (x : Float) : Float := if negative then -x else x

namespace Parts

/-- The number without fraction and exponent, if it is to be an integer. A
negative zero is not. -/
def integer? (parts : Parts) : Option Int :=
  match parts.fraction, parts.exponent, accumulate 0 parts.whole with
  | [], none, (n, []) =>
    if !parts.negative then some n
    else if 0 < n ∧ n ≤ Nat.pow 2 63 then some (-n)
    else none
  | _, _, _ => none

/-- The number as a float. -/
def float? (parts : Parts) : Option Float :=
  let (whole, dropped) := accumulate 0 parts.whole
  let (significand, unused) := accumulate whole parts.fraction
  let power : Int := dropped.length - (parts.fraction.length - unused.length : Nat)
  let (negative, written) := parts.exponent.getD (false, [])
  let exponent := written.foldl (fun n d => n * 10 + d) 0
  let size :=
    if exponent ≤ maxExponent then
      scale? significand.toUInt64.toFloat
        (if negative then power - exponent else power + exponent)
    else if significand ≠ 0 ∧ !negative then none
    else some 0
  size.map (signed parts.negative)

/-- The number that the parts stand for. -/
def number? (parts : Parts) : Option Number :=
  match parts.integer? with
  | some n => some (.integer n)
  | none => parts.float?.map .float

end Parts

/-- Reads the number at the start of a text and gives what follows it. -/
def read? (cs : List Char) : Option (Number × List Char) := do
  let (parts, rest) ← parts? cs
  let number ← parts.number?
  return (number, rest)

theorem digits₁?_length {cs rest : List Char} {ds : List Nat}
    (h : digits₁? cs = some (ds, rest)) : rest.length < cs.length := by
  unfold digits₁? at h
  split at h
  · simp at h
  · next hne =>
    have hd : digits cs = (ds, rest) := by simpa using h
    cases cs with
    | nil => exact absurd rfl (hne [])
    | cons c cs =>
      by_cases hc : c.isDigit = true
      · have := (List.dropWhile_sublist (l := cs) Char.isDigit).length_le
        simp only [digits, List.dropWhile_cons, hc, if_true, Prod.mk.injEq] at hd
        simp only [← hd.2, List.length_cons]
        omega
      · exact absurd (by simp [digits, hc]) (hne (c :: cs))

theorem whole?_length {cs rest : List Char} {ds : List Nat}
    (h : whole? cs = some (ds, rest)) : rest.length < cs.length := by
  unfold whole? at h
  split at h
  · simp at h
  · exact digits₁?_length h

theorem fraction?_length {cs rest : List Char} {ds : List Nat}
    (h : fraction? cs = some (ds, rest)) : rest.length ≤ cs.length := by
  unfold fraction? at h
  split at h
  · have := digits₁?_length h
    simp only [List.length_cons]
    omega
  · simp_all

theorem signedDigits?_length {cs rest : List Char} {e : Bool × List Nat}
    (h : signedDigits? cs = some (e, rest)) : rest.length < cs.length := by
  unfold signedDigits? at h
  split at h <;>
  · obtain ⟨⟨ds, r⟩, hd, he⟩ := Option.map_eq_some_iff.1 h
    have := digits₁?_length hd
    simp only [Prod.mk.injEq] at he
    simp only [List.length_cons, ← he.2]
    omega

theorem exponent?_length {cs rest : List Char} {e : Option (Bool × List Nat)}
    (h : exponent? cs = some (e, rest)) : rest.length ≤ cs.length := by
  unfold exponent? at h
  split at h
  · obtain ⟨⟨ds, r⟩, hd, he⟩ := Option.map_eq_some_iff.1 h
    have := signedDigits?_length hd
    simp only [Prod.mk.injEq] at he
    simp only [List.length_cons, ← he.2]
    omega
  · obtain ⟨⟨ds, r⟩, hd, he⟩ := Option.map_eq_some_iff.1 h
    have := signedDigits?_length hd
    simp only [Prod.mk.injEq] at he
    simp only [List.length_cons, ← he.2]
    omega
  · simp_all

theorem sign_length (cs : List Char) : (sign cs).2.length ≤ cs.length := by
  unfold sign
  split <;> simp

theorem read?_length {cs rest : List Char} {n : Number}
    (h : read? cs = some (n, rest)) : rest.length < cs.length := by
  simp only [read?, parts?, Option.bind_eq_bind, Option.bind_eq_some_iff, Option.pure_def] at h
  obtain ⟨⟨parts, r⟩, ⟨⟨w, r₁⟩, hw, ⟨f, r₂⟩, hf, ⟨e, r₃⟩, he, hr⟩, m, -, hn⟩ := h
  have h₀ := sign_length cs
  have h₁ := whole?_length hw
  have h₂ := fraction?_length hf
  have h₃ := exponent?_length he
  simp only [Option.some.injEq, Prod.mk.injEq] at hr hn h₂ h₃
  simp only [← hn.2, ← hr.2]
  omega

/-- Some zeros. -/
def zeros (n : Nat) : String := String.ofList (List.replicate n '0')

/-- A decimal with at least one digit after the point, as long as the point is
at most sixteen places behind the first digit or five in front of it; otherwise
with an exponent. -/
def layout (d : Decimal) : String :=
  let ds := d.digits.repr.toList
  let point : Int := ds.length + d.exponent
  if 0 ≤ d.exponent ∧ point ≤ 16 then
    String.ofList ds ++ zeros d.exponent.toNat ++ ".0"
  else if 0 < point ∧ point ≤ 16 then
    String.ofList (ds.take point.toNat) ++ "." ++ String.ofList (ds.drop point.toNat)
  else if -5 < point ∧ point ≤ 0 then
    "0." ++ zeros (-point).toNat ++ String.ofList ds
  else
    String.ofList (ds.take 1) ++ (if ds.length = 1 then "" else ".") ++
      String.ofList (ds.drop 1) ++ "e" ++ (point - 1).repr

/-- The text of a float: the shortest decimal that reads back as it. -/
def floatText (x : Float) : String :=
  let bits := x.toBits
  (if Nat.pow 2 63 ≤ bits.toNat then "-" else "") ++
    if bits.toNat % Nat.pow 2 63 = 0 then "0.0" else layout (Binary.ofBits bits).shortest

/-- The text of a number. -/
def text : Number → String
  | integer n => n.repr
  | float x => floatText x

end Number

end Cascade.Json
