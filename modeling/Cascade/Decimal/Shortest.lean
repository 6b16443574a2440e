/-!
# Shortest decimals

A finite binary number is `mantissa * 2 ^ exponent`. Of the decimals that round
to it, `Binary.shortest` takes those with the fewest digits, and of them the
nearest. The search goes through the powers of ten from the coarsest on; on each
of these grids only the two neighbours of the number can be the nearest point,
so they are all it looks at. All comparisons are exact.
-/

namespace Cascade

/-- The number `digits * 10 ^ exponent`. -/
structure Decimal where
  digits : Nat
  exponent : Int
deriving DecidableEq

/-- The number `mantissa * 2 ^ exponent`. The gap to the next number below is
half the gap above when `narrow` is set, as it is at powers of two. -/
structure Binary where
  mantissa : Nat
  exponent : Int
  narrow : Bool

namespace Binary

/-- The size of the finite number with this 64-bit pattern; the sign is left
out. -/
def ofBits (bits : UInt64) : Binary :=
  let fraction : Nat := bits.toNat % Nat.pow 2 52
  let biased : Nat := bits.toNat / Nat.pow 2 52 % Nat.pow 2 11
  if biased = 0 then
    ⟨fraction, -1074, false⟩
  else
    ⟨Nat.pow 2 52 + fraction, (biased : Int) - 1075, fraction = 0 ∧ 1 < biased⟩

/-- How many steps of the grid `10 ^ p` make up `2 ^ exponent`, as a fraction. -/
def steps (b : Binary) (p : Int) : Nat × Nat :=
  (Nat.pow 2 b.exponent.toNat * Nat.pow 10 (-p).toNat,
    Nat.pow 2 (-b.exponent).toNat * Nat.pow 10 p.toNat)

/-- Whether `n * 10 ^ p` rounds to the number. The ends of the interval round to
it when the mantissa is even. -/
def reads (b : Binary) (p : Int) (n : Nat) : Bool :=
  let (num, den) := b.steps p
  let low := (4 * b.mantissa - (if b.narrow then 1 else 2)) * num
  let high := (4 * b.mantissa + 2) * num
  let point := 4 * n * den
  if b.mantissa % 2 = 0 then low ≤ point && point ≤ high
  else low < point && point < high

/-- The point of the grid `10 ^ p` that rounds to the number, if there is one.
Of two the nearer is taken, and at the same distance the even one. -/
def onGrid? (b : Binary) (p : Int) : Option Decimal :=
  let (num, den) := b.steps p
  let below := b.mantissa * num / den
  match b.reads p below, b.reads p (below + 1) with
  | false, false => none
  | true, false => some ⟨below, p⟩
  | false, true => some ⟨below + 1, p⟩
  | true, true =>
    let twice := 2 * b.mantissa * num
    let middle := (2 * below + 1) * den
    if twice < middle ∨ (twice = middle ∧ below % 2 = 0) then some ⟨below, p⟩
    else some ⟨below + 1, p⟩

/-- The powers of ten that a number of 64 bits can need, coarsest first. -/
def grids : List Int := (List.range 633).map fun (i : Nat) => 308 - (i : Int)

/-- The shortest decimal that rounds to the number, and the nearest of those. -/
def shortest (b : Binary) : Decimal :=
  (grids.findSome? b.onGrid?).getD ⟨0, 0⟩

end Binary

end Cascade
