import Cascade.HookId
import Mathlib.Algebra.BigOperators.Fin
import Mathlib.Data.Nat.ModEq

/-!
# Fingerprints as sums

A fingerprint is computed in words of 32 bits. The shift loses the upper bits of the
old fingerprint, the subtraction may go below zero, and the mask takes a bit away at
every step. All of this is arithmetic modulo `2 ^ 31` (`toNat_absorb`), so the
fingerprint of a text is the sum of its code units, weighted with the powers of
thirty-one, modulo `2 ^ 31`.

The units of a text are tied to its characters by reading them back (`codePoints_units`).

The run is stated from any fingerprint on (`toNat_foldl_absorb`), which also says what
the fingerprint of two texts in a row is.
-/

namespace Cascade

namespace Text

theorem length_unitsOfChar (c : Char) :
    (unitsOfChar c).length = 1 + if 0x10000 ≤ c.toNat then 1 else 0 := by
  unfold unitsOfChar
  by_cases hc : c.toNat < 0x10000
  · rw [if_pos hc, if_neg (by omega)]
    rfl
  · rw [if_neg hc, if_pos (by omega)]
    rfl

/-- A character outside the basic plane counts for two units. -/
theorem length_units (s : String) :
    (units s).length = s.length + s.toList.countP fun c => decide (0x10000 ≤ c.toNat) := by
  rw [units, ← String.length_toList]
  induction s.toList with
  | nil => rfl
  | cons c cs ih =>
    rw [List.flatMap_cons, List.length_append, ih, length_unitsOfChar, List.length_cons,
      List.countP_cons]
    simp only [decide_eq_true_iff]
    omega

/-- The code points that units stand for: a leading surrogate takes the unit behind it
along, and any other unit is a code point. -/
def codePoints : List UInt16 → List Nat
  | [] => []
  | [unit] => [unit.toNat]
  | unit :: trailing :: units =>
    if 0xD800 ≤ unit.toNat ∧ unit.toNat < 0xDC00 then
      (0x10000 + (unit.toNat - 0xD800) * 0x400 + (trailing.toNat - 0xDC00)) :: codePoints units
    else
      unit.toNat :: codePoints (trailing :: units)

theorem codePoints_cons_of_not_leading {unit : UInt16}
    (h : ¬(0xD800 ≤ unit.toNat ∧ unit.toNat < 0xDC00)) (units : List UInt16) :
    codePoints (unit :: units) = unit.toNat :: codePoints units := by
  cases units with
  | nil => rfl
  | cons trailing units => rw [codePoints, if_neg h]

theorem codePoints_unitsOfChar_append (c : Char) (units : List UInt16) :
    codePoints (unitsOfChar c ++ units) = c.toNat :: codePoints units := by
  have hvalid : c.toNat < 0xD800 ∨ 0xDFFF < c.toNat ∧ c.toNat < 0x110000 := c.valid
  have hunit (n : Nat) (hn : n < 0x10000) : n.toUInt16.toNat = n := UInt16.toNat_ofNat_of_lt' hn
  unfold unitsOfChar
  by_cases hc : c.toNat < 0x10000
  · -- no character has the code point of a surrogate
    have hchar := hunit c.toNat hc
    rw [if_pos hc, List.singleton_append, codePoints_cons_of_not_leading (by omega), hchar]
  · have hleading := hunit (0xD800 + (c.toNat - 0x10000) / 0x400) (by omega)
    have htrailing := hunit (0xDC00 + (c.toNat - 0x10000) % 0x400) (by omega)
    have hpoint : 0x10000 + (0xD800 + (c.toNat - 0x10000) / 0x400 - 0xD800) * 0x400 +
        (0xDC00 + (c.toNat - 0x10000) % 0x400 - 0xDC00) = c.toNat := by omega
    rw [if_neg hc, List.cons_append, List.singleton_append, codePoints, hleading, htrailing,
      if_pos (by omega), hpoint]

/-- The units of a text stand for its characters. -/
theorem codePoints_units (s : String) : codePoints (units s) = s.toList.map Char.toNat := by
  rw [units]
  induction s.toList with
  | nil => rfl
  | cons c cs ih => rw [List.flatMap_cons, codePoints_unitsOfChar_append, ih, List.map_cons]

/-- The units of a text determine it. -/
theorem units_injective {s t : String} (h : units s = units t) : s = t := by
  have hpoints : s.toList.map Char.toNat = t.toList.map Char.toNat := by
    rw [← codePoints_units, h, codePoints_units]
  have hinjective : ∀ c d : Char, c.toNat = d.toNat → c = d := fun _ _ => Char.toNat_inj.1
  exact String.toList_injective (List.map_injective_iff.2 hinjective hpoints)

end Text

namespace HookId

/-- One step is a multiplication by thirty-one and an addition, modulo `2 ^ 31`, whatever
the bits of the old fingerprint. -/
theorem toNat_absorb (h : UInt32) (unit : UInt16) :
    (absorb h unit).toNat = (h.toNat * 31 + unit.toNat) % 2 ^ 31 := by
  have hmask (n : UInt32) : (n &&& mask).toNat = n.toNat % 2 ^ 31 := by
    rw [UInt32.toNat_and]
    exact Nat.and_two_pow_sub_one_eq_mod n.toNat 31
  have hshift : (h <<< 5).toNat = h.toNat * 32 % 2 ^ 32 := by
    rw [UInt32.toNat_shiftLeft, Nat.shiftLeft_eq]
    rfl
  have hlt : h.toNat < 2 ^ 32 := h.toNat_lt
  unfold absorb
  rw [hmask, UInt32.toNat_add, UInt32.toNat_sub, hshift, UInt16.toNat_toUInt32]
  omega

/-- The units of a text taken as the digits of a number to base thirty-one, although they
may be larger than the base. -/
def weighted : List UInt16 → Nat
  | [] => 0
  | unit :: units => unit.toNat * 31 ^ units.length + weighted units

theorem weighted_eq_sum (units : List UInt16) :
    weighted units =
      ∑ i : Fin units.length, (units.get i).toNat * 31 ^ (units.length - 1 - i) := by
  induction units with
  | nil => rfl
  | cons unit units ih =>
    rw [weighted, ih]
    show _ = ∑ i : Fin (units.length + 1), _
    rw [Fin.sum_univ_succ]
    congr 1
    apply Finset.sum_congr rfl
    intro i _
    have hexponent : units.length + 1 - 1 - (i.val + 1) = units.length - 1 - i.val := by omega
    show _ = (units.get i).toNat * 31 ^ (units.length + 1 - 1 - (i.val + 1))
    rw [hexponent]

/-- The fingerprint after some more units. -/
theorem toNat_foldl_absorb (units : List UInt16) {h : UInt32} (hlt : h.toNat < 2 ^ 31) :
    (units.foldl absorb h).toNat = (h.toNat * 31 ^ units.length + weighted units) % 2 ^ 31 := by
  induction units generalizing h with
  | nil =>
    show h.toNat = (h.toNat * 1 + 0) % 2 ^ 31
    omega
  | cons unit units ih =>
    have hstep := toNat_absorb h unit
    have hnext : (absorb h unit).toNat < 2 ^ 31 := by omega
    rw [List.foldl_cons, ih hnext, hstep]
    show _ ≡ _ [MOD 2 ^ 31]
    calc (h.toNat * 31 + unit.toNat) % 2 ^ 31 * 31 ^ units.length + weighted units
        ≡ (h.toNat * 31 + unit.toNat) * 31 ^ units.length + weighted units [MOD 2 ^ 31] :=
          ((Nat.mod_modEq _ _).mul_right _).add_right _
      _ = h.toNat * 31 ^ (unit :: units).length + weighted (unit :: units) := by
          rw [weighted, List.length_cons, pow_succ', Nat.add_mul, Nat.mul_assoc, Nat.add_assoc]

theorem toNat_fingerprint (s : String) :
    (fingerprint s).toNat = weighted (Text.units s) % 2 ^ 31 := by
  rw [fingerprint, toNat_foldl_absorb _ (by decide)]
  simp

/-- A fingerprint has no more than thirty-one bits. -/
theorem fingerprint_lt (s : String) : (fingerprint s).toNat < 2 ^ 31 := by
  rw [toNat_fingerprint]
  exact Nat.mod_lt _ (by decide)

/-- The fingerprint of two texts in a row depends on their fingerprints and on the number
of units of the second. -/
theorem toNat_fingerprint_append (p x : String) :
    (fingerprint (p ++ x)).toNat =
      ((fingerprint p).toNat * 31 ^ (Text.units x).length + (fingerprint x).toNat) % 2 ^ 31 := by
  have hrun : fingerprint (p ++ x) = (Text.units x).foldl absorb (fingerprint p) := by
    rw [fingerprint, Text.units_append, List.foldl_append]
    rfl
  rw [hrun, toNat_foldl_absorb _ (fingerprint_lt p), toNat_fingerprint x, Nat.add_mod_mod]

/-- The fingerprint of a text is the sum of its code units, each times thirty-one to the
power of the number of units behind it, modulo `2 ^ 31`. The units stand for the
characters of the text, two for one outside the basic plane, and no other text has them. A
fingerprint is below `2 ^ 31`, and that of two texts in a row can be computed from
theirs. -/
theorem fingerprint_eq_sum (s : String) :
    let units := Text.units s
    (fingerprint s).toNat =
      (∑ i : Fin units.length, (units.get i).toNat * 31 ^ (units.length - 1 - i)) % 2 ^ 31 ∧
    units.length = s.length + s.toList.countP (fun c => decide (0x10000 ≤ c.toNat)) ∧
    Text.codePoints units = s.toList.map Char.toNat ∧
    (∀ t, Text.units t = units → t = s) ∧
    (fingerprint s).toNat < 2 ^ 31 ∧
    ∀ x, (fingerprint (s ++ x)).toNat =
      ((fingerprint s).toNat * 31 ^ (Text.units x).length + (fingerprint x).toNat) % 2 ^ 31 := by
  intro units
  refine ⟨?_, Text.length_units s, Text.codePoints_units s, fun _ => Text.units_injective,
    fingerprint_lt s, toNat_fingerprint_append s⟩
  rw [toNat_fingerprint, weighted_eq_sum]

/-- The fingerprint of the empty text in quotes. -/
example : (fingerprint (Text.quoted "")).toNat = 34 * 31 + 34 := by decide

end HookId

end Cascade
