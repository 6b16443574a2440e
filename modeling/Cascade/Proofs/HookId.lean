import Cascade.Hook
import Cascade.Proofs.HookId.Fingerprint
import Mathlib.Data.Nat.Digits.Lemmas

/-!
# Identifiers as numerals

An identifier is a numeral in base 36, and so it is when an `a` has been put in
front: `a` is the digit ten. The identifier of a number that starts with a decimal
digit is therefore also that of a larger number, the one with the digit ten in front
(`lettered`), and this is the only way in which two numbers share an identifier.

There are three groups.

* Digits. `HookId.digits` are the digits of a number, the first one first, and
  `digits_cons` puts a digit in front.
* Numerals. `HookId.written` is the numeral in characters, which `numeral` computes.
* Identifiers, their shape and when two of them are the same.
-/

namespace Cascade

namespace HookId

/-! ## Digits -/

/-- The digits of a number in base 36, the first one first and not zero. Only zero has
the digit zero there, and no other. -/
def digits (n : Nat) : List Nat :=
  if n = 0 then [0] else (Nat.digits 36 n).reverse

theorem digits_of_lt {n : Nat} (h : n < 36) : digits n = [n] := by
  unfold digits
  by_cases hn : n = 0
  · rw [if_pos hn, hn]
  · rw [if_neg hn, Nat.digits_of_lt 36 n hn h, List.reverse_singleton]

theorem digits_of_le {n : Nat} (h : 36 ≤ n) : digits n = digits (n / 36) ++ [n % 36] := by
  unfold digits
  have hn : n ≠ 0 := by omega
  have hdiv : n / 36 ≠ 0 := by omega
  rw [if_neg hn, if_neg hdiv, Nat.digits_eq_cons_digits_div (by decide) hn, List.reverse_cons]

theorem lt_of_mem_digits {n d : Nat} (h : d ∈ digits n) : d < 36 := by
  unfold digits at h
  split at h
  · rw [List.mem_singleton] at h
    omega
  · rw [List.mem_reverse] at h
    exact Nat.digits_lt_base (by decide) h

theorem length_digits_le {n k : Nat} (hk : 0 < k) (h : n < 36 ^ k) : (digits n).length ≤ k := by
  unfold digits
  split
  · exact hk
  · rw [List.length_reverse]
    exact (Nat.digits_length_le_iff (by decide) n).2 h

/-- A number can be computed from its digits. -/
theorem ofDigits_reverse_digits (n : Nat) : Nat.ofDigits 36 (digits n).reverse = n := by
  unfold digits
  split
  · next h => rw [h]; rfl
  · rw [List.reverse_reverse, Nat.ofDigits_digits]

theorem digits_inj {m n : Nat} : digits m = digits n ↔ m = n := by
  constructor
  · intro h
    rw [← ofDigits_reverse_digits m, h, ofDigits_reverse_digits]
  · intro h
    rw [h]

/-- A digit in front counts for a power of the base. -/
theorem digits_cons {d : Nat} (hpos : 0 < d) (hd : d < 36) (n : Nat) :
    digits (d * 36 ^ (digits n).length + n) = d :: digits n := by
  -- From the last digit to the first, as the numeral is computed.
  induction n using numeral.induct with
  | case1 n hn =>
    have hmod : (d * 36 + n) % 36 = n := by omega
    have hdiv : (d * 36 + n) / 36 = d := by omega
    rw [digits_of_lt hn, List.length_singleton, Nat.pow_one, digits_of_le (by omega), hdiv, hmod,
      digits_of_lt hd]
    rfl
  | case2 n hn ih =>
    rw [digits_of_le (Nat.le_of_not_lt hn), List.length_append, List.length_singleton,
      Nat.pow_succ, ← Nat.mul_assoc]
    generalize hp : d * 36 ^ (digits (n / 36)).length = p at ih ⊢
    have hmod : (p * 36 + n) % 36 = n % 36 := by omega
    have hdiv : (p * 36 + n) / 36 = p + n / 36 := by omega
    rw [digits_of_le (by omega), hdiv, hmod, ih]
    rfl

/-! ## Numerals -/

/-- The characters that stand for the digits. -/
def alphabet : List Char := "0123456789abcdefghijklmnopqrstuvwxyz".toList

/-- The numeral of a number in base 36, without leading zeros. -/
def written (n : Nat) : List Char := (digits n).map fun d => alphabet.getD d '0'

/-- Whether the numeral of a number starts with a decimal digit. -/
def startsDecimal (n : Nat) : Bool := (written n).head?.any Char.isDigit

theorem alphabet_digit {d : Nat} (hd : d < 36) :
    alphabet.getD d '0' = digit d ∧ alphabet.idxOf (digit d) = d := by
  have hall : ∀ d : Fin 36, alphabet.getD d '0' = digit d ∧ alphabet.idxOf (digit d) = d := by
    decide
  exact hall ⟨d, hd⟩

/-- The digits below ten are decimal digits, and the others are letters. -/
theorem isDigit_isLower_digit {d : Nat} (hd : d < 36) :
    (digit d).isDigit = decide (d < 10) ∧ (digit d).isLower = decide (10 ≤ d) := by
  have hall : ∀ d : Fin 36, (digit d).isDigit = decide (d.val < 10) ∧
      (digit d).isLower = decide (10 ≤ d.val) := by
    decide
  exact hall ⟨d, hd⟩

theorem written_eq_map (n : Nat) : written n = (digits n).map digit := by
  unfold written
  apply List.map_congr_left
  intro d hd
  exact (alphabet_digit (lt_of_mem_digits hd)).1

/-- What is computed is the numeral. -/
theorem numeral_eq_written (n : Nat) : numeral n = written n := by
  rw [written_eq_map]
  fun_induction numeral n with
  | case1 n hn => rw [digits_of_lt hn, List.map_singleton]
  | case2 n hn ih => rw [digits_of_le (Nat.le_of_not_lt hn), List.map_append, ih, List.map_singleton]

theorem written_inj {m n : Nat} : written m = written n ↔ m = n := by
  have hback (n : Nat) : (written n).map alphabet.idxOf = digits n := by
    rw [written_eq_map, List.map_map]
    calc (digits n).map (alphabet.idxOf ∘ digit) = (digits n).map id :=
          List.map_congr_left fun d hd => (alphabet_digit (lt_of_mem_digits hd)).2
      _ = digits n := List.map_id _
  constructor
  · intro h
    rw [← digits_inj, ← hback m, h, hback n]
  · intro h
    rw [h]

theorem exists_digits_eq_cons (n : Nat) : ∃ d ds, digits n = d :: ds := by
  unfold digits
  split
  · exact ⟨0, [], rfl⟩
  · next h =>
    apply List.exists_cons_of_ne_nil
    rw [ne_eq, List.reverse_eq_nil_iff]
    exact Nat.digits_ne_nil_iff_ne_zero.2 h

/-- The first digit decides whether a numeral starts with a decimal digit. -/
theorem startsDecimal_of_digits {n d : Nat} {ds : List Nat} (h : digits n = d :: ds) :
    startsDecimal n = decide (d < 10) := by
  have hd : d < 36 := lt_of_mem_digits (h ▸ List.mem_cons_self)
  unfold startsDecimal
  rw [written_eq_map, h]
  exact (isDigit_isLower_digit hd).1

/-! ## Identifiers -/

/-- The number with the digit ten in front, if its numeral starts with a decimal digit. -/
def lettered (n : Nat) : Nat :=
  if startsDecimal n then 10 * 36 ^ (digits n).length + n else n

theorem digits_lettered (n : Nat) :
    digits (lettered n) = if startsDecimal n then 10 :: digits n else digits n := by
  unfold lettered
  split
  · exact digits_cons (by decide) (by decide) n
  · rfl

/-- An identifier is a numeral, after an `a` if it would not start with a letter. -/
theorem toList_encode (n : Nat) :
    (encode n).text.toList = if startsDecimal n then 'a' :: written n else written n := by
  unfold encode startsDecimal
  rw [numeral_eq_written]
  obtain ⟨d, ds, hds⟩ := exists_digits_eq_cons n
  rw [written_eq_map, hds]
  simp only [List.map_cons, String.toList_ofList, List.head?_cons, Option.any_some]

/-- The `a` is a digit, so that the identifier is itself the numeral of a number. -/
theorem toList_encode_eq_written (n : Nat) : (encode n).text.toList = written (lettered n) := by
  rw [toList_encode, written_eq_map (lettered n), digits_lettered, written_eq_map]
  split <;> rfl

theorem encode_eq_encode_iff {m n : Nat} : encode m = encode n ↔ lettered m = lettered n := by
  rw [← written_inj, ← toList_encode_eq_written, ← toList_encode_eq_written, String.toList_inj]
  show mk (encode m).text = mk (encode n).text ↔ _
  rw [mk.injEq]

/-- Two numbers share an identifier exactly if one is the other with the digit ten in
front of a decimal digit. -/
theorem lettered_eq_lettered_iff {m n : Nat} (h : m < n) :
    lettered m = lettered n ↔
      startsDecimal m = true ∧ n = 10 * 36 ^ (digits m).length + m := by
  constructor
  · intro he
    have hdigits : digits (lettered m) = digits (lettered n) := congrArg digits he
    rw [digits_lettered, digits_lettered] at hdigits
    unfold lettered at he
    split at he
    · next hm =>
      split at he
      · next hn =>
        -- With a digit ten in front of both, the numbers themselves are the same.
        rw [if_pos hm, if_pos hn, List.cons.injEq, digits_inj] at hdigits
        omega
      · exact ⟨hm, he.symm⟩
    · split at he <;> omega
  · intro h
    obtain ⟨hm, hn⟩ := h
    have hdigits : digits n = 10 :: digits m := hn ▸ digits_cons (by decide) (by decide) m
    have hstart : startsDecimal n = false := startsDecimal_of_digits hdigits
    unfold lettered
    rw [if_pos hm, hstart, ← hn]
    rfl

/-- A name of at most seven characters: a lower-case letter, and then lower-case letters
and decimal digits. -/
def IsShortName (id : HookId) : Prop :=
  ∃ c cs, id.text.toList = c :: cs ∧ c.isLower = true ∧
    (∀ d ∈ cs, d.isLower = true ∨ d.isDigit = true) ∧ cs.length ≤ 6

/-- Behind the first digit, which is a letter, there are at most the digits of the
number. -/
theorem exists_digits_lettered (n : Nat) :
    ∃ d ds, digits (lettered n) = d :: ds ∧ 10 ≤ d ∧ ds.length ≤ (digits n).length := by
  rw [digits_lettered]
  split
  · exact ⟨10, digits n, rfl, by decide, by omega⟩
  · next hstart =>
    obtain ⟨d, ds, hds⟩ := exists_digits_eq_cons n
    rw [startsDecimal_of_digits hds, decide_eq_true_iff] at hstart
    refine ⟨d, ds, hds, by omega, ?_⟩
    rw [hds, List.length_cons]
    omega

theorem isShortName_encode {n : Nat} (h : n < 2 ^ 31) : (encode n).IsShortName := by
  obtain ⟨d, ds, hds, hd, hlength⟩ := exists_digits_lettered n
  have hlt : ∀ k ∈ d :: ds, k < 36 := fun k hk => lt_of_mem_digits (hds ▸ hk)
  refine ⟨digit d, ds.map digit, ?_, ?_, ?_, ?_⟩
  · rw [toList_encode_eq_written, written_eq_map, hds, List.map_cons]
  · rw [(isDigit_isLower_digit (hlt d List.mem_cons_self)).2, decide_eq_true_iff]
    exact hd
  · intro c hc
    obtain ⟨k, hk, rfl⟩ := List.mem_map.1 hc
    obtain ⟨hdigit, hlower⟩ := isDigit_isLower_digit (hlt k (List.mem_cons_of_mem d hk))
    rw [hdigit, hlower, decide_eq_true_iff, decide_eq_true_iff]
    omega
  · have hfew : (digits n).length ≤ 6 := length_digits_le (by decide) (by omega)
    rw [List.length_map]
    omega

/-- What the identifiers look like, and which of them are the same.

An identifier is a short name: the numeral of a number of thirty-one bits, with an `a`
in front exactly if the numeral starts with a decimal digit. The identifiers of hooks
are of this kind. Of two numbers with one identifier the smaller starts with a decimal
digit, and the larger has the digit ten in front of the digits of the smaller. -/
theorem encode_characterised :
    (∀ n < 2 ^ 31, (encode n).IsShortName ∧
      (encode n).text.toList = if startsDecimal n then 'a' :: written n else written n) ∧
    (∀ hook : Hook, hook.id.IsShortName ∧ ∃ n < 2 ^ 31, hook.id = encode n) ∧
    ∀ m n, m < n →
      (encode m = encode n ↔
        startsDecimal m = true ∧ n = 10 * 36 ^ (digits m).length + m) := by
  refine ⟨?_, ?_, ?_⟩
  · intro n hn
    exact ⟨isShortName_encode hn, toList_encode n⟩
  · intro hook
    have hlt := fingerprint_lt (Text.quoted hook.text)
    exact ⟨isShortName_encode hlt, _, hlt, rfl⟩
  · intro m n hmn
    rw [encode_eq_encode_iff, lettered_eq_lettered_iff hmn]

/-- Zero is written `0` and has the identifier `a0`, which is the numeral of 360. -/
theorem encode_characterised_zero :
    (encode 0).text = "a0" ∧ encode 0 = encode 360 ∧ (encode 360).IsShortName := by
  obtain ⟨hshape, -, hsame⟩ := encode_characterised
  have hzero : (encode 0).text.toList = ['a', '0'] := (hshape 0 (by decide)).2
  refine ⟨?_, ?_, (hshape 360 (by decide)).1⟩
  · rw [← String.toList_inj, hzero]
    rfl
  · exact (hsame 0 360 (by decide)).2 ⟨rfl, rfl⟩

end HookId

end Cascade
