import Cascade.Hook
import Cascade.Toggle

/-!
# Properties of toggles

The name of a toggle's property says which toggle it is. For every identifier
that can stand in a declaration value, `Toggle.ofProperty?` finds the toggle
again, and different toggles have different properties whatever their
identifiers are.

The identifiers that hooks get are of that kind: they are numerals in base 36.
-/

namespace Cascade

/-- The characters that end an argument or change how one is read. -/
def HookId.delimiters : List Char := ['(', ')', ',', '"', '\x27']

/-- An identifier that can stand in a declaration value: it is not empty, does
not end in a hyphen, and has no parenthesis, comma or quote in it. -/
structure HookId.WellFormed (id : HookId) : Prop where
  not_empty : id.text.toList ≠ []
  last_ne_hyphen : id.text.toList.getLast? ≠ some '-'
  no_delimiter : ∀ c ∈ id.text.toList, c ∉ delimiters

theorem HookId.wellFormed_iff {id : HookId} :
    id.WellFormed ↔ id.text.toList ≠ [] ∧ id.text.toList.getLast? ≠ some '-' ∧
      id.text.toList.all (· ∉ delimiters) = true := by
  simp only [List.all_eq_true, decide_eq_true_eq]
  exact ⟨fun h => ⟨h.not_empty, h.last_ne_hyphen, h.no_delimiter⟩, fun h => ⟨h.1, h.2.1, h.2.2⟩⟩

instance (id : HookId) : Decidable id.WellFormed :=
  decidable_of_iff _ HookId.wellFormed_iff.symm

/-! ## From a property to its toggle -/

namespace Toggle

/-- The last character of the property. -/
def bit (toggle : Toggle) : Char := if toggle.on then '1' else '0'

theorem toList_property (toggle : Toggle) :
    toggle.property.toList = '-' :: '-' :: (toggle.id.text.toList ++ ['-', toggle.bit]) := by
  obtain ⟨id, on⟩ := toggle
  cases on <;> simp [property, bit]

/-- Different toggles have different properties. -/
theorem property_inj {a b : Toggle} : a.property = b.property ↔ a = b := by
  constructor
  · intro h
    have hl := congrArg String.toList h
    rw [toList_property, toList_property, List.cons.injEq, List.cons.injEq] at hl
    obtain ⟨hid, hbit⟩ := List.append_inj' hl.2.2 rfl
    obtain ⟨⟨s⟩, on⟩ := a
    obtain ⟨⟨t⟩, other⟩ := b
    have hs : s = t := String.toList_inj.1 hid
    have ho : on = other := by
      cases on <;> cases other <;> simp_all [bit]
    rw [hs, ho]
  · intro h
    rw [h]

theorem idOfStem?_eq_some_iff {stem : List Char} {id : HookId} :
    idOfStem? stem = some id ↔
      stem = '-' :: '-' :: id.text.toList ∧ id.text.toList ≠ [] ∧
        id.text.toList.getLast? ≠ some '-' := by
  obtain ⟨text⟩ := id
  constructor
  · intro h
    unfold idOfStem? at h
    split at h
    · next cs =>
      split at h
      · exact absurd h nofun
      · exact absurd h nofun
      · next c hhyphen hlast =>
        rw [Option.some.injEq, HookId.mk.injEq] at h
        rw [← h, String.toList_ofList]
        refine ⟨rfl, ?_, ?_⟩
        · rintro rfl
          exact absurd hlast nofun
        · rw [hlast, ne_eq, Option.some.injEq]
          exact hhyphen
    · exact absurd h nofun
  · rintro ⟨rfl, hne, hlast⟩
    rw [idOfStem?]
    split
    · next hn => exact absurd (List.getLast?_eq_none_iff.1 hn) hne
    · next hh => exact absurd hh hlast
    · rw [String.ofList_toList]

/-- A property is that of a toggle exactly if the toggle is found, given that its
identifier is not empty and does not end in a hyphen. -/
theorem ofProperty?_eq_some_iff {property : List Char} {toggle : Toggle} :
    ofProperty? property = some toggle ↔
      property = toggle.property.toList ∧ toggle.id.text.toList ≠ [] ∧
        toggle.id.text.toList.getLast? ≠ some '-' := by
  obtain ⟨id, on⟩ := toggle
  -- The last two characters decide, so the property is read from its end.
  have hrev : property = (mk id on).property.toList ↔
      property.reverse = bit ⟨id, on⟩ :: '-' :: ('-' :: '-' :: id.text.toList).reverse := by
    rw [toList_property, ← List.reverse_inj]
    simp
  rw [hrev, ofProperty?]
  split
  · next stem heq =>
    rw [heq, Option.map_eq_some_iff]
    simp only [idOfStem?_eq_some_iff, mk.injEq, List.reverse_eq_iff, List.cons.injEq]
    cases on <;> simp [bit]
  · next stem heq =>
    rw [heq, Option.map_eq_some_iff]
    simp only [idOfStem?_eq_some_iff, mk.injEq, List.reverse_eq_iff, List.cons.injEq]
    cases on <;> simp [bit]
  · next hoff hon =>
    constructor
    · intro h
      exact absurd h nofun
    · rintro ⟨heq, -⟩
      cases on with
      | false => exact absurd heq (hoff _)
      | true => exact absurd heq (hon _)

/-- The toggle of a property is found again. -/
theorem ofProperty?_property {toggle : Toggle} (h : toggle.id.WellFormed) :
    ofProperty? toggle.property.toList = some toggle :=
  ofProperty?_eq_some_iff.2 ⟨rfl, h.not_empty, h.last_ne_hyphen⟩

/-- Nothing in a property ends it or opens a group. -/
theorem no_delimiter_property {toggle : Toggle} (h : toggle.id.WellFormed) :
    ∀ c ∈ toggle.property.toList, c ∉ HookId.delimiters := by
  intro c hc
  rw [toList_property, List.mem_cons, List.mem_cons, List.mem_append] at hc
  rcases hc with rfl | rfl | hc | hc
  · decide
  · decide
  · exact h.no_delimiter c hc
  · simp only [List.mem_cons, List.not_mem_nil, or_false] at hc
    rcases hc with rfl | rfl
    · decide
    · unfold bit
      split <;> decide

end Toggle

/-! ## Identifiers of hooks -/

namespace HookId

theorem numeral_ne_nil (n : Nat) : numeral n ≠ [] := by
  rw [numeral]
  split <;> simp

theorem exists_digit_of_mem_numeral {n : Nat} {c : Char} (h : c ∈ numeral n) :
    ∃ k, k < 36 ∧ c = digit k := by
  fun_induction numeral n with
  | case1 n hn =>
    rw [List.mem_singleton] at h
    exact ⟨n, hn, h⟩
  | case2 n hn ih =>
    rw [List.mem_append, List.mem_singleton] at h
    rcases h with h | h
    · exact ih h
    · exact ⟨n % 36, Nat.mod_lt n (by decide), h⟩

/-- What an identifier must not have in it is no digit. -/
theorem digit_ne_delimiter {k : Nat} (hk : k < 36) :
    digit k ∉ '-' :: delimiters := by
  have hall : ∀ k : Fin 36, digit k ∉ '-' :: delimiters := by decide
  exact hall ⟨k, hk⟩

theorem wellFormed_of_digits {cs : List Char} (hne : cs ≠ [])
    (h : ∀ c ∈ cs, ∃ k, k < 36 ∧ c = digit k) : WellFormed ⟨String.ofList cs⟩ := by
  have hc : ∀ c ∈ cs, c ∉ '-' :: delimiters := by
    intro c hc
    obtain ⟨k, hk, rfl⟩ := h c hc
    exact digit_ne_delimiter hk
  refine ⟨?_, ?_, ?_⟩ <;> rw [String.toList_ofList]
  · exact hne
  · intro hlast
    exact hc '-' (List.mem_of_getLast? hlast) (by decide)
  · intro c hcs hd
    exact hc c hcs (List.mem_cons_of_mem '-' hd)

theorem encode_wellFormed (n : Nat) : (encode n).WellFormed := by
  have hdigits := fun c => exists_digit_of_mem_numeral (n := n) (c := c)
  unfold encode
  split
  · next hn => exact absurd hn (numeral_ne_nil n)
  · next c cs hn =>
    rw [hn] at hdigits
    split
    · apply wellFormed_of_digits (by simp)
      intro d hd
      rw [List.mem_cons] at hd
      rcases hd with rfl | hd
      · exact ⟨10, by decide, by decide⟩
      · exact hdigits d hd
    · exact wellFormed_of_digits (by simp) hdigits

end HookId

theorem Hook.wellFormed_id (hook : Hook) : hook.id.WellFormed :=
  HookId.encode_wellFormed _

end Cascade
