import Mathlib.Data.List.Induction

/-!
# First occurrences

`List.eraseDups` keeps of every element its first occurrence. Seen from the end of
a list this is simple: the last element is kept if it has not come before
(`eraseDups_concat`), and what comes again can be left out from the start.
-/

namespace Cascade

variable {α β : Type} [BEq α] [LawfulBEq α] [BEq β] [LawfulBEq β]

/-- Elements that have all come before are not kept. -/
theorem eraseDups_append_of_subset {as bs : List α} (h : ∀ b ∈ bs, b ∈ as) :
    (as ++ bs).eraseDups = as.eraseDups := by
  have hnone : bs.removeAll as = [] := by simpa [List.removeAll] using h
  rw [List.eraseDups_append, hnone, List.eraseDups_nil, List.append_nil]

/-- The last element is kept if it has not come before. -/
theorem eraseDups_concat (as : List α) (a : α) :
    (as ++ [a]).eraseDups = if a ∈ as then as.eraseDups else as.eraseDups ++ [a] := by
  split
  · next ha => exact eraseDups_append_of_subset (by simpa using ha)
  · next ha => simp [List.eraseDups_append, List.removeAll, ha, List.eraseDups_cons]

/-- An element that comes again can be left out. -/
theorem eraseDups_append_cons_of_mem {as : List α} {a : α} (h : a ∈ as) (bs : List α) :
    (as ++ a :: bs).eraseDups = (as ++ bs).eraseDups := by
  have hskip : (a :: bs).removeAll as = bs.removeAll as := by simp [List.removeAll, h]
  rw [List.eraseDups_append, hskip, List.eraseDups_append]

/-- Repetitions in the arguments of a function are repetitions in its values. -/
theorem eraseDups_map_eraseDups (f : α → β) (as : List α) :
    (as.eraseDups.map f).eraseDups = (as.map f).eraseDups := by
  induction as using List.reverseRecOn with
  | nil => rfl
  | append_singleton as a ih =>
    rw [List.map_append, List.map_singleton, eraseDups_concat, eraseDups_concat]
    split
    · next ha => rw [ih, if_pos (List.mem_map_of_mem ha)]
    · have hmem : f a ∈ as.eraseDups.map f ↔ f a ∈ as.map f := by
        simp only [List.mem_map, List.mem_eraseDups]
      rw [List.map_append, List.map_singleton, eraseDups_concat, ih]
      exact if_congr hmem rfl rfl

/-- It does not matter whether elements are dropped before or after. -/
theorem eraseDups_filter (p : α → Bool) (as : List α) :
    (as.filter p).eraseDups = as.eraseDups.filter p := by
  induction as using List.reverseRecOn with
  | nil => rfl
  | append_singleton as a ih =>
    rw [List.filter_append, eraseDups_concat]
    cases hp : p a with
    | true =>
      rw [List.filter_cons_of_pos hp, List.filter_nil, eraseDups_concat, ih]
      by_cases ha : a ∈ as <;> simp [ha, hp]
    | false =>
      rw [List.filter_cons_of_neg (by simp [hp]), List.filter_nil, List.append_nil, ih]
      split
      · rfl
      · simp [hp]

/-- Elements that are distinct are all kept. -/
theorem eraseDups_of_nodup {as : List α} (h : as.Nodup) : as.eraseDups = as := by
  induction as using List.reverseRecOn with
  | nil => rfl
  | append_singleton as a ih =>
    rw [List.nodup_append] at h
    have ha : a ∉ as := fun hmem => h.2.2 a hmem a List.mem_cons_self rfl
    rw [eraseDups_concat, if_neg ha, ih h.1]

/-- To repeat elements right where they stand changes nothing. -/
theorem eraseDups_flatMap_replicate (times : α → Nat) (as : List α) :
    (as.flatMap fun a => List.replicate (times a + 1) a).eraseDups = as.eraseDups := by
  induction as using List.reverseRecOn with
  | nil => rfl
  | append_singleton as a ih =>
    have hmem : a ∈ as.flatMap (fun a => List.replicate (times a + 1) a) ↔ a ∈ as := by
      simp [List.mem_flatMap, List.mem_replicate]
    have hagain : ∀ b ∈ List.replicate (times a) a,
        b ∈ as.flatMap (fun a => List.replicate (times a + 1) a) ++ [a] := by
      intro b hb
      rw [List.eq_of_mem_replicate hb]
      simp
    rw [List.flatMap_append, List.flatMap_singleton, List.replicate_succ, ← List.singleton_append,
      ← List.append_assoc, eraseDups_append_of_subset hagain, eraseDups_concat, eraseDups_concat,
      ih]
    simp only [hmem]

/-- Every element that occurs is kept once. -/
theorem count_eraseDups {as : List α} {a : α} (h : a ∈ as) : as.eraseDups.count a = 1 := by
  induction as using List.reverseRecOn with
  | nil => exact absurd h List.not_mem_nil
  | append_singleton as b ih =>
    rw [eraseDups_concat]
    split
    · next hb =>
      rcases List.mem_append.1 h with ha | ha
      · exact ih ha
      · rw [List.mem_singleton.1 ha] at ih ⊢
        exact ih hb
    · next hb =>
      by_cases hab : a = b
      · subst hab
        have hzero : as.eraseDups.count a = 0 :=
          List.count_eq_zero.2 (mt List.mem_eraseDups.1 hb)
        rw [List.count_append, hzero, List.count_singleton_self]
      · have ha : a ∈ as := by simpa [hab] using h
        rw [List.count_append, ih ha, List.count_eq_zero.2 (by simpa using hab)]

end Cascade
