import Cascade.Table

/-!
# Tables built step by step

The tables of the library are built by a fold that may stop with an error.
`foldlM_invariant` says what is true of a table that such a fold has built: what
holds of nothing, and goes on to hold with each step, holds of everything that
was taken. `foldlM_eq_error_iff` says where a fold stops: at the first element
that is refused.

Values are found in a table by its index. They are those that a search through the
entries finds (`get?_eq_lookup`).
-/

namespace Cascade

/-! ## Computations that can fail -/

theorem map_eq_ok_iff {ε α β : Type} {f : α → β} {x : Except ε α} {b : β} :
    f <$> x = .ok b ↔ ∃ a, x = .ok a ∧ f a = b := by
  cases x with
  | error e => exact iff_of_false nofun nofun
  | ok a =>
    show Except.ok (f a) = .ok b ↔ _
    simp

theorem bind_eq_ok_iff {ε α β : Type} {f : α → Except ε β} {x : Except ε α} {b : β} :
    x >>= f = .ok b ↔ ∃ a, x = .ok a ∧ f a = .ok b := by
  cases x with
  | error e => exact iff_of_false nofun nofun
  | ok a =>
    show f a = .ok b ↔ _
    simp

theorem mapError_eq_ok_iff {ε ε' α : Type} {f : ε → ε'} {x : Except ε α} {a : α} :
    x.mapError f = .ok a ↔ x = .ok a := by
  cases x with
  | error e => exact iff_of_false nofun nofun
  | ok b =>
    show Except.ok b = .ok a ↔ _
    rw [Except.ok.injEq, Except.ok.injEq]

theorem map_eq_error_iff {ε α β : Type} {f : α → β} {x : Except ε α} {e : ε} :
    f <$> x = .error e ↔ x = .error e := by
  cases x with
  | error e' =>
    show Except.error e' = .error e ↔ _
    rw [Except.error.injEq, Except.error.injEq]
  | ok a => exact iff_of_false nofun nofun

theorem bind_eq_error_iff {ε α β : Type} {f : α → Except ε β} {x : Except ε α} {e : ε} :
    x >>= f = .error e ↔ x = .error e ∨ ∃ a, x = .ok a ∧ f a = .error e := by
  cases x with
  | error e' =>
    show Except.error e' = .error e ↔ _
    simp
  | ok a =>
    show f a = .error e ↔ _
    simp

/-! ## Folds -/

/-- An invariant between the elements taken so far and the state, for a fold that
may fail. -/
theorem foldlM_invariant {ε σ α : Type} {step : σ → α → Except ε σ} {inv : List α → σ → Prop}
    (hstep : ∀ done s a next, inv done s → step s a = .ok next → inv (done ++ [a]) next)
    {as done : List α} {s last : σ} (hs : inv done s) (h : as.foldlM step s = .ok last) :
    inv (done ++ as) last := by
  induction as generalizing done s with
  | nil =>
    cases h
    rw [List.append_nil]
    exact hs
  | cons a as ih =>
    rw [List.foldlM_cons] at h
    cases ha : step s a with
    | error e =>
      rw [ha] at h
      exact absurd h nofun
    | ok next =>
      rw [ha] at h
      have hnext := ih (hstep done s a next hs ha) h
      rwa [List.append_assoc, List.singleton_append] at hnext

/-- A fold fails exactly if some step fails, after steps that do not. -/
theorem foldlM_eq_error_iff {ε σ α : Type} {step : σ → α → Except ε σ} {as : List α} {s : σ}
    {error : ε} :
    as.foldlM step s = .error error ↔
      ∃ before a after mid, as = before ++ a :: after ∧ before.foldlM step s = .ok mid ∧
        step mid a = .error error := by
  constructor
  · intro h
    induction as generalizing s with
    | nil => exact absurd h nofun
    | cons a as ih =>
      rw [List.foldlM_cons] at h
      cases ha : step s a with
      | error e =>
        rw [ha] at h
        cases h
        exact ⟨[], a, as, s, rfl, rfl, ha⟩
      | ok next =>
        rw [ha] at h
        obtain ⟨before, b, after, mid, rfl, hmid, hb⟩ := ih h
        refine ⟨a :: before, b, after, mid, rfl, ?_, hb⟩
        rw [List.foldlM_cons, ha]
        exact hmid
  · rintro ⟨before, a, after, mid, rfl, hmid, ha⟩
    rw [List.foldlM_append, hmid]
    show (a :: after).foldlM step mid = _
    rw [List.foldlM_cons, ha]
    rfl

/-! ## Lists of names and values -/

section Lookup

variable {α : Type} {entries : List (String × α)} {name : String}

theorem lookup_eq_none_iff_not_mem : entries.lookup name = none ↔ name ∉ entries.map Prod.fst := by
  rw [List.lookup_eq_none_iff, List.mem_map]
  constructor
  · intro h hmem
    obtain ⟨entry, hentry, rfl⟩ := hmem
    simpa using h entry hentry
  · intro h entry hentry
    rw [bne_iff_ne]
    intro he
    exact h ⟨entry, hentry, he.symm⟩

theorem mem_of_lookup {a : α} (h : entries.lookup name = some a) : (name, a) ∈ entries := by
  obtain ⟨before, after, rfl, -⟩ := List.lookup_eq_some_iff.1 h
  simp

/-- If no name occurs twice, every value is found. -/
theorem lookup_eq_some_iff_mem (hnodup : (entries.map Prod.fst).Nodup) {a : α} :
    entries.lookup name = some a ↔ (name, a) ∈ entries := by
  induction entries with
  | nil => simp
  | cons entry entries ih =>
    obtain ⟨key, b⟩ := entry
    rw [List.map_cons, List.nodup_cons] at hnodup
    rw [List.lookup_cons, List.mem_cons, Prod.mk.injEq]
    by_cases hk : name = key
    · subst hk
      have hnot : (name, a) ∉ entries := by
        intro h
        exact hnodup.1 (List.mem_map.2 ⟨(name, a), h, rfl⟩)
      simp [hnot, eq_comm]
    · rw [beq_eq_false_iff_ne.2 hk]
      simp only [hk, false_and, false_or]
      exact ih hnodup.2

end Lookup

/-! ## Tables -/

namespace Table

variable {α : Type}

theorem exists_get?_of_mem {t : Table α} {name : String} (h : name ∈ t.names) :
    ∃ a, t.get? name = some a :=
  Option.isSome_iff_exists.1 (mem_names_iff.1 h)

/-- The index finds what a search through the entries finds. -/
theorem get?_eq_lookup (t : Table α) (name : String) : t.get? name = t.entries.lookup name := by
  apply Option.ext
  intro a
  rw [get?_eq_some_iff, lookup_eq_some_iff_mem t.nodup]

/-- A value that is there is kept. -/
theorem get?_insert (t : Table α) (name other : String) (a : α) :
    (t.insert name a).get? other = (t.get? other).or (if other = name then some a else none) := by
  by_cases hmem : name ∈ t.names
  · obtain ⟨b, hb⟩ := exists_get?_of_mem hmem
    rw [insert_of_mem hmem]
    by_cases ho : other = name
    · rw [ho, hb, Option.some_or]
    · rw [if_neg ho, Option.or_none]
  · rw [insert_of_not_mem hmem, get?_add]
    by_cases ho : other = name
    · rw [if_pos ho, if_pos ho, ho, get?_eq_none_iff.2 hmem, Option.none_or]
    · rw [if_neg ho, if_neg ho, Option.or_none]

theorem get?_foldl_insert (entries : List (String × α)) (t : Table α) (name : String) :
    (entries.foldl (fun t entry => t.insert entry.1 entry.2) t).get? name =
      (t.get? name).or (entries.lookup name) := by
  induction entries generalizing t with
  | nil => simp
  | cons entry entries ih =>
    rw [List.foldl_cons, ih, get?_insert, Option.or_assoc, List.lookup_cons]
    by_cases ho : name = entry.1
    · simp [ho]
    · simp [ho, beq_eq_false_iff_ne.2 ho]

theorem names_foldl_insert {entries : List (String × α)} (hnodup : (entries.map Prod.fst).Nodup)
    (t : Table α) :
    (entries.foldl (fun t entry => t.insert entry.1 entry.2) t).names =
      t.names ++ (entries.map Prod.fst).filter fun name => name ∉ t.names := by
  induction entries generalizing t with
  | nil => simp
  | cons entry entries ih =>
    rw [List.map_cons, List.nodup_cons] at hnodup
    rw [List.foldl_cons, ih hnodup.2, List.map_cons]
    by_cases hmem : entry.1 ∈ t.names
    · simp [insert_of_mem hmem, hmem]
    · -- the name of this entry does not come again, so it decides nothing about the others
      have hrest : (entries.map Prod.fst).filter (fun name => name ∉ t.names ++ [entry.1]) =
          (entries.map Prod.fst).filter fun name => name ∉ t.names := by
        apply List.filter_congr
        intro name hname
        have hne : name ≠ entry.1 := fun he => hnodup.1 (he ▸ hname)
        simp [hne]
      rw [insert_of_not_mem hmem, names_add, hrest, List.filter_cons_of_pos (by simpa using hmem),
        List.append_assoc, List.singleton_append]

theorem names_extend (t u : Table α) :
    (t.extend u).names = t.names ++ u.names.filter fun name => name ∉ t.names :=
  names_foldl_insert u.nodup t

/-- In a table that has been extended the entries it had come first. -/
theorem get?_extend (t u : Table α) (name : String) :
    (t.extend u).get? name = (t.get? name).or (u.get? name) := by
  rw [extend, get?_foldl_insert, get?_eq_lookup u]

end Table

end Cascade
