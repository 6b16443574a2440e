import Std.Data.HashMap.Lemmas

/-!
# Tables

Named values in the order in which they were added. An index has the position of
every name, so that nothing has to be gone through to find a value.

That the index goes with the rows is part of the type (`Table.index_iff`): a name
has a position in it exactly if it is the name of the row there. So no name occurs
twice, and `Table.add`, which asks for a name that is not there yet, has to leave
the two in step. What a table says of a name can then be read off its entries
(`get?_eq_some_iff`).
-/

namespace Cascade

/-- Values under distinct names, in order, and the positions of the names. -/
structure Table (α : Type) where
  rows : Array (String × α)
  index : Std.HashMap String Nat
  index_iff : ∀ (name : String) (i : Nat),
    index[name]? = some i ↔ rows[i]?.map Prod.fst = some name

namespace Table

variable {α : Type}

/-- The names and their values in order. -/
def entries (t : Table α) : List (String × α) := t.rows.toList

/-- The names in order. -/
def names (t : Table α) : List String := t.entries.map Prod.fst

/-- The number of entries. -/
def size (t : Table α) : Nat := t.rows.size

/-- Whether there is a value under a name. -/
def contains (t : Table α) (name : String) : Bool := t.index.contains name

/-- The value under a name: the one at its position. -/
def get? (t : Table α) (name : String) : Option α :=
  match t.index[name]? with
  | none => none
  | some i => t.rows[i]?.map Prod.snd

/-! ## The index -/

/-- A name has a position exactly if it is among the names. -/
theorem exists_index_iff {t : Table α} {name : String} :
    (∃ i, t.index[name]? = some i) ↔ name ∈ t.names := by
  simp only [t.index_iff, names, entries, List.mem_iff_getElem?, List.getElem?_map,
    Array.getElem?_toList]

theorem contains_iff {t : Table α} {name : String} : t.contains name = true ↔ name ∈ t.names := by
  rw [contains, Std.HashMap.contains_eq_isSome_getElem?, Option.isSome_iff_exists,
    exists_index_iff]

/-- A value is found under a name exactly if the two are an entry. -/
theorem get?_eq_some_iff {t : Table α} {name : String} {a : α} :
    t.get? name = some a ↔ (name, a) ∈ t.entries := by
  rw [get?, entries, List.mem_iff_getElem?]
  simp only [Array.getElem?_toList]
  constructor
  · intro h
    cases hi : t.index[name]? with
    | none => simp [hi] at h
    | some i =>
      have hname := (t.index_iff name i).1 hi
      simp only [hi, Option.map_eq_some_iff] at h hname
      obtain ⟨⟨key, b⟩, hrow, rfl⟩ := h
      simp only [hrow, Option.some.injEq, exists_eq_left'] at hname
      exact ⟨i, by rw [hrow, hname]⟩
  · rintro ⟨i, hrow⟩
    have hi : t.index[name]? = some i := (t.index_iff name i).2 (by rw [hrow]; rfl)
    simp [hi, hrow]

/-- No name occurs twice. -/
theorem nodup (t : Table α) : t.names.Nodup := by
  rw [List.Nodup, List.pairwise_iff_getElem]
  intro i j hi hj hlt heq
  have hposition (k : Nat) (hk : k < t.names.length) : t.index[t.names[k]]? = some k := by
    rw [t.index_iff, ← Array.getElem?_toList, ← List.getElem?_map]
    exact List.getElem?_eq_getElem hk
  have hsame := hposition i hi
  rw [heq, hposition j hj, Option.some.injEq] at hsame
  omega

/-! ## Tables from tables -/

/-- The table without entries. -/
def empty : Table α where
  rows := #[]
  index := ∅
  index_iff := by simp

/-- Adds a value at the end, under a new name. -/
def add (t : Table α) (name : String) (a : α) (h : name ∉ t.names) : Table α where
  rows := t.rows.push (name, a)
  index := t.index.insert name t.rows.size
  index_iff := by
    intro key i
    rw [Std.HashMap.getElem?_insert, Array.getElem?_push]
    by_cases hkey : name = key
    · subst hkey
      -- a row before the new one would have put the name among those there are
      have hnone : t.rows[i]?.map Prod.fst ≠ some name := by
        intro hrow
        exact h (exists_index_iff.1 ⟨i, (t.index_iff name i).2 hrow⟩)
      by_cases hi : i = t.rows.size
      · simp [hi]
      · simp [hi, hnone, eq_comm]
    · rw [if_neg (by simpa using hkey), t.index_iff]
      by_cases hi : i = t.rows.size
      · simp [hi, hkey]
      · simp [hi]

/-- Adds a value at the end, unless there is one under the name. -/
def insert (t : Table α) (name : String) (a : α) : Table α :=
  if h : t.contains name = true then t else t.add name a fun hmem => h (contains_iff.2 hmem)

/-- The entries of one table, and then those of another whose names are new. -/
def extend (t u : Table α) : Table α :=
  u.entries.foldl (fun t entry => t.insert entry.1 entry.2) t

@[simp] theorem names_empty : (empty : Table α).names = [] := rfl

@[simp] theorem entries_add (t : Table α) (name : String) (a : α) (h : name ∉ t.names) :
    (t.add name a h).entries = t.entries ++ [(name, a)] := by
  simp [entries, add]

@[simp] theorem names_add (t : Table α) (name : String) (a : α) (h : name ∉ t.names) :
    (t.add name a h).names = t.names ++ [name] := by
  simp [names]

theorem insert_of_mem {t : Table α} {name : String} (h : name ∈ t.names) (a : α) :
    t.insert name a = t :=
  dif_pos (contains_iff.2 h)

theorem insert_of_not_mem {t : Table α} {name : String} (h : name ∉ t.names) (a : α) :
    t.insert name a = t.add name a h :=
  dif_neg (mt contains_iff.1 h)

/-! ## Lookups -/

/-- The names are exactly those that have a value. -/
theorem mem_names_iff {t : Table α} {name : String} :
    name ∈ t.names ↔ (t.get? name).isSome := by
  rw [Option.isSome_iff_exists]
  simp [get?_eq_some_iff, names]

/-- A name has no value exactly if it is not among the names. -/
theorem get?_eq_none_iff {t : Table α} {name : String} :
    t.get? name = none ↔ name ∉ t.names := by
  rw [mem_names_iff, Bool.not_eq_true, Option.isSome_eq_false_iff, Option.isNone_iff_eq_none]

/-- A new entry is found, and every other name keeps its value. -/
theorem get?_add (t : Table α) (name other : String) (a : α) (h : name ∉ t.names) :
    (t.add name a h).get? other = if other = name then some a else t.get? other := by
  apply Option.ext
  intro b
  rw [get?_eq_some_iff, entries_add, List.mem_append, ← get?_eq_some_iff, List.mem_singleton,
    Prod.mk.injEq]
  by_cases ho : other = name
  · simp [ho, get?_eq_none_iff.2 h, eq_comm]
  · simp [ho]

end Table

end Cascade
