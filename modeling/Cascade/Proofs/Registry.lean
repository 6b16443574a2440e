import Cascade.Proofs.Distinct
import Cascade.Proofs.Table
import Cascade.Registry

/-!
# What a registry holds

Hooks are registered one after the other. A registration is refused if its name
is empty, or if the name stands for another hook already; `register_eq_ok_iff`
and `register_eq_error_iff` say all that one registration can do.

The three parts of a registry that is being built are all determined by the list of
registrations, which holds what was registered, each once (`Made`). So the table of
identifiers and the list of hooks of a registry that has been built are known in full
(`ids_entries_of_build`, `entries_of_build`): the names are in the order in which they
came up, and both ways to look a name up, by position among the entries and by the
index of the table, find what was registered under it first.
-/

namespace Cascade.Registry

variable {hooks : List (String × Hook)} {r : Registry} {name : String} {hook first : Hook}

namespace Builder

variable {b next : Builder}

/-! ## One registration -/

theorem register_of_empty (hname : name = "") : b.register (name, hook) = .error .emptyName :=
  if_pos hname

theorem register_of_new (hname : name ≠ "") (hnew : b.seen.lookup name = none) :
    b.register (name, hook) = .ok (b.add name hook hnew) := by
  unfold register
  rw [if_neg hname]
  split
  · next first hfirst =>
    rw [hnew] at hfirst
    cases hfirst
  · rfl

theorem register_of_known (hname : name ≠ "") (hfirst : b.seen.lookup name = some first) :
    b.register (name, hook) =
      if first = hook then .ok b else .error (.conflict name first hook) := by
  unfold register
  rw [if_neg hname]
  split
  · next other hother =>
    rw [hother, Option.some.injEq] at hfirst
    rw [hfirst]
  · next hnone =>
    rw [hnone] at hfirst
    cases hfirst

/-- What a registration can come upon: an empty name, a new one, or one that has a
hook. -/
theorem register_cases (b : Builder) (name : String) :
    name = "" ∨ (name ≠ "" ∧ b.seen.lookup name = none) ∨
      (name ≠ "" ∧ ∃ first, b.seen.lookup name = some first) := by
  by_cases hname : name = ""
  · exact .inl hname
  · cases hlookup : b.seen.lookup name with
    | none => exact .inr (.inl ⟨hname, rfl⟩)
    | some first => exact .inr (.inr ⟨hname, first, rfl⟩)

/-- A registration that succeeds: the name was new, or had this hook already. -/
theorem register_eq_ok_iff :
    b.register (name, hook) = .ok next ↔
      name ≠ "" ∧
        ((∃ hnew : b.seen.lookup name = none, next = b.add name hook hnew) ∨
          (b.seen.lookup name = some hook ∧ next = b)) := by
  rcases register_cases b name with hname | ⟨hname, hnew⟩ | ⟨hname, first, hfirst⟩
  · rw [register_of_empty hname]
    simp [hname]
  · simp [register_of_new hname hnew, hname, hnew, eq_comm]
  · rw [register_of_known hname hfirst]
    by_cases he : first = hook
    · simp [he, hname, hfirst, eq_comm]
    · simp [he, hfirst]

/-- A registration that is refused: the name is empty, or has another hook. -/
theorem register_eq_error_iff {error : RegistryError} :
    b.register (name, hook) = .error error ↔
      name = "" ∧ error = .emptyName ∨
      name ≠ "" ∧ ∃ first, b.seen.lookup name = some first ∧ first ≠ hook ∧
        error = .conflict name first hook := by
  rcases register_cases b name with hname | ⟨hname, hnew⟩ | ⟨hname, first, hfirst⟩
  · rw [register_of_empty hname]
    simp [hname, eq_comm]
  · simp [register_of_new hname hnew, hname, hnew]
  · rw [register_of_known hname hfirst]
    by_cases he : first = hook
    · simp [he, hname, hfirst]
    · have hne : first ≠ hook := he
      simp [hne, hname, hfirst, eq_comm (a := error)]

/-! ## All registrations -/

theorem nodup_seen (b : Builder) : (b.seen.map Prod.fst).Nodup := by
  rw [← b.names_ids]
  exact b.ids.nodup

/-- The registrations are those that were asked for, each once and where it first came
up, and none has an empty name. -/
structure Made (hooks : List (String × Hook)) (b : Builder) : Prop where
  seen_eq : b.seen = hooks.eraseDups
  name_ne : ∀ entry ∈ hooks, entry.1 ≠ ""

theorem made_register {entry : String × Hook} (hb : Made hooks b)
    (h : b.register entry = .ok next) : Made (hooks ++ [entry]) next := by
  obtain ⟨name, hook⟩ := entry
  obtain ⟨hname, hseen⟩ := register_eq_ok_iff.1 h
  constructor
  · rw [eraseDups_concat]
    rcases hseen with ⟨hnew, rfl⟩ | ⟨hknown, rfl⟩
    · have hmem : (name, hook) ∉ hooks := by
        rw [← List.mem_eraseDups, ← hb.seen_eq]
        intro hmem
        exact lookup_eq_none_iff_not_mem.1 hnew (List.mem_map_of_mem hmem)
      rw [if_neg hmem, ← hb.seen_eq]
      rfl
    · have hmem : (name, hook) ∈ hooks := by
        rw [← List.mem_eraseDups, ← hb.seen_eq]
        exact mem_of_lookup hknown
      rw [if_pos hmem, hb.seen_eq]
  · rw [List.forall_mem_append, List.forall_mem_singleton]
    exact ⟨hb.name_ne, hname⟩

theorem made_of_foldlM (h : hooks.foldlM register .empty = .ok b) : Made hooks b := by
  have hempty : Made [] empty := ⟨rfl, by simp⟩
  exact foldlM_invariant (fun _ _ _ _ => made_register) hempty h

theorem Made.lookup_seen (hb : Made hooks b) :
    b.seen.lookup name = some hook ↔ (name, hook) ∈ hooks := by
  rw [lookup_eq_some_iff_mem b.nodup_seen, hb.seen_eq, List.mem_eraseDups]

end Builder

/-! ## Which registrations succeed -/

/-- Registrations that can all be made: no name is empty, and none has two hooks. -/
structure Registrable (hooks : List (String × Hook)) : Prop where
  name_ne : ∀ entry ∈ hooks, entry.1 ≠ ""
  unique : ∀ name first second, (name, first) ∈ hooks → (name, second) ∈ hooks → first = second

/-- Distinct names can all be registered, whatever the hooks. -/
theorem Registrable.of_nodup (hname : ∀ entry ∈ hooks, entry.1 ≠ "")
    (hnodup : (hooks.map Prod.fst).Nodup) : Registrable hooks where
  name_ne := hname
  unique := by
    intro name first second hfirst hsecond
    rw [← lookup_eq_some_iff_mem hnodup] at hfirst hsecond
    rw [hfirst, Option.some.injEq] at hsecond
    exact hsecond

/-- Fewer registrations can be made if more can. -/
theorem Registrable.mono {hooks' : List (String × Hook)} (h : Registrable hooks)
    (hsub : ∀ entry ∈ hooks', entry ∈ hooks) : Registrable hooks' where
  name_ne := fun entry hentry => h.name_ne entry (hsub entry hentry)
  unique := fun name first second hfirst hsecond =>
    h.unique name first second (hsub _ hfirst) (hsub _ hsecond)

theorem Builder.Made.registrable {b : Builder} (hb : b.Made hooks) : Registrable hooks where
  name_ne := hb.name_ne
  unique := by
    intro name first second hfirst hsecond
    have hlookup := hb.lookup_seen.2 hsecond
    rw [hb.lookup_seen.2 hfirst, Option.some.injEq] at hlookup
    exact hlookup

/-- What is found under a name is what was registered under it. -/
theorem Registrable.lookup_iff (h : Registrable hooks) :
    hooks.lookup name = some hook ↔ (name, hook) ∈ hooks := by
  constructor
  · exact mem_of_lookup
  · intro hmem
    cases hlookup : hooks.lookup name with
    | none => exact absurd (List.mem_map_of_mem hmem) (lookup_eq_none_iff_not_mem.1 hlookup)
    | some first => rw [h.unique name first hook (mem_of_lookup hlookup) hmem]

/-- The registrations that have been made answer for those that were asked for. -/
theorem Builder.Made.lookup_eq {b : Builder} (hb : b.Made hooks) (name : String) :
    b.seen.lookup name = hooks.lookup name := by
  apply Option.ext
  intro hook
  rw [hb.lookup_seen, hb.registrable.lookup_iff]

theorem build_eq_ok_iff :
    build hooks = .ok r ↔ ∃ b, hooks.foldlM Builder.register .empty = .ok b ∧ b.registry = r := by
  rw [build, bind_pure_comp]
  exact map_eq_ok_iff

theorem build_eq_error_iff_foldlM {error : RegistryError} :
    build hooks = .error error ↔ hooks.foldlM Builder.register .empty = .error error := by
  rw [build, bind_pure_comp]
  exact map_eq_error_iff

theorem exists_made_of_build (h : build hooks = .ok r) :
    ∃ b : Builder, b.Made hooks ∧ b.registry = r := by
  obtain ⟨b, hb, hr⟩ := build_eq_ok_iff.1 h
  exact ⟨b, Builder.made_of_foldlM hb, hr⟩

theorem registrable_of_build (h : build hooks = .ok r) : Registrable hooks := by
  obtain ⟨b, hb, -⟩ := exists_made_of_build h
  exact hb.registrable

theorem exists_foldlM_register (h : Registrable hooks) :
    ∃ b, hooks.foldlM Builder.register .empty = .ok b := by
  cases hrun : hooks.foldlM Builder.register .empty with
  | ok b => exact ⟨b, rfl⟩
  | error error =>
    -- What is refused would be one of the registrations, against one before it.
    obtain ⟨before, ⟨name, hook⟩, after, mid, rfl, hmid, hrefused⟩ := foldlM_eq_error_iff.1 hrun
    have hentry : (name, hook) ∈ before ++ (name, hook) :: after := by simp
    rcases Builder.register_eq_error_iff.1 hrefused with ⟨hname, -⟩ | ⟨-, first, hfirst, hne, -⟩
    · exact absurd hname (h.name_ne _ hentry)
    · have hmem : (name, first) ∈ before := (Builder.made_of_foldlM hmid).lookup_seen.1 hfirst
      exact absurd (h.unique name first hook (List.mem_append_left _ hmem) hentry) hne

theorem exists_build_iff : (∃ r, build hooks = .ok r) ↔ Registrable hooks := by
  constructor
  · intro h
    obtain ⟨r, hr⟩ := h
    exact registrable_of_build hr
  · intro h
    obtain ⟨b, hb⟩ := exists_foldlM_register h
    exact ⟨b.registry, build_eq_ok_iff.2 ⟨b, hb, rfl⟩⟩

theorem build_eq_error_iff {error : RegistryError} :
    build hooks = .error error ↔
      ∃ before name hook after, hooks = before ++ (name, hook) :: after ∧ Registrable before ∧
        (name = "" ∧ error = .emptyName ∨
          name ≠ "" ∧ ∃ first, before.lookup name = some first ∧ first ≠ hook ∧
            error = .conflict name first hook) := by
  rw [build_eq_error_iff_foldlM]
  constructor
  · intro h
    obtain ⟨before, ⟨name, hook⟩, after, mid, hsplit, hmid, hrefused⟩ := foldlM_eq_error_iff.1 h
    have hmade := Builder.made_of_foldlM hmid
    refine ⟨before, name, hook, after, hsplit, hmade.registrable, ?_⟩
    rwa [Builder.register_eq_error_iff, hmade.lookup_eq] at hrefused
  · intro h
    obtain ⟨before, name, hook, after, hsplit, hbefore, hrefused⟩ := h
    obtain ⟨mid, hmid⟩ := exists_foldlM_register hbefore
    refine foldlM_eq_error_iff.2 ⟨before, (name, hook), after, mid, hsplit, hmid, ?_⟩
    rwa [Builder.register_eq_error_iff, (Builder.made_of_foldlM hmid).lookup_eq]

/-! ## Names, identifiers and entries -/

/-- The table of a registry has the names and the identifiers of the hooks that were
registered, each once. -/
theorem ids_entries_of_build (h : build hooks = .ok r) :
    r.ids.entries = hooks.eraseDups.map fun entry => (entry.1, entry.2.id) := by
  obtain ⟨b, hb, rfl⟩ := exists_made_of_build h
  rw [← hb.seen_eq]
  exact b.ids_eq

/-- The entries have the hooks themselves, in the same order. -/
theorem entries_of_build (h : build hooks = .ok r) :
    r.entries = hooks.eraseDups.map fun entry => (entry.2, entry.2.id) := by
  obtain ⟨b, hb, rfl⟩ := exists_made_of_build h
  rw [← hb.seen_eq]
  exact b.entries_eq

theorem names_ids_of_build (h : build hooks = .ok r) :
    r.ids.names = (hooks.map Prod.fst).eraseDups := by
  have hnames : r.ids.names = hooks.eraseDups.map Prod.fst := by
    rw [Table.names, ids_entries_of_build h, List.map_map]
    rfl
  have hnodup := r.ids.nodup
  rw [hnames] at hnodup ⊢
  rw [← eraseDups_map_eraseDups, eraseDups_of_nodup hnodup]

theorem get?_ids_of_build (h : build hooks = .ok r) (name : String) :
    r.ids.get? name = (hooks.lookup name).map Hook.id := by
  apply Option.ext
  intro id
  rw [Table.get?_eq_some_iff, ids_entries_of_build h, List.mem_map, Option.map_eq_some_iff]
  simp only [List.mem_eraseDups, (registrable_of_build h).lookup_iff, Prod.mk.injEq, Prod.exists]
  constructor
  · rintro ⟨key, hook, hmem, rfl, hid⟩
    exact ⟨hook, hmem, hid⟩
  · rintro ⟨hook, hmem, hid⟩
    exact ⟨name, hook, hmem, rfl, hid⟩

/-- To go through names and entries together finds what is under the name, since the
two are those of the same hooks. -/
theorem definition?_eq_lookup {registered : List (String × Hook)}
    (hids : r.ids.entries = registered.map fun entry => (entry.1, entry.2.id))
    (hentries : r.entries = registered.map fun entry => (entry.2, entry.2.id)) (name : String) :
    r.definition? name = registered.lookup name := by
  rw [definition?, Table.names, hids, hentries, List.map_map, List.zip_map']
  clear hids hentries
  induction registered with
  | nil => rfl
  | cons entry rest ih =>
    obtain ⟨key, hook⟩ := entry
    by_cases hkey : key = name
    · simp [hkey]
    · have hother : (name == key) = false := beq_eq_false_iff_ne.2 (Ne.symm hkey)
      simpa [hkey, List.lookup_cons, hother] using ih

theorem Builder.definition?_registry (b : Builder) (name : String) :
    b.registry.definition? name = b.seen.lookup name :=
  definition?_eq_lookup b.ids_eq b.entries_eq name

theorem definition?_of_build (h : build hooks = .ok r) (name : String) :
    r.definition? name = hooks.lookup name := by
  obtain ⟨b, hb, rfl⟩ := exists_made_of_build h
  rw [b.definition?_registry, hb.lookup_eq]

/-- A hook that is there may be registered again. -/
theorem Builder.register_again {b : Builder} (hname : name ≠ "")
    (h : b.registry.definition? name = some hook) : b.register (name, hook) = .ok b := by
  rw [definition?_registry] at h
  exact register_eq_ok_iff.2 ⟨hname, .inr ⟨h, rfl⟩⟩

/-- Registrations succeed exactly if no name is empty and none has two hooks.
Otherwise the first that cannot be made after those before it is reported: an
empty name, or a name with its first hook and the other one.

The registry then has the distinct names in the order in which they came up.
Whether a name is looked up by the entries or by the identifiers, what is found
is the hook that was first registered under it. -/
theorem build_registers (hooks : List (String × Hook)) :
    ((∃ r, build hooks = .ok r) ↔ Registrable hooks) ∧
    (∀ error, build hooks = .error error ↔
      ∃ before name hook after, hooks = before ++ (name, hook) :: after ∧ Registrable before ∧
        (name = "" ∧ error = .emptyName ∨
          name ≠ "" ∧ ∃ first, before.lookup name = some first ∧ first ≠ hook ∧
            error = .conflict name first hook)) ∧
    (∀ name first second, RegistryError.message (.conflict name first second) =
      "hook '" ++ name ++ "' registered with conflicting definitions '" ++ first.text ++
        "' and '" ++ second.text ++ "'") ∧
    ∀ r, build hooks = .ok r →
      r.ids.names = (hooks.map Prod.fst).eraseDups ∧
      r.ids.size = (hooks.map Prod.fst).eraseDups.length ∧
      ∀ name,
        r.definition? name = hooks.lookup name ∧
        r.ids.get? name = (hooks.lookup name).map Hook.id ∧
        (name ∈ r.ids.names ↔ (hooks.lookup name).isSome) := by
  refine ⟨exists_build_iff, fun _ => build_eq_error_iff, fun _ _ _ => rfl, ?_⟩
  intro r h
  have hnames := names_ids_of_build h
  refine ⟨hnames, ?_, ?_⟩
  · rw [← hnames, Table.names, List.length_map, Table.entries, Array.length_toList]
    rfl
  · intro name
    refine ⟨definition?_of_build h name, get?_ids_of_build h name, ?_⟩
    rw [Table.mem_names_iff, get?_ids_of_build h, Option.isSome_map]

/-- One hook under two names, and registered again under the first. -/
theorem build_registers_alias :
    let hover : Hook := .selector "&:hover"
    ∃ r, build [("hover", hover), ("over", hover), ("hover", hover)] = .ok r ∧
      r.ids.names = ["hover", "over"] ∧ r.definition? "over" = some hover ∧
      r.ids.get? "away" = none := by
  intro hover
  have hall : ∀ entry ∈ [("hover", hover), ("over", hover), ("hover", hover)],
      entry.1 ≠ "" ∧ entry.2 = hover := by simp
  obtain ⟨r, hr⟩ := (build_registers [("hover", hover), ("over", hover), ("hover", hover)]).1.2
    ⟨fun entry hentry => (hall entry hentry).1,
      fun _ _ _ hfirst hsecond => (hall _ hfirst).2.trans (hall _ hsecond).2.symm⟩
  obtain ⟨hnames, -, hlookup⟩ := (build_registers _).2.2.2 r hr
  refine ⟨r, hr, ?_, ?_, ?_⟩
  · rw [hnames]
    decide
  · rw [(hlookup "over").1]
    decide
  · rw [(hlookup "away").2.1]
    decide

end Cascade.Registry
