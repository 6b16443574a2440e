import Cascade.Condition.Compile
import Mathlib.Logic.Relation

/-!
# Normal forms of conditions

A condition can be rewritten without touching what it is compiled to. A negation
moves into a node, which becomes one of the other kind, and two negations cancel.
A node inside of one of its own kind gives its items to the outer one, and a node
with one item is that item. `Rewrites` is one such step at any place in a
condition.

There are three groups.

* Steps. No step changes the compiled value (`Rewrites.compile_eq`).
* Normalizing. `normalize` makes all steps at once, from the leaves up. Its result
  is reached by steps (`reaches_normalize`) and allows no further one
  (`irreducible_normalizeAs`).
* The normal form is the only one: a step does not change it
  (`Rewrites.normalizeAs_eq`).
-/

namespace Cascade.Condition

open Relation

variable {α : Type}

/-! ## Steps -/

/-- The node of either kind: all of the items, or any. -/
def node (conjunctive : Bool) (items : List (Condition α)) : Condition α :=
  match conjunctive with
  | true => all items
  | false => any items

/-- Induction that does not tell the two kinds of nodes apart. -/
theorem nodeInduction {motive : Condition α → Prop} (leaf : ∀ a, motive (leaf a))
    (node : ∀ k items, (∀ c ∈ items, motive c) → motive (node k items))
    (not : ∀ c, motive c → motive (not c)) (c : Condition α) : motive c :=
  induction leaf (node true) (node false) not c

theorem node_inj {k k' : Bool} {items items' : List (Condition α)} :
    node k items = node k' items' ↔ k = k' ∧ items = items' := by
  cases k <;> cases k' <;> simp [node]

theorem node_ne_leaf {k : Bool} {items : List (Condition α)} {a : α} : node k items ≠ leaf a := by
  cases k <;> exact nofun

theorem node_ne_not {k : Bool} {items : List (Condition α)} {c : Condition α} :
    node k items ≠ not c := by
  cases k <;> exact nofun

/-- One step of rewriting, at any place in a condition. -/
inductive Rewrites : Condition α → Condition α → Prop where
  | notNode (k : Bool) (items : List (Condition α)) :
      Rewrites (not (node k items)) (node (!k) (items.map not))
  | notNot (c : Condition α) : Rewrites (not (not c)) c
  | splice (k : Bool) (before inner after : List (Condition α)) :
      Rewrites (node k (before ++ node k inner :: after)) (node k (before ++ (inner ++ after)))
  | lone (k : Bool) (c : Condition α) : Rewrites (node k [c]) c
  | item (k : Bool) (before after : List (Condition α)) {c d : Condition α} (h : Rewrites c d) :
      Rewrites (node k (before ++ c :: after)) (node k (before ++ d :: after))
  | negated {c d : Condition α} (h : Rewrites c d) : Rewrites (not c) (not d)

/-- A step does not change what a condition is compiled to. -/
theorem Rewrites.compile_eq {c d : Condition HookId} (h : Rewrites c d) (t f : String) :
    c.compile t f = d.compile t f := by
  induction h generalizing t f with
  | notNode k items => cases k <;> simp [node, List.foldr_map]
  | notNot c => rfl
  | splice k before inner after => cases k <;> simp [node]
  | lone k c => cases k <;> simp [node]
  | item k before after _ ih => cases k <;> simp [node, ih]
  | negated _ ih => exact ih f t

theorem compile_eq_of_reaches {c d : Condition HookId} (h : ReflTransGen Rewrites c d)
    (t f : String) : c.compile t f = d.compile t f := by
  induction h with
  | refl => rfl
  | tail _ hstep ih => rw [ih, hstep.compile_eq]

/-! ## Normalizing -/

/-- What an item contributes to a node: its own items if it is a node of the same
kind, and otherwise itself. -/
def parts (conjunctive : Bool) : Condition α → List (Condition α)
  | all items => if conjunctive then items else [all items]
  | any items => if conjunctive then [any items] else items
  | c => [c]

/-- A node, or its only item. -/
def unlessLone (conjunctive : Bool) : List (Condition α) → Condition α
  | [c] => c
  | items => node conjunctive items

/-- Joins normal forms to one. -/
def join (conjunctive : Bool) (items : List (Condition α)) : Condition α :=
  unlessLone conjunctive (items.flatMap (parts conjunctive))

/-- The normal form of a condition if `positive`, and otherwise that of its
negation. -/
def normalizeAs : Condition α → Bool → Condition α :=
  fold (fun a positive => if positive then leaf a else not (leaf a))
    (fun items positive => join positive (items.map (· positive)))
    (fun items positive => join (!positive) (items.map (· positive)))
    (fun item positive => item (!positive))

/-- The normal form: negations stand at leaves only, no node is an item of one of
its own kind, and no node has exactly one item. -/
def normalize (c : Condition α) : Condition α := c.normalizeAs true

theorem normalizeAs_node (k positive : Bool) (items : List (Condition α)) :
    (node k items).normalizeAs positive =
      join (k == positive) (items.map (normalizeAs · positive)) := by
  cases k <;> simp [node, normalizeAs, fold, foldList_eq_map, Function.comp_def]

@[simp] theorem normalizeAs_not (c : Condition α) (positive : Bool) :
    (not c).normalizeAs positive = c.normalizeAs (!positive) := rfl

theorem parts_node (k : Bool) (items : List (Condition α)) : parts k (node k items) = items := by
  cases k <;> rfl

/-- An item either is a node of this kind or is kept. -/
theorem parts_cases (k : Bool) (c : Condition α) :
    (∃ items, c = node k items) ∨ (∀ items, c ≠ node k items) ∧ parts k c = [c] := by
  cases c <;> cases k <;> simp [node, parts]

theorem unlessLone_of_length_ne_one {k : Bool} {items : List (Condition α)}
    (h : items.length ≠ 1) : unlessLone k items = node k items := by
  unfold unlessLone
  split
  · exact absurd rfl h
  · rfl

/-! ## The normal form is reached -/

section Reaching

variable {k : Bool}

/-- Steps in each of some items are steps in their node. -/
theorem reaches_items {f g : Condition α → Condition α} {items : List (Condition α)}
    (h : ∀ c ∈ items, ReflTransGen Rewrites (f c) (g c)) (before : List (Condition α)) :
    ReflTransGen Rewrites (node k (before ++ items.map f)) (node k (before ++ items.map g)) := by
  induction items generalizing before with
  | nil => exact .refl
  | cons c items ih =>
    rw [List.forall_mem_cons] at h
    have hfirst : ReflTransGen Rewrites (node k (before ++ f c :: items.map f))
        (node k (before ++ g c :: items.map f)) :=
      h.1.lift (fun d => node k (before ++ d :: items.map f))
        fun _ _ => .item k before (items.map f)
    have hothers := ih h.2 (before ++ [g c])
    simp only [List.append_assoc, List.singleton_append] at hothers
    exact hfirst.trans hothers

/-- Items that are nodes of the same kind give their items away, one after the
other. -/
theorem reaches_parts (before items : List (Condition α)) :
    ReflTransGen Rewrites (node k (before ++ items))
      (node k (before ++ items.flatMap (parts k))) := by
  induction items generalizing before with
  | nil => exact .refl
  | cons c items ih =>
    have hothers := ih (before ++ parts k c)
    rw [List.append_assoc, List.append_assoc] at hothers
    rw [List.flatMap_cons]
    rcases parts_cases k c with ⟨inner, rfl⟩ | ⟨-, hparts⟩
    · rw [parts_node] at hothers ⊢
      exact .head (.splice k before inner items) hothers
    · rw [hparts] at hothers ⊢
      exact hothers

theorem reaches_join (items : List (Condition α)) :
    ReflTransGen Rewrites (node k items) (join k items) := by
  have hparts : ReflTransGen Rewrites (node k items) (node k (items.flatMap (parts k))) :=
    reaches_parts [] items
  rw [join]
  unfold unlessLone
  split
  · next c hlone =>
    rw [hlone] at hparts
    exact hparts.tail (.lone k c)
  · exact hparts

end Reaching

/-- The condition if `positive`, and otherwise its negation. -/
def polar (positive : Bool) (c : Condition α) : Condition α :=
  if positive then c else not c

theorem reaches_normalizeAs (c : Condition α) (positive : Bool) :
    ReflTransGen Rewrites (polar positive c) (c.normalizeAs positive) := by
  induction c using nodeInduction generalizing positive with
  | leaf a => exact .refl
  | node k items ih =>
    -- First the negation moves in, then the items are rewritten, then they are joined.
    have hinside : ReflTransGen Rewrites (polar positive (node k items))
        (node (k == positive) (items.map (polar positive))) := by
      cases positive with
      | true =>
        have hsame : items.map (polar true) = items := List.map_id' items
        rw [beq_true, hsame]
        exact .refl
      | false =>
        rw [beq_false]
        exact .single (.notNode k items)
    have hitems := reaches_items (k := k == positive) (fun c hc => ih c hc positive) []
    rw [normalizeAs_node]
    exact (hinside.trans hitems).trans (reaches_join _)
  | not c ih =>
    rw [normalizeAs_not]
    cases positive with
    | true => exact ih false
    | false => exact .head (.notNot c) (ih true)

/-- The normal form is reached by steps. -/
theorem reaches_normalize (c : Condition α) : ReflTransGen Rewrites c c.normalize :=
  reaches_normalizeAs c true

/-! ## No step is left -/

/-- A condition that cannot be rewritten. -/
def Irreducible (c : Condition α) : Prop := ∀ d, ¬Rewrites c d

theorem irreducible_leaf (a : α) : Irreducible (leaf a) := by
  intro d h
  generalize hc : leaf a = c at h
  cases h with
  | notNode | notNot | negated => cases hc
  | splice | lone | item => exact absurd hc.symm node_ne_leaf

theorem irreducible_not_leaf (a : α) : Irreducible (not (leaf a)) := by
  intro d h
  generalize hc : not (leaf a) = c at h
  cases h with
  | notNode => exact absurd (not.inj hc).symm node_ne_leaf
  | notNot => cases not.inj hc
  | splice | lone | item => exact absurd hc.symm node_ne_not
  | negated h =>
    rw [← not.inj hc] at h
    exact irreducible_leaf a _ h

/-- A node is irreducible if it has not one item, and its items are irreducible and
no nodes of its kind. -/
theorem irreducible_node_iff {k : Bool} {items : List (Condition α)} :
    Irreducible (node k items) ↔
      items.length ≠ 1 ∧ ∀ c ∈ items, Irreducible c ∧ ∀ inner, c ≠ node k inner := by
  constructor
  · intro h
    refine ⟨?_, ?_⟩
    · intro hone
      obtain ⟨c, rfl⟩ := List.length_eq_one_iff.1 hone
      exact h c (.lone k c)
    · intro c hc
      obtain ⟨before, after, rfl⟩ := List.append_of_mem hc
      refine ⟨?_, ?_⟩
      · intro d hd
        exact h _ (.item k before after hd)
      · rintro inner rfl
        exact h _ (.splice k before inner after)
  · rintro ⟨hone, hitems⟩ d h
    generalize hc : node k items = c at h
    cases h with
    | notNode | notNot | negated => exact absurd hc node_ne_not
    | splice k' before inner after =>
      obtain ⟨rfl, rfl⟩ := node_inj.1 hc
      exact (hitems (node k inner) (by simp)).2 inner rfl
    | lone k' c =>
      obtain ⟨rfl, rfl⟩ := node_inj.1 hc
      exact hone rfl
    | item k' before after h =>
      obtain ⟨rfl, rfl⟩ := node_inj.1 hc
      exact (hitems _ (by simp)).1 _ h

section Joining

variable {k : Bool} {items : List (Condition α)}

/-- What irreducible items contribute to a node is irreducible and no node of its
kind. -/
theorem irreducible_parts (h : ∀ c ∈ items, Irreducible c) :
    ∀ d ∈ items.flatMap (parts k), Irreducible d ∧ ∀ inner, d ≠ node k inner := by
  intro d hd
  obtain ⟨c, hc, hdc⟩ := List.mem_flatMap.1 hd
  rcases parts_cases k c with ⟨inner, rfl⟩ | ⟨hother, hparts⟩
  · rw [parts_node] at hdc
    exact (irreducible_node_iff.1 (h _ hc)).2 d hdc
  · rw [hparts, List.mem_singleton] at hdc
    rw [hdc]
    exact ⟨h c hc, hother⟩

theorem irreducible_join (h : ∀ c ∈ items, Irreducible c) : Irreducible (join k items) := by
  have hparts := irreducible_parts (k := k) h
  rw [join]
  by_cases hone : (items.flatMap (parts k)).length = 1
  · obtain ⟨c, hc⟩ := List.length_eq_one_iff.1 hone
    rw [hc] at hparts ⊢
    exact (hparts c List.mem_cons_self).1
  · rw [unlessLone_of_length_ne_one hone]
    exact irreducible_node_iff.2 ⟨hone, hparts⟩

/-- A join gives to a node of its kind what its items would have given. -/
theorem parts_join (h : ∀ c ∈ items, Irreducible c) :
    parts k (join k items) = items.flatMap (parts k) := by
  have hparts := irreducible_parts (k := k) h
  rw [join]
  by_cases hone : (items.flatMap (parts k)).length = 1
  · obtain ⟨c, hc⟩ := List.length_eq_one_iff.1 hone
    rw [hc] at hparts ⊢
    rcases parts_cases k c with ⟨inner, rfl⟩ | ⟨-, hkept⟩
    · exact absurd rfl ((hparts _ List.mem_cons_self).2 inner)
    · exact hkept
  · rw [unlessLone_of_length_ne_one hone, parts_node]

theorem join_singleton {c : Condition α} (h : Irreducible c) : join k [c] = c := by
  rw [join, List.flatMap_singleton]
  rcases parts_cases k c with ⟨inner, rfl⟩ | ⟨-, hkept⟩
  · rw [parts_node, unlessLone_of_length_ne_one (irreducible_node_iff.1 h).1]
  · rw [hkept]
    rfl

end Joining

theorem irreducible_normalizeAs (c : Condition α) (positive : Bool) :
    Irreducible (c.normalizeAs positive) := by
  induction c using nodeInduction generalizing positive with
  | leaf a =>
    cases positive with
    | true => exact irreducible_leaf a
    | false => exact irreducible_not_leaf a
  | node k items ih =>
    rw [normalizeAs_node]
    apply irreducible_join
    rw [List.forall_mem_map]
    intro c hc
    exact ih c hc positive
  | not c ih => exact ih (!positive)

/-! ## There is one normal form -/

/-- A step does not change the normal form. -/
theorem Rewrites.normalizeAs_eq {c d : Condition α} (h : Rewrites c d) (positive : Bool) :
    c.normalizeAs positive = d.normalizeAs positive := by
  induction h generalizing positive with
  | notNode k items =>
    rw [normalizeAs_not, normalizeAs_node, normalizeAs_node, List.map_map]
    cases k <;> cases positive <;> rfl
  | notNot c => rw [normalizeAs_not, normalizeAs_not, Bool.not_not]
  | splice k before inner after =>
    have hinner : ∀ c ∈ inner.map (normalizeAs · positive), Irreducible c := by
      rw [List.forall_mem_map]
      intro c _
      exact irreducible_normalizeAs c positive
    simp only [normalizeAs_node, join, List.map_append, List.map_cons, List.flatMap_append,
      List.flatMap_cons]
    rw [← join, parts_join hinner]
  | lone k c =>
    rw [normalizeAs_node, List.map_singleton, join_singleton (irreducible_normalizeAs c positive)]
  | item k before after _ ih =>
    simp only [normalizeAs_node, List.map_append, List.map_cons, ih]
  | negated _ ih => exact ih (!positive)

theorem normalize_eq_of_reaches {c d : Condition α} (h : ReflTransGen Rewrites c d) :
    c.normalize = d.normalize := by
  induction h with
  | refl => rfl
  | tail _ hstep ih => rw [ih, normalize, normalize, hstep.normalizeAs_eq]

theorem normalize_eq_self {c : Condition α} (h : Irreducible c) : c.normalize = c := by
  rcases (reaches_normalize c).cases_head with heq | ⟨d, hstep, -⟩
  · exact heq.symm
  · exact absurd hstep (h d)

/-- Whatever steps are made, and in whatever order, the compiled value stays the
same, and a condition that allows no more steps is the normal form. -/
theorem compile_normalize (c : Condition HookId) (t f : String) :
    c.normalize.compile t f = c.compile t f ∧
    ReflTransGen Rewrites c c.normalize ∧
    ∀ d, ReflTransGen Rewrites c d →
      d.compile t f = c.compile t f ∧ (Irreducible d ↔ d = c.normalize) := by
  have hreach := reaches_normalize c
  refine ⟨(compile_eq_of_reaches hreach t f).symm, hreach, ?_⟩
  intro d hd
  refine ⟨(compile_eq_of_reaches hd t f).symm, ?_⟩
  constructor
  · intro hirreducible
    rw [normalize_eq_of_reaches hd, normalize_eq_self hirreducible]
  · rintro rfl
    exact irreducible_normalizeAs c true

example (a b c : HookId) :
    (not (all [leaf a, any [not (any [leaf b, any []])], not (not (leaf c))])).normalize =
      any [not (leaf a), leaf b, not (leaf c)] := rfl

end Cascade.Condition
