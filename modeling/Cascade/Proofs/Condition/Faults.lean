import Cascade.Proofs.Condition.Codec

/-!
# The fault that is reported

A JSON value that is no condition has a part that is no node, and reading reports the
first of these parts. `Json.children?` says what a node is and which values are below
it, and `Json.at?` finds a part by its path: the position of a child, then that of a
child of it, and so on. No part below something that is no node has a path.

The order of paths is the lexicographic one. A path comes before those that go on from
it, so that a node comes before what is below it, and before those that branch off to
the right. `Json.IsFirstFault` is stated with that order only, without the order in
which the reader goes.
-/

namespace Cascade

/-! ## Nodes and paths -/

namespace Json

/-- The values below a node, given the members of it that are not null: there is one, and
it is an array where several values can be meant. -/
def childrenUnder? : List (String × Json) → Option (List Json)
  | [("and", array items)] => some items
  | [("or", array items)] => some items
  | [("not", item)] => some [item]
  | _ => none

/-- The values below a node, in order, if this is one: a string, or an object with no
other keys than those of nodes. -/
def children? : Json → Option (List Json)
  | string _ => some []
  | object members =>
    if ∀ m ∈ members, m.1 ∈ ["and", "or", "not"] then
      childrenUnder? (members.filter fun m => !m.2.isNull)
    else
      none
  | _ => none

/-- Whether a value is a node, whatever is below it. -/
def isNode (v : Json) : Bool := v.children?.isSome

/-- The part of a value at a path. -/
def at? : Json → List Nat → Option Json
  | v, [] => some v
  | v, i :: path => v.children?.bind fun items => items[i]?.bind fun item => item.at? path

/-- A path to a part that is no node, and all parts with a path before it are nodes. -/
structure IsFirstFault (v : Json) (path : List Nat) (fault : Json) : Prop where
  reached : v.at? path = some fault
  not_node : fault.isNode = false
  nodes_before : ∀ earlier part, List.Lex (· < ·) earlier path → v.at? earlier = some part →
    part.isNode = true

variable {v : Json} {items : List Json}

theorem isNode_of_children? (h : v.children? = some items) : v.isNode = true := by
  rw [isNode, h, Option.isSome_some]

/-- The values below a node are smaller than the node. -/
theorem sizeOf_lt_of_mem_children? (h : v.children? = some items) {item : Json}
    (hitem : item ∈ items) : sizeOf item < sizeOf v := by
  have hmember {members : List (String × Json)} {m : String × Json} {rest : List (String × Json)}
      (hm : members.filter (fun m => !m.2.isNull) = m :: rest) :
      sizeOf m.2 < sizeOf (object members) := by
    have hmem : m ∈ members := (List.mem_filter.1 (hm ▸ List.mem_cons_self)).1
    have hlt := List.sizeOf_lt_of_mem hmem
    obtain ⟨key, value⟩ := m
    simp only [Prod.mk.sizeOf_spec, object.sizeOf_spec] at hlt ⊢
    omega
  have harray {items : List Json} (hitem : item ∈ items) : sizeOf item < sizeOf (array items) := by
    have hlt := List.sizeOf_lt_of_mem hitem
    rw [array.sizeOf_spec]
    omega
  unfold children? at h
  split at h
  · cases h
    exact absurd hitem List.not_mem_nil
  · split at h
    · unfold childrenUnder? at h
      split at h
      · next hfilter =>
        cases h
        exact Nat.lt_trans (harray hitem) (hmember hfilter)
      · next hfilter =>
        cases h
        exact Nat.lt_trans (harray hitem) (hmember hfilter)
      · next hfilter =>
        cases h
        rw [List.mem_singleton] at hitem
        exact hitem ▸ hmember hfilter
      · cases h
    · cases h
  · cases h

/-- Induction from the values below a node to the node. -/
theorem childrenInduction {P : Json → Prop}
    (step : ∀ v, (∀ items, v.children? = some items → ∀ item ∈ items, P item) → P v) (v : Json) :
    P v := by
  induction hn : sizeOf v using Nat.strongRecOn generalizing v with
  | ind n ih =>
    apply step
    intro items hitems item hitem
    exact ih _ (hn ▸ sizeOf_lt_of_mem_children? hitems hitem) item rfl

/-! ## Paths into a node -/

theorem at?_cons (h : v.children? = some items) (i : Nat) (path : List Nat) :
    v.at? (i :: path) = items[i]?.bind fun item => item.at? path := by
  rw [at?, h, Option.bind_some]

/-- A value that is no node has no other part than itself. -/
theorem isFirstFault_iff_of_none (h : v.children? = none) {path : List Nat} {fault : Json} :
    v.IsFirstFault path fault ↔ path = [] ∧ fault = v := by
  constructor
  · intro hfirst
    have hreached := hfirst.reached
    cases path with
    | nil =>
      cases hreached
      exact ⟨rfl, rfl⟩
    | cons i path =>
      rw [at?, h] at hreached
      cases hreached
  · intro hself
    obtain ⟨rfl, rfl⟩ := hself
    refine ⟨rfl, by rw [isNode, h, Option.isSome_none], ?_⟩
    intro earlier part hlex
    cases hlex

/-- The first fault in a node is the first fault in one of the values below it, and there
is none in the values to the left. -/
theorem isFirstFault_iff (h : v.children? = some items) {path : List Nat} {fault : Json} :
    v.IsFirstFault path fault ↔
      ∃ i rest item, path = i :: rest ∧ items[i]? = some item ∧ item.IsFirstFault rest fault ∧
        ∀ j < i, ∀ left, items[j]? = some left →
          ∀ path part, left.at? path = some part → part.isNode = true := by
  constructor
  · intro hfirst
    obtain ⟨hreached, hfault, hbefore⟩ := hfirst
    cases path with
    | nil =>
      cases hreached
      rw [isNode_of_children? h] at hfault
      cases hfault
    | cons i rest =>
      rw [at?_cons h, Option.bind_eq_some_iff] at hreached
      obtain ⟨item, hitem, hreached⟩ := hreached
      refine ⟨i, rest, item, rfl, hitem, ⟨hreached, hfault, ?_⟩, ?_⟩
      · intro earlier part hlex hpart
        apply hbefore (i :: earlier) part (.cons hlex)
        rw [at?_cons h, hitem, Option.bind_some, hpart]
      · intro j hj left hleft path part hpart
        apply hbefore (j :: path) part (.rel hj)
        rw [at?_cons h, hleft, Option.bind_some, hpart]
  · intro hfirst
    obtain ⟨i, rest, item, rfl, hitem, hfirst, hleft⟩ := hfirst
    refine ⟨?_, hfirst.not_node, ?_⟩
    · rw [at?_cons h, hitem, Option.bind_some, hfirst.reached]
    · intro earlier part hlex hpart
      cases hlex with
      | nil =>
        cases hpart
        exact isNode_of_children? h
      | @rel j path _ _ hj =>
        rw [at?_cons h, Option.bind_eq_some_iff] at hpart
        obtain ⟨left, hj', hpart⟩ := hpart
        exact hleft j hj left hj' path part hpart
      | cons hlex =>
        rw [at?_cons h, hitem, Option.bind_some] at hpart
        exact hfirst.nodes_before _ part hlex hpart

end Json

/-! ## Reading a node -/

namespace Condition

section Members

variable {node : Json} {m : String × Json} {members : List (String × Json)}

theorem ofMembers_void (h : isVoid m = true) :
    ofMembers node (m :: members) = ofMembers node members := by
  obtain ⟨key, value⟩ := m
  conv => lhs; unfold ofMembers
  exact if_pos h

theorem ofMembers_lone (h : isVoid m = false) (hrest : members.all isVoid = true) :
    ofMembers node (m :: members) = ofMembers node [m] := by
  obtain ⟨key, value⟩ := m
  have hvoid : ¬isVoid (key, value) = true := by simp [h]
  unfold ofMembers
  rw [if_neg hvoid, if_pos hrest, if_neg hvoid]
  rfl

theorem ofMembers_several (h : isVoid m = false) (hrest : members.all isVoid = false) :
    ofMembers node (m :: members) = .error (.malformed node) := by
  obtain ⟨key, value⟩ := m
  unfold ofMembers
  rw [if_neg (by simp [h]), if_neg (by simp [hrest])]

/-- Void members are passed over. -/
theorem ofMembers_eq_filter (node : Json) (members : List (String × Json)) :
    ofMembers node members = ofMembers node (members.filter fun m => !isVoid m) := by
  induction members with
  | nil => rfl
  | cons m members ih =>
    by_cases hvoid : isVoid m = true
    · rw [ofMembers_void hvoid, ih, List.filter_cons_of_neg (by simp [hvoid])]
    · rw [Bool.not_eq_true] at hvoid
      rw [List.filter_cons_of_pos (by simp [hvoid])]
      by_cases hrest : members.all isVoid = true
      · have hnone : members.filter (fun m => !isVoid m) = [] := by simpa using hrest
        rw [ofMembers_lone hvoid hrest, hnone]
      · rw [Bool.not_eq_true] at hrest
        have hsome : (members.filter fun m => !isVoid m).all isVoid = false := by simpa using hrest
        rw [ofMembers_several hvoid hrest, ofMembers_several hvoid hsome]

/-- A value under a key that no node has keeps an object from being one. -/
theorem childrenUnder?_eq_none (hm : m ∈ members) (hkey : m.1 ∉ ["and", "or", "not"]) :
    Json.childrenUnder? members = none := by
  unfold Json.childrenUnder?
  split
  · simp_all
  · simp_all
  · simp_all
  · rfl

/-- For what a node is, it is enough to leave out the void members. -/
theorem children?_object (members : List (String × Json)) :
    (Json.object members).children? =
      Json.childrenUnder? (members.filter fun m => !isVoid m) := by
  rw [Json.children?]
  by_cases hkeys : ∀ m ∈ members, m.1 ∈ ["and", "or", "not"]
  · have hfilter : members.filter (fun m => !isVoid m) = members.filter fun m => !m.2.isNull := by
      apply List.filter_congr
      intro m hm
      have hkey : nodeKeys.contains m.1 = true := List.contains_iff_mem.2 (hkeys m hm)
      rw [isVoid, hkey, Bool.true_and]
    rw [if_pos hkeys, hfilter]
  · rw [if_neg hkeys]
    simp only [Classical.not_forall] at hkeys
    obtain ⟨m, hm, hkey⟩ := hkeys
    have hvoid : isVoid m = false := by
      rw [isVoid, Bool.and_eq_false_iff]
      exact .inl (by simpa [nodeKeys] using hkey)
    exact (childrenUnder?_eq_none (List.mem_filter.2 ⟨hm, by simp [hvoid]⟩) hkey).symm

end Members

theorem ofItems_cons_eq_error_iff {item : Json} {items : List Json} {e : ConditionError} :
    ofItems (item :: items) = .error e ↔
      ofJson item = .error e ∨ (∃ c, ofJson item = .ok c) ∧ ofItems items = .error e := by
  rw [ofItems, bind_eq_error_iff]
  simp only [bind_eq_error_iff, pure, Except.pure, reduceCtorEq, and_false, exists_false, or_false,
    exists_and_right]

/-- Items are refused with the error of the first of them that is refused. -/
theorem ofItems_eq_error_iff {items : List Json} {e : ConditionError} :
    ofItems items = .error e ↔
      ∃ (i : Nat) (item : Json), items[i]? = some item ∧ ofJson item = .error e ∧
        ∀ j < i, ∀ left, items[j]? = some left → ∃ c, ofJson left = .ok c := by
  induction items with
  | nil =>
    refine iff_of_false nofun ?_
    intro h
    obtain ⟨i, item, hitem, -⟩ := h
    cases hitem
  | cons first items ih =>
    rw [ofItems_cons_eq_error_iff, ih]
    constructor
    · intro h
      rcases h with hfirst | ⟨hfirst, i, item, hitem, herror, hleft⟩
      · exact ⟨0, first, rfl, hfirst, by omega⟩
      · refine ⟨i + 1, item, hitem, herror, ?_⟩
        intro j hj left hj'
        cases j with
        | zero =>
          cases hj'
          exact hfirst
        | succ j => exact hleft j (by omega) left hj'
    · intro h
      obtain ⟨i, item, hitem, herror, hleft⟩ := h
      cases i with
      | zero =>
        cases hitem
        exact .inl herror
      | succ i =>
        refine .inr ⟨hleft 0 (by omega) first rfl, i, item, hitem, herror, ?_⟩
        intro j hj left hj'
        exact hleft (j + 1) (by omega) left hj'

/-- What reading does with an object: if it is no node it is refused itself, and if it is
one, reading goes on with the values below it. -/
theorem ofMembers_cases (node : Json) (members : List (String × Json)) :
    ((Json.object members).children? = none ∧
      ofMembers node members = .error (.malformed node)) ∨
    ∃ items, (Json.object members).children? = some items ∧
      ∀ e, ofMembers node members = .error e ↔ ofItems items = .error e := by
  rw [children?_object, ofMembers_eq_filter]
  have hvalues : ∀ m ∈ members.filter (fun m => !isVoid m), isVoid m = false := by
    intro m hm
    simpa using (List.mem_filter.1 hm).2
  generalize members.filter (fun m => !isVoid m) = values at hvalues
  match values with
  | [] => exact .inl ⟨rfl, rfl⟩
  | [(key, value)] =>
    have hvoid : isVoid (key, value) = false := hvalues _ List.mem_cons_self
    unfold ofMembers
    rw [if_neg (by simp [hvoid]), List.all_nil, if_pos rfl]
    split
    · exact .inr ⟨_, rfl, fun e => map_eq_error_iff⟩
    · exact .inr ⟨_, rfl, fun e => map_eq_error_iff⟩
    · refine .inr ⟨[value], rfl, fun e => ?_⟩
      rw [map_eq_error_iff, ofItems_cons_eq_error_iff]
      simp [ofItems]
    · next hnot hand hor =>
      refine .inl ⟨?_, rfl⟩
      unfold Json.childrenUnder?
      split <;> simp_all
  | m :: m' :: rest =>
    have hm' : isVoid m' = false := hvalues m' (by simp)
    refine .inl ⟨?_, ofMembers_several (hvalues m List.mem_cons_self) (by simp [hm'])⟩
    simp [Json.childrenUnder?]

/-- What reading does with a value. -/
theorem ofJson_cases (v : Json) :
    (v.children? = none ∧ ofJson v = .error (.malformed v)) ∨
      ∃ items, v.children? = some items ∧
        ∀ e, ofJson v = .error e ↔ ofItems items = .error e := by
  cases v with
  | string s => exact .inr ⟨[], rfl, fun e => iff_of_false nofun nofun⟩
  | object members =>
    rw [ofJson]
    exact ofMembers_cases (.object members) members
  | _ => exact .inl ⟨rfl, rfl⟩

/-- If items are read, so is each of them. -/
theorem exists_ofJson_of_ofItems {items : List Json} (h : ∀ e, ofItems items ≠ .error e) :
    ∀ item ∈ items, ∃ c, ofJson item = .ok c := by
  induction items with
  | nil => simp
  | cons first items ih =>
    simp only [ne_eq, ofItems_cons_eq_error_iff, not_or, not_and] at h
    have hfirst : ∃ c, ofJson first = .ok c := by
      cases hread : ofJson first with
      | error e => exact absurd hread (h e).1
      | ok c => exact ⟨c, rfl⟩
    rw [List.forall_mem_cons]
    exact ⟨hfirst, ih fun e => (h e).2 hfirst⟩

/-- A value that is read is a node, and the values below it are read. -/
theorem children?_of_ofJson_eq_ok {v : Json} {c : Condition String} (h : ofJson v = .ok c) :
    ∃ items, v.children? = some items ∧ ∀ item ∈ items, ∃ d, ofJson item = .ok d := by
  rcases ofJson_cases v with ⟨-, herror⟩ | ⟨items, hchildren, hitems⟩
  · rw [herror] at h
    cases h
  · refine ⟨items, hchildren, exists_ofJson_of_ofItems ?_⟩
    intro e he
    rw [(hitems e).2 he] at h
    cases h

/-- All parts of a value that is read are nodes. -/
theorem isNode_of_ofJson_eq_ok {v : Json} {c : Condition String} (h : ofJson v = .ok c)
    {path : List Nat} {part : Json} (hpart : v.at? path = some part) : part.isNode = true := by
  induction path generalizing v c with
  | nil =>
    obtain ⟨items, hchildren, -⟩ := children?_of_ofJson_eq_ok h
    cases hpart
    exact Json.isNode_of_children? hchildren
  | cons i path ih =>
    obtain ⟨items, hchildren, hread⟩ := children?_of_ofJson_eq_ok h
    rw [Json.at?_cons hchildren, Option.bind_eq_some_iff] at hpart
    obtain ⟨item, hitem, hpart⟩ := hpart
    obtain ⟨d, hd⟩ := hread item (List.mem_of_getElem? hitem)
    exact ih hd hpart

/-- A value is refused exactly if it has a first fault, and this is what is reported. -/
theorem ofJson_eq_error_iff (v : Json) {e : ConditionError} :
    ofJson v = .error e ↔ ∃ path fault, v.IsFirstFault path fault ∧ e = .malformed fault := by
  induction v using Json.childrenInduction generalizing e with
  | step v ih =>
    rcases ofJson_cases v with ⟨hnone, herror⟩ | ⟨items, hchildren, hitems⟩
    · rw [herror, Except.error.injEq]
      simp only [Json.isFirstFault_iff_of_none hnone]
      constructor
      · intro he
        exact ⟨[], v, ⟨rfl, rfl⟩, he.symm⟩
      · intro h
        obtain ⟨path, fault, ⟨-, rfl⟩, he⟩ := h
        exact he.symm
    · rw [hitems e, ofItems_eq_error_iff]
      constructor
      · intro h
        obtain ⟨i, item, hitem, herror, hleft⟩ := h
        obtain ⟨path, fault, hfirst, he⟩ :=
          (ih items hchildren item (List.mem_of_getElem? hitem)).1 herror
        refine ⟨i :: path, fault, (Json.isFirstFault_iff hchildren).2 ?_, he⟩
        refine ⟨i, path, item, rfl, hitem, hfirst, ?_⟩
        intro j hj left hj' path part hpart
        obtain ⟨c, hc⟩ := hleft j hj left hj'
        exact isNode_of_ofJson_eq_ok hc hpart
      · intro h
        obtain ⟨path, fault, hfirst, he⟩ := h
        obtain ⟨i, rest, item, rfl, hitem, hfirst, hleft⟩ :=
          (Json.isFirstFault_iff hchildren).1 hfirst
        refine ⟨i, item, hitem, ?_, ?_⟩
        · exact (ih items hchildren item (List.mem_of_getElem? hitem)).2 ⟨rest, fault, hfirst, he⟩
        · intro j hj left hj'
          cases hread : ofJson left with
          | ok c => exact ⟨c, rfl⟩
          | error e' =>
            -- A fault in a value to the left would be a part that is no node.
            obtain ⟨path, fault', hfirst', -⟩ :=
              (ih items hchildren left (List.mem_of_getElem? hj')).1 hread
            have hnode := hleft j hj left hj' path fault' hfirst'.reached
            rw [hfirst'.not_node] at hnode
            cases hnode

/-- Which fault of a JSON value is reported.

A value is refused exactly if some part of it that can be reached through nodes is no
node. What is reported is the first of these parts, where a node comes before the values
below it and these come from left to right, and the message shows its text. -/
theorem ofJson_reports_first_fault (v : Json) :
    ((∃ e, ofJson v = .error e) ↔ ∃ path part, v.at? path = some part ∧ part.isNode = false) ∧
    ∀ e, ofJson v = .error e ↔
      ∃ path fault, v.IsFirstFault path fault ∧ e = .malformed fault ∧
        e.message = "invalid condition: " ++ fault.compact := by
  refine ⟨⟨?_, ?_⟩, ?_⟩
  · intro h
    obtain ⟨e, he⟩ := h
    obtain ⟨path, fault, hfirst, -⟩ := (ofJson_eq_error_iff v).1 he
    exact ⟨path, fault, hfirst.reached, hfirst.not_node⟩
  · intro h
    obtain ⟨path, part, hpart, hnode⟩ := h
    cases hread : ofJson v with
    | error e => exact ⟨e, rfl⟩
    | ok c =>
      rw [isNode_of_ofJson_eq_ok hread hpart] at hnode
      cases hnode
  · intro e
    rw [ofJson_eq_error_iff]
    constructor
    · intro h
      obtain ⟨path, fault, hfirst, rfl⟩ := h
      exact ⟨path, fault, hfirst, rfl, rfl⟩
    · intro h
      obtain ⟨path, fault, hfirst, he, -⟩ := h
      exact ⟨path, fault, hfirst, he⟩

/-- The object without a member comes before the null, although it is deeper. -/
example :
    ofJson (.object [("and", .array [.string "a", .object [("not", .object [])], .null])]) =
      .error (.malformed (.object [])) := rfl

end Condition

end Cascade
