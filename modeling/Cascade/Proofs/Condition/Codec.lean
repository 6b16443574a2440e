import Cascade.Condition.Codec
import Cascade.Proofs.Table

/-!
# JSON values that stand for conditions

A JSON value is read as a condition exactly if it is what the condition is
written as, up to members that are null under a key of nodes. `Json.strip` takes
these members away, wherever they are.

`toJson` never writes a null, so stripping does not touch what it writes. Reading
what has been written is then a special case, and no two conditions are written
alike.
-/

namespace Cascade

/-! ## Values without null members of nodes -/

namespace Json

mutual

/-- The value without the members, of any object in it, that have the key of a
node and are null. -/
def strip : Json → Json
  | array items => array (stripItems items)
  | object members => object (stripMembers members)
  | v => v

/-- Strips every item. -/
def stripItems : List Json → List Json
  | [] => []
  | item :: items => item.strip :: stripItems items

/-- Leaves out the null members of nodes and strips the others. -/
def stripMembers : List (String × Json) → List (String × Json)
  | [] => []
  | (key, null) :: members =>
    if key ∈ ["and", "or", "not"] then stripMembers members
    else (key, null) :: stripMembers members
  | (key, value) :: members => (key, value.strip) :: stripMembers members

end

theorem stripItems_eq_map (items : List Json) : stripItems items = items.map strip := by
  induction items with
  | nil => rfl
  | cons item items ih => rw [stripItems, ih, List.map_cons]

/-- Stripping keeps arrays, and makes nothing else an array. -/
theorem strip_eq_array_iff {v : Json} {items : List Json} :
    v.strip = array items ↔ ∃ items', v = array items' ∧ stripItems items' = items := by
  cases v <;> simp [strip]

theorem stripMembers_cons (key : String) (value : Json) (members : List (String × Json)) :
    stripMembers ((key, value) :: members) =
      if Condition.isVoid (key, value) then stripMembers members
      else (key, value.strip) :: stripMembers members := by
  cases value with
  | null => by_cases h : key ∈ ["and", "or", "not"] <;>
      simp_all [stripMembers, Condition.isVoid, Condition.nodeKeys, isNull, strip]
  | _ => simp [stripMembers, Condition.isVoid, isNull]

/-- Nothing is left of an object exactly if all its members are void. -/
theorem stripMembers_eq_nil_iff {members : List (String × Json)} :
    stripMembers members = [] ↔ members.all Condition.isVoid = true := by
  induction members with
  | nil => simp [stripMembers]
  | cons member members ih =>
    obtain ⟨key, value⟩ := member
    rw [stripMembers_cons, List.all_cons]
    by_cases h : Condition.isVoid (key, value) = true <;> simp [h, ih]

end Json

/-! ## What conditions are written as -/

namespace Condition

/-- An object is what a condition is written as exactly if it has one member, with
the key of a node and its items. -/
theorem object_eq_toJson_iff {members : List (String × Json)} {c : Condition String} :
    .object members = c.toJson ↔
      (∃ items, members = [("and", .array (items.map toJson))] ∧ c = all items) ∨
      (∃ items, members = [("or", .array (items.map toJson))] ∧ c = any items) ∨
      (∃ d : Condition String, members = [("not", d.toJson)] ∧ c = not d) := by
  cases c <;> simp

theorem strip_toJson (c : Condition String) : c.toJson.strip = c.toJson := by
  have hitems {items : List (Condition String)} (ih : ∀ c ∈ items, c.toJson.strip = c.toJson) :
      Json.stripItems (items.map toJson) = items.map toJson := by
    rw [Json.stripItems_eq_map, List.map_map]
    exact List.map_congr_left ih
  induction c using Condition.induction with
  | leaf a => rfl
  | all items ih => simp [Json.strip, Json.stripMembers, hitems ih]
  | any items ih => simp [Json.strip, Json.stripMembers, hitems ih]
  | not c ih =>
    have hvoid : isVoid ("not", c.toJson) = false := by cases c <;> simp [isVoid, Json.isNull]
    rw [toJson_not, Json.strip, Json.stripMembers_cons, hvoid, ih]
    rfl

/-! ## Reading -/

-- The recursion is that of the reader, on the value.
mutual

theorem ofJson_eq_ok_iff : ∀ (v : Json) (c : Condition String),
    ofJson v = .ok c ↔ v.strip = c.toJson
  | .null, c | .bool _, c | .number _, c | .string _, c | .array _, c => by
    cases c <;> simp [ofJson, Json.strip]
  | .object members, c => by
    rw [ofJson, Json.strip]
    exact ofMembers_eq_ok_iff (.object members) members c

theorem ofMembers_eq_ok_iff : ∀ (node : Json) (members : List (String × Json))
    (c : Condition String),
    ofMembers node members = .ok c ↔ .object (Json.stripMembers members) = c.toJson
  | node, [], c => by
    cases c <;> simp [ofMembers, Json.stripMembers]
  | node, (key, value) :: members, c => by
    unfold ofMembers
    rw [Json.stripMembers_cons]
    split
    · exact ofMembers_eq_ok_iff node members c
    · split
      · next hrest =>
        rw [Json.stripMembers_eq_nil_iff.2 hrest, object_eq_toJson_iff]
        split
        · next items _ =>
          rw [map_eq_ok_iff, Json.strip]
          simp [ofItems_eq_ok_iff items, eq_comm]
        · next items _ =>
          rw [map_eq_ok_iff, Json.strip]
          simp [ofItems_eq_ok_iff items, eq_comm]
        · rw [map_eq_ok_iff]
          simp [ofJson_eq_ok_iff value, eq_comm]
        · next hnot hand hor =>
          -- The one member that is left is that of no node.
          refine iff_of_false nofun ?_
          rintro (⟨items, he, -⟩ | ⟨items, he, -⟩ | ⟨d, he, -⟩) <;>
            simp only [List.cons.injEq, Prod.mk.injEq, and_true] at he
          · obtain ⟨items', hvalue, -⟩ := Json.strip_eq_array_iff.1 he.2
            exact hand items' he.1 hvalue
          · obtain ⟨items', hvalue, -⟩ := Json.strip_eq_array_iff.1 he.2
            exact hor items' he.1 hvalue
          · exact hnot he.1
      · next hrest =>
        rw [← Json.stripMembers_eq_nil_iff] at hrest
        rw [object_eq_toJson_iff]
        simp [hrest]

theorem ofItems_eq_ok_iff : ∀ (items : List Json) (cs : List (Condition String)),
    ofItems items = .ok cs ↔ Json.stripItems items = cs.map toJson
  | [], cs => by
    cases cs <;> simp [ofItems, Json.stripItems]
  | item :: items, cs => by
    have hcons : ofItems (item :: items) = .ok cs ↔
        ∃ c, ofJson item = .ok c ∧ ∃ cs', ofItems items = .ok cs' ∧ c :: cs' = cs := by
      rw [ofItems, bind_eq_ok_iff]
      simp only [bind_eq_ok_iff, pure, Except.pure, Except.ok.injEq]
    rw [hcons, Json.stripItems, eq_comm, List.map_eq_cons_iff]
    simp only [ofJson_eq_ok_iff item, ofItems_eq_ok_iff items]
    grind

end

/-- A JSON value is read as a condition exactly if, without its null members of
nodes, it is what the condition is written as. So writing an accepted value again
gives the value without these members. What has been written is read back, and
from what has been written the condition can be told. -/
theorem ofJson_exact :
    (∀ (v : Json) (c : Condition String), ofJson v = .ok c ↔ v.strip = c.toJson) ∧
    (∀ c : Condition String, ofJson c.toJson = .ok c) ∧
    Function.Injective toJson := by
  have hread (c : Condition String) : ofJson c.toJson = .ok c :=
    (ofJson_eq_ok_iff c.toJson c).2 (strip_toJson c)
  refine ⟨ofJson_eq_ok_iff, hread, ?_⟩
  intro c d he
  have hd := hread d
  rw [← he, hread c] at hd
  exact Except.ok.inj hd

end Condition

end Cascade
