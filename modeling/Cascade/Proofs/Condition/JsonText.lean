import Cascade.Json.Decode
import Cascade.Proofs.Condition.Codec
import Cascade.Proofs.Json.Reading

/-!
# Conditions as text in JSON

The text of a condition in JSON can be had in two ways: written at once, or from
the JSON value of the condition. Both give the same text.

A negation is one container and any other node is two, an object with an array in
it. `Condition.nesting` counts them, and it decides whether the text can be read:
up to the limit of the reader it is read as the condition, and beyond it is
refused.
-/

namespace Cascade.Condition

/-! ## The two ways of writing -/

theorem jsonText_all {α : Type} (leafText : α → String) (items : List (Condition α)) :
    (all items).jsonText leafText =
      jsonNode "and" ("[" ++ Json.commaSeparated (items.map (jsonText leafText)) ++ "]") := by
  simp only [jsonText, fold, foldList_eq_map]

theorem jsonText_any {α : Type} (leafText : α → String) (items : List (Condition α)) :
    (any items).jsonText leafText =
      jsonNode "or" ("[" ++ Json.commaSeparated (items.map (jsonText leafText)) ++ "]") := by
  simp only [jsonText, fold, foldList_eq_map]

theorem jsonText_not {α : Type} (leafText : α → String) (c : Condition α) :
    (not c).jsonText leafText = jsonNode "not" (c.jsonText leafText) := rfl

/-- An object with one member is written as a node. -/
theorem compact_singleton (key : String) (v : Json) :
    (Json.object [(key, v)]).compact = jsonNode key v.compact := by
  simp [Json.compact, Json.compactMembers, Json.commaSeparated_singleton, jsonNode,
    String.append_assoc]

theorem compact_array_toJson (items : List (Condition String)) :
    (Json.array (items.map toJson)).compact =
      "[" ++ Json.commaSeparated (items.map fun c => c.toJson.compact) ++ "]" := by
  rw [Json.compact, Json.compactItems_eq_map, List.map_map]
  rfl

theorem jsonText_eq_compact (c : Condition String) : c.jsonText id = c.toJson.compact := by
  induction c using Condition.induction with
  | leaf a => rfl
  | all items ih =>
    rw [jsonText_all, toJson_all, compact_singleton, compact_array_toJson, List.map_congr_left ih]
  | any items ih =>
    rw [jsonText_any, toJson_any, compact_singleton, compact_array_toJson, List.map_congr_left ih]
  | not c ih => rw [jsonText_not, toJson_not, compact_singleton, ih]

/-! ## Nesting -/

/-- How many containers the condition in JSON has inside one another. -/
def nesting {α : Type} : Condition α → Nat :=
  fold (fun _ => 0) (fun items => 2 + items.foldr max 0) (fun items => 2 + items.foldr max 0)
    (fun item => 1 + item)

theorem nesting_all {α : Type} (items : List (Condition α)) :
    (all items).nesting = 2 + (items.map nesting).foldr max 0 := by
  simp only [nesting, fold, foldList_eq_map]

theorem nesting_any {α : Type} (items : List (Condition α)) :
    (any items).nesting = 2 + (items.map nesting).foldr max 0 := by
  simp only [nesting, fold, foldList_eq_map]

theorem nesting_not {α : Type} (c : Condition α) : (not c).nesting = 1 + c.nesting := rfl

theorem nesting_singleton (key : String) (v : Json) :
    (Json.object [(key, v)]).nesting = 1 + v.nesting := by
  simp [Json.nesting, Json.nestingMembers]

theorem nesting_array_toJson {items : List (Condition String)}
    (h : ∀ c ∈ items, c.toJson.nesting = c.nesting) :
    (Json.array (items.map toJson)).nesting = 1 + (items.map nesting).foldr max 0 := by
  rw [Json.nesting]
  congr 1
  induction items with
  | nil => rfl
  | cons c items ih =>
    rw [List.forall_mem_cons] at h
    rw [List.map_cons, Json.nestingItems, h.1, ih h.2, List.map_cons, List.foldr_cons]

theorem nesting_toJson (c : Condition String) : c.toJson.nesting = c.nesting := by
  induction c using Condition.induction with
  | leaf a => rfl
  | all items ih =>
    rw [toJson_all, nesting_singleton, nesting_array_toJson ih, nesting_all]
    omega
  | any items ih =>
    rw [toJson_any, nesting_singleton, nesting_array_toJson ih, nesting_any]
    omega
  | not c ih => rw [toJson_not, nesting_singleton, ih, nesting_not]

/-! ## Reading -/

theorem plain_toJson (c : Condition String) : c.toJson.Plain := by
  have hnode {key : String} {v : Json} (hv : v.Plain) : (Json.object [(key, v)]).Plain :=
    .object (by simp) (by simpa using hv)
  have hitems {items : List (Condition String)} (ih : ∀ c ∈ items, c.toJson.Plain) :
      (Json.array (items.map toJson)).Plain :=
    .array (by simpa using ih)
  induction c using Condition.induction with
  | leaf a => exact .string a
  | all items ih =>
    rw [toJson_all]
    exact hnode (hitems ih)
  | any items ih =>
    rw [toJson_any]
    exact hnode (hitems ih)
  | not c ih => exact hnode ih

/-- The text of a condition in JSON is the same whether it is written at once or
from the JSON value. It is read as the condition when at most 127 containers are
inside one another, and is no JSON to the reader otherwise. -/
theorem read?_jsonText (c : Condition String) :
    c.jsonText id = c.toJson.compact ∧
    (Json.read? (c.jsonText id)).map Json.asCondition =
      if c.nesting ≤ 127 then some (.ok c) else none := by
  refine ⟨jsonText_eq_compact c, ?_⟩
  rw [jsonText_eq_compact, (plain_toJson c).read?_compact, nesting_toJson]
  have hdecode : c.toJson.asCondition = .ok c := by
    rw [Json.asCondition, (ofJson_eq_ok_iff c.toJson c).2 (strip_toJson c)]
    rfl
  by_cases h : c.nesting ≤ 127
  · rw [if_pos h, if_pos (show c.nesting ≤ Json.nestingLimit from h), Option.map_some, hdecode]
  · rw [if_neg h, if_neg (show ¬c.nesting ≤ Json.nestingLimit from h), Option.map_none]

end Cascade.Condition
