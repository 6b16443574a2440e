import Cascade.Condition.Basic
import Cascade.Condition.Error

/-!
# Conditions as JSON

A leaf is a string; a node is an object with one member, whose key tells its
kind. When reading, further members with the keys of nodes are allowed as long
as they are null. The first node that is none of these is refused, whole, where
a node is looked at before its items and these from left to right.
-/

namespace Cascade.Condition

/-- The JSON value of a condition over texts. -/
def toJson : Condition String → Json :=
  fold Json.string (fun items => .object [("and", .array items)])
    (fun items => .object [("or", .array items)]) (fun item => .object [("not", item)])

@[simp] theorem toJson_leaf (s : String) : (leaf s).toJson = .string s := rfl

@[simp] theorem toJson_all (items : List (Condition String)) :
    (all items).toJson = .object [("and", .array (items.map toJson))] := by
  simp only [toJson, fold, foldList_eq_map]

@[simp] theorem toJson_any (items : List (Condition String)) :
    (any items).toJson = .object [("or", .array (items.map toJson))] := by
  simp only [toJson, fold, foldList_eq_map]

@[simp] theorem toJson_not (c : Condition String) :
    (not c).toJson = .object [("not", c.toJson)] := rfl

/-- The text of a node in JSON: an object with one member. -/
def jsonNode (key value : String) : String :=
  "\x7b" ++ Text.quoted key ++ ":" ++ value ++ "\x7d"

/-- The text of a condition in JSON, written without building the JSON value. -/
def jsonText {α : Type} (leafText : α → String) : Condition α → String :=
  fold (fun a => Text.quoted (leafText a))
    (fun items => jsonNode "and" ("[" ++ Json.commaSeparated items ++ "]"))
    (fun items => jsonNode "or" ("[" ++ Json.commaSeparated items ++ "]"))
    (fun item => jsonNode "not" item)

/-- The keys that nodes use. -/
def nodeKeys : List String := ["and", "or", "not"]

/-- Whether a member of an object stands for nothing: a key of a node without a
value. -/
def isVoid (member : String × Json) : Bool :=
  nodeKeys.contains member.1 && member.2.isNull

mutual

/-- The condition that a JSON value stands for. -/
def ofJson : Json → Except ConditionError (Condition String)
  | .string s => .ok (leaf s)
  | .object members => ofMembers (.object members) members
  | node => .error (.malformed node)

/-- The node with these members, of which all but one have to be void; `node` is
the whole object. -/
def ofMembers (node : Json) : List (String × Json) → Except ConditionError (Condition String)
  | [] => .error (.malformed node)
  | (key, value) :: members =>
    if isVoid (key, value) then ofMembers node members
    else if members.all isVoid then
      match key, value with
      | "and", .array items => all <$> ofItems items
      | "or", .array items => any <$> ofItems items
      | "not", item => not <$> ofJson item
      | _, _ => .error (.malformed node)
    else
      .error (.malformed node)

/-- The conditions that the items of an array stand for. -/
def ofItems : List Json → Except ConditionError (List (Condition String))
  | [] => .ok []
  | item :: items => do
    let c ← ofJson item
    let cs ← ofItems items
    return c :: cs

end

end Cascade.Condition
