import Cascade.Json.Number
import Cascade.Text.Quoted

/-!
# JSON values

An object is the list of its members in the order in which they were written.
`Json.compact` writes a value without any white space.
-/

namespace Cascade

/-- A JSON value. -/
inductive Json where
  | null
  | bool (value : Bool)
  | number (value : Json.Number)
  | string (value : String)
  | array (items : List Json)
  | object (members : List (String × Json))
deriving Inhabited

namespace Json

/-- Sets a member: in place if the key is there already, at the end if not. -/
def setMember (key : String) (value : Json) : List (String × Json) → List (String × Json)
  | [] => [(key, value)]
  | member :: members =>
    if member.1 = key then (key, value) :: members
    else member :: setMember key value members

/-- The value of a member of an object. -/
def get? (key : String) : Json → Option Json
  | object members => members.lookup key
  | _ => none

/-- Whether this is `null`. -/
def isNull : Json → Bool
  | null => true
  | _ => false

/-- Items with commas between them. -/
def commaSeparated (items : List String) : String :=
  String.intercalate "," items

mutual

/-- The text of a value, without white space. -/
def compact : Json → String
  | null => "null"
  | bool true => "true"
  | bool false => "false"
  | number n => n.text
  | string s => Text.quoted s
  | array items => "[" ++ commaSeparated (compactItems items) ++ "]"
  | object members => "\x7b" ++ commaSeparated (compactMembers members) ++ "\x7d"

/-- The texts of the items of an array. -/
def compactItems : List Json → List String
  | [] => []
  | item :: items => item.compact :: compactItems items

/-- The texts of the members of an object. -/
def compactMembers : List (String × Json) → List String
  | [] => []
  | (key, value) :: members => (Text.quoted key ++ ":" ++ value.compact) :: compactMembers members

end

theorem compactItems_eq_map (items : List Json) : compactItems items = items.map compact := by
  induction items with
  | nil => rfl
  | cons item items ih => simp [compactItems, ih]

end Json

end Cascade
