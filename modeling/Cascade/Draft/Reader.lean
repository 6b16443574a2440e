import Cascade.Condition.Codec
import Cascade.Error
import Cascade.Json.Reader

/-!
# Reading drafts

A draft is written as text, or as a JSON object with the members `hooks` and
`conditions`, both of them objects and both optional. In JSON the hooks are read
before the conditions.
-/

namespace Cascade

namespace Draft

/-- The members of a part of a sheet; none if the part is missing. -/
def members (root : Json) (part : String) : Except Error (List (String × Json)) :=
  match root.get? part with
  | none => .ok []
  | some (.object members) => .ok members
  | some _ => .error (.parse (.notObject (Text.quoted part)))

/-- The hook under a name, given as a string. -/
def hookOfJson (member : String × Json) : Except Error (String × Hook) :=
  match member.2 with
  | .string text =>
    match Hook.parse text with
    | .ok hook => .ok (member.1, hook)
    | .error fault => .error (.parse (.hook fault))
  | _ => .error (.parse (.notText member.1))

/-- The condition under a name. -/
def conditionOfJson (member : String × Json) : Except Error (String × Condition String) :=
  match Condition.ofJson member.2 with
  | .ok c => .ok (member.1, c)
  | .error error => .error (.condition error)

/-- The draft that a JSON value stands for. -/
def ofJson (root : Json) : Except Error Draft :=
  match root with
  | .object _ => do
    let hooks ← (← members root "hooks").mapM hookOfJson
    let conditions ← (← members root "conditions").mapM conditionOfJson
    return ⟨hooks, conditions⟩
  | _ => .error (.parse (.notObject "sheet"))

/-- The draft in a text. -/
def ofText (s : String) : Except Error Draft :=
  (Draft.parse s).mapError .parse

/-- The draft in a text in JSON. -/
def ofJsonText (s : String) : Except Error Draft :=
  match Json.read? s with
  | some root => ofJson root
  | none => .error .json

/-- The draft in the text of a file, if there is one. -/
def ofFile (bytes : Option ByteArray) : Except Error Draft :=
  match bytes with
  | none => .error (.file .notFound)
  | some bytes =>
    match String.fromUTF8? bytes with
    | some s => ofText s
    | none => .error (.file .invalidData)

end Draft

end Cascade
