import Cascade.Json.Token

/-!
# Reading JSON

The reader goes through the tokens once and keeps the containers that are still
open on a stack. It has three states: a value has to come (`value`), a value has
just been read (`afterValue`), and a key has to come (`member`). Every step
takes a token, so each state recurses on a shorter text.

At most `limit` containers may be open at a time. When a key comes twice in an
object, the member stays where it was and gets the later value.
-/

namespace Cascade.Json

/-- A container that is still open. The items of an array are kept last first;
an object waits for the value of a key. -/
inductive Frame where
  | array (done : List Json)
  | object (done : List (String × Json)) (key : String)

mutual

/-- Reads a value and then whatever the open containers still need. -/
def value (limit : Nat) (stack : List Frame) (cs : List Char) : Option Json :=
  match _h : Token.next? cs with
  | some (.scalar v, rest) => afterValue limit v stack rest
  | some (.text s, rest) => afterValue limit (string s) stack rest
  | some (.openArray, rest) =>
    if stack.length < limit then
      match _h' : Token.next? rest with
      | some (.closeArray, rest') => afterValue limit (array []) stack rest'
      | _ => value limit (.array [] :: stack) rest
    else
      none
  | some (.openObject, rest) =>
    if stack.length < limit then
      match _h' : Token.next? rest with
      | some (.closeObject, rest') => afterValue limit (object []) stack rest'
      | _ => member limit [] stack rest
    else
      none
  | _ => none
termination_by cs.length
decreasing_by
  all_goals
    have := Token.next?_length _h
    try have := Token.next?_length _h'
    omega

/-- Gives the value just read to the innermost open container and goes on. With
none open only white space may follow. -/
def afterValue (limit : Nat) (v : Json) (stack : List Frame) (cs : List Char) : Option Json :=
  match stack with
  | [] => if cs.all isSpace then some v else none
  | .array done :: outer =>
    match _h : Token.next? cs with
    | some (.comma, rest) => value limit (.array (v :: done) :: outer) rest
    | some (.closeArray, rest) => afterValue limit (array (v :: done).reverse) outer rest
    | _ => none
  | .object done key :: outer =>
    match _h : Token.next? cs with
    | some (.comma, rest) => member limit (setMember key v done) outer rest
    | some (.closeObject, rest) => afterValue limit (object (setMember key v done)) outer rest
    | _ => none
termination_by cs.length
decreasing_by
  all_goals
    have := Token.next?_length _h
    omega

/-- Reads a key and a colon, and goes on to the value. -/
def member (limit : Nat) (done : List (String × Json)) (outer : List Frame) (cs : List Char) :
    Option Json :=
  match _h : Token.next? cs with
  | some (.text key, rest) =>
    match _h' : Token.next? rest with
    | some (.colon, rest') => value limit (.object done key :: outer) rest'
    | _ => none
  | _ => none
termination_by cs.length
decreasing_by
  all_goals
    have := Token.next?_length _h
    have := Token.next?_length _h'
    omega

end

/-- How many containers may be open at a time. -/
def nestingLimit : Nat := 127

/-- Reads a text that is one value with white space around it. -/
def read? (s : String) : Option Json := value nestingLimit [] s.toList

end Cascade.Json
