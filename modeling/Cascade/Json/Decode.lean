import Cascade.Condition.Codec
import Cascade.ParseError
import Cascade.Stylesheet
import Cascade.Text.Legible

/-!
# Decoding JSON

The values of the library as JSON. Hooks and identifiers are strings. A value out
of a few, such as a format, is its name; it may also be an object with the name
as its only key and null as its value.
-/

namespace Cascade

/-- Why a JSON value does not stand for a value of some type. -/
inductive DecodeError where
  | wrongType (found : Json) (expected : String)
  | severalKeys
  | unknownChoice (name : String) (choices : List String)
  | hook (fault : Hook.Fault)
  | condition (error : ConditionError)

namespace Json

/-- What kind of value this is, in words. -/
def kind : Json → String
  | null => "null"
  | bool value => "boolean `" ++ (if value then "true" else "false") ++ "`"
  | number (.integer n) => "integer `" ++ n.repr ++ "`"
  | number (.float x) => "floating point `" ++ Number.floatText x ++ "`"
  | string s => "string " ++ Text.legible s
  | array _ => "sequence"
  | object _ => "map"

/-- A name in backquotes. -/
def backquoted (name : String) : String := "`" ++ name ++ "`"

/-- The names to choose from, in words. -/
def choicesText : List String → String
  | [a, b] => backquoted a ++ " or " ++ backquoted b
  | [a] => backquoted a
  | choices => "one of " ++ String.intercalate ", " (choices.map backquoted)

end Json

/-- What is wrong, in words. -/
def DecodeError.message : DecodeError → String
  | wrongType found expected => "invalid type: " ++ found.kind ++ ", expected " ++ expected
  | severalKeys => "invalid value: map, expected map with a single key"
  | unknownChoice name choices =>
    "unknown variant " ++ Json.backquoted name ++ ", expected " ++ Json.choicesText choices
  | hook fault => "parse error: " ++ fault.message
  | condition error => error.message

namespace Json

/-- A string. -/
def asText : Json → Except DecodeError String
  | string s => .ok s
  | other => .error (.wrongType other "a string")

/-- One of the values in a list, by its name. -/
def choose {α : Type} (name : α → String) (choices : List α) (chosen : String) :
    Except DecodeError α :=
  match choices.find? fun a => name a == chosen with
  | some a => .ok a
  | none => .error (.unknownChoice chosen (choices.map name))

/-- One of a few values. -/
def asChoice {α : Type} (name : α → String) (choices : List α) : Json → Except DecodeError α
  | string s => choose name choices s
  | object [(key, value)] => do
    let a ← choose name choices key
    if value.isNull then return a else throw (.wrongType value "unit")
  | object _ => .error .severalKeys
  | other => .error (.wrongType other "string or map")

/-- A hook, given by its text. -/
def asHook (v : Json) : Except DecodeError Hook := do
  (Hook.parse (← v.asText)).mapError .hook

/-- The identifier of a hook. -/
def asHookId (v : Json) : Except DecodeError HookId := do
  return ⟨← v.asText⟩

/-- An at-rule, given by its keyword. -/
def asAtRule : Json → Except DecodeError AtRule := asChoice AtRule.keyword AtRule.all

/-- A format, given by its name. -/
def asFormat : Json → Except DecodeError Format := asChoice Format.name Format.all

/-- A condition over texts. -/
def asCondition (v : Json) : Except DecodeError (Condition String) :=
  (Condition.ofJson v).mapError .condition

end Json

end Cascade
