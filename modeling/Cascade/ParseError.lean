import Cascade.Grammar.Sheet

/-!
# Errors of reading

Why a text is no hook, no condition or no sheet.
-/

namespace Cascade

/-- Why a text cannot be read. In JSON a sheet and its two parts have to be
objects, and hooks have to be strings. -/
inductive ParseError where
  | hook (fault : Hook.Fault)
  | text (input : String) (failure : Grammar.Failure)
  | notObject (part : String)
  | notText (name : String)
deriving DecidableEq

/-- What is wrong, in words. -/
def ParseError.message : ParseError → String
  | hook fault => "parse error: " ++ fault.message
  | text input failure => "parse error: " ++ failure.render input.toList
  | notObject part => "parse error: " ++ part ++ " must be a JSON object"
  | notText name =>
    "parse error: hook '" ++ name ++ "' must be a selector or at-rule string"

/-- Reads a condition. -/
def Condition.parse (s : String) : Except ParseError (Condition String) :=
  (Grammar.condition s.toList).mapError (.text s)

/-- Reads the definitions of a sheet. -/
def Draft.parse (s : String) : Except ParseError Draft :=
  (Grammar.sheet s.toList).mapError (.text s)

end Cascade
