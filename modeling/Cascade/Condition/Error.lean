import Cascade.Json.Basic

/-!
# Errors about conditions
-/

namespace Cascade

/-- What can be wrong with a condition, its name or the names it refers to. -/
inductive ConditionError where
  | unknownHook (condition hook : String)
  | unknownCondition (condition reference : String)
  | invalidName (name : String)
  | duplicateName (name : String)
  | undefinedName (name : String)
  | malformed (node : Json)

/-- What is wrong, in words. -/
def ConditionError.message : ConditionError → String
  | unknownHook condition hook =>
    "invalid condition: unknown hook '" ++ hook ++ "' in condition '" ++ condition ++ "'"
  | unknownCondition condition reference =>
    "invalid condition: unknown condition '" ++ reference ++ "' in local condition '" ++
      condition ++ "'"
  | invalidName name =>
    "invalid condition name '" ++ name ++
      "': must start with a letter and contain only letters and digits"
  | duplicateName name => "duplicate condition name '" ++ name ++ "'"
  | undefinedName name => "undefined condition '" ++ name ++ "'"
  | malformed node => "invalid condition: " ++ node.compact

end Cascade
