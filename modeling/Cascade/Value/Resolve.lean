import Cascade.Logged
import Cascade.Text.Blank
import Cascade.Toggle
import Cascade.Value.Scan

/-!
# Resolving `var()`

`Value.resolve` computes what the cascade makes of a declaration value, given
which hooks are active. A call whose property is a valid toggle contributes
nothing; any other property is taken to be unset, so its call contributes the
fallback, in which calls are resolved in turn. White space in the result is
squeezed.

The fallback of a valid toggle is not looked at. `Value.asked` lists the hooks
whose state was asked for, in order.
-/

namespace Cascade

/-- Why a declaration value has no result. -/
inductive ResolveError where
  | unbalanced (expression : String)
  | missingProperty (arguments : String)
  | unresolved (property : String)
deriving DecidableEq

/-- What is wrong, in words. -/
def ResolveError.message : ResolveError → String
  | unbalanced expression => "unbalanced parentheses in '" ++ expression ++ "'"
  | missingProperty arguments =>
    "var() without a custom property: 'var(" ++ arguments ++ ")'"
  | unresolved property => "'" ++ property ++ "' is invalid and has no fallback"

namespace Value

/-- The arguments of `var()`: the property without white space around it, and
whatever follows the first comma. -/
structure Call where
  property : List Char
  fallback : Option (List Char)

namespace Call

/-- Cuts the arguments at the first comma outside parentheses and quotes. -/
def ofArguments (arguments : List Char) : Call :=
  match cutAt ',' arguments with
  | none => ⟨Text.trim arguments, none⟩
  | some (property, fallback) => ⟨Text.trim property, some fallback⟩

/-- Whether the property is that of a custom property: two hyphens and at least
one more character. -/
def hasProperty (call : Call) : Bool :=
  match call.property with
  | '-' :: '-' :: _ :: _ => true
  | _ => false

/-- Whether the property is a toggle that is valid now. -/
def isValid (isActive : HookId → Bool) (call : Call) : Logged HookId Bool :=
  match Toggle.ofProperty? call.property with
  | none => pure false
  | some toggle => do return toggle.isValid (← Logged.ask isActive toggle.id)

theorem length_fallback {arguments fallback : List Char}
    (h : (ofArguments arguments).fallback = some fallback) :
    fallback.length < arguments.length := by
  unfold ofArguments at h
  split at h
  · simp at h
  · next hc =>
    have := congrArg List.length (cutAt_eq_some hc)
    simp at h this
    subst h
    omega

end Call

/-- A resolution: it asks about hooks, and may fail. -/
abbrev Resolution : Type → Type := ExceptT ResolveError (Logged HookId)

mutual

/-- Resolves the calls in `cs`. The text that a missing parenthesis is reported
with is `whole`, of which `cs` is the part not yet read. -/
def substitute (isActive : HookId → Bool) (whole cs : List Char) : Resolution (List Char) :=
  match _h : cutCall cs with
  | none => pure cs
  | some (before, after) =>
    match _h' : cutAt ')' after with
    | none => throw (.unbalanced (String.ofList whole))
    | some (arguments, rest) => do
      let value ← resolveCall isActive arguments
      let values ← substitute isActive whole rest
      return before ++ value ++ values
termination_by cs.length
decreasing_by
  all_goals
    have h₁ := congrArg List.length (cutCall_eq_some _h)
    have h₂ := congrArg List.length (cutAt_eq_some _h')
    simp only [List.length_append, List.length_cons] at h₁ h₂
    omega

/-- Resolves a call, given the text between its parentheses. -/
def resolveCall (isActive : HookId → Bool) (arguments : List Char) : Resolution (List Char) :=
  let call := Call.ofArguments arguments
  if call.hasProperty then do
    if ← call.isValid isActive then
      return []
    else
      match _h : (Call.ofArguments arguments).fallback with
      | some fallback => substitute isActive fallback fallback
      | none => throw (.unresolved (String.ofList call.property))
  else
    throw (.missingProperty (String.ofList arguments))
termination_by arguments.length
decreasing_by exact Call.length_fallback _h

end

/-- Resolves a declaration value and squeezes the white space of the result. -/
def resolution (isActive : HookId → Bool) (expression : String) : Resolution String := do
  let resolved ← substitute isActive expression.toList expression.toList
  return String.ofList (Text.squeeze resolved)

/-- The result of a declaration value. -/
def resolve (isActive : HookId → Bool) (expression : String) : Except ResolveError String :=
  (resolution isActive expression).run.value

/-- The hooks whose state is asked for on the way to the result, in order. -/
def asked (isActive : HookId → Bool) (expression : String) : List HookId :=
  (resolution isActive expression).run.log

end Value

end Cascade
