import Cascade.HookId

/-!
# Toggles

A hook shows its state in two custom properties. While the hook is active the
first, `--<id>-0`, is empty and the second, `--<id>-1`, is invalid; otherwise it
is the other way round. A property that is invalid takes the fallback of the
`var()` that refers to it, an empty one does not.
-/

namespace Cascade

/-- One of the two properties of a hook: the second if `on`. -/
structure Toggle where
  id : HookId
  on : Bool
deriving DecidableEq

namespace Toggle

/-- The name of the property. -/
def property (toggle : Toggle) : String :=
  "--" ++ toggle.id.text ++ (if toggle.on then "-1" else "-0")

/-- Whether the property is empty, and so valid, given the state of its hook. -/
def isValid (toggle : Toggle) (active : Bool) : Bool :=
  active != toggle.on

/-- The identifier in what remains of a property without its last two
characters. -/
def idOfStem? : List Char → Option HookId
  | '-' :: '-' :: id =>
    match id.getLast? with
    | none => none
    | some '-' => none
    | some _ => some ⟨String.ofList id⟩
  | _ => none

/-- The toggle with this property. Its identifier is not empty and does not end
in a hyphen. -/
def ofProperty? (property : List Char) : Option Toggle :=
  match property.reverse with
  | '0' :: '-' :: stem => (idOfStem? stem.reverse).map fun id => ⟨id, false⟩
  | '1' :: '-' :: stem => (idOfStem? stem.reverse).map fun id => ⟨id, true⟩
  | _ => none

end Toggle

namespace HookId

/-- The property that is empty while the hook is active. -/
def off (id : HookId) : String := Toggle.property ⟨id, false⟩

/-- The property that is empty while the hook is not active. -/
def on (id : HookId) : String := Toggle.property ⟨id, true⟩

end HookId

end Cascade
