import Cascade.Hook

/-!
# Events

What building and writing report on the side. Every event has a text, and is
either a step or a detail. A build that goes through a list reports the events
of everything before the first entry that fails.
-/

namespace Cascade

/-- Whether an event is a step or a detail. -/
inductive Verbosity where
  | debug
  | trace
deriving DecidableEq

/-- Something worth reporting. -/
inductive Event where
  | hookRegistered (name : String) (hook : Hook)
  | conditionsBuilt (count : Nat)
  | parentKept (name : String)
  | stylesheetWritten (hooks bytes : Nat)
deriving DecidableEq

namespace Event

/-- Writing a stylesheet is a detail, and the other events are steps. -/
def verbosity : Event → Verbosity
  | stylesheetWritten .. => .trace
  | _ => .debug

/-- The text of an event. -/
def text : Event → String
  | hookRegistered name hook =>
    "hook '" ++ name ++ "' (" ++ hook.text ++ ") -> " ++ hook.id.text
  | conditionsBuilt count => "built " ++ count.repr ++ " conditions"
  | parentKept name =>
    "local condition '" ++ name ++ "' resolves to the parent condition of the same name"
  | stylesheetWritten hooks bytes =>
    "emitted " ++ hooks.repr ++ " hooks in " ++ bytes.repr ++ " bytes of css"

/-- The events of the steps that succeed, up to the first that fails. -/
def along {ε σ α : Type} (step : σ → α → Except ε σ) (events : σ → α → List Event) (s : σ) :
    List α → List Event
  | [] => []
  | a :: as =>
    match step s a with
    | .error _ => []
    | .ok next => events s a ++ along step events next as

end Event

end Cascade
