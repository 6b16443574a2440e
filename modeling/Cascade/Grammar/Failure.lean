import Cascade.Hook

/-!
# Where reading stops

A failure says where in the text reading stopped, what could have stood there,
and for the text of a hook also what is wrong with it. `Failure.render` shows it
together with the text: the whole text when it is one line, and otherwise the
line in question with its number and column.
-/

namespace Cascade.Grammar

/-- The things a text can be expected to have at some place. -/
inductive Expected where
  | condition
  | hookName
  | hook
  | conditionName
  | conditionBody
deriving DecidableEq

/-- The thing in words. -/
def Expected.text : Expected → String
  | condition => "condition"
  | hookName => "hook name"
  | hook => "selector or at-rule"
  | conditionName => "condition name"
  | conditionBody => "condition body"

/-- A place, given as the text that is left there, with what was expected,
innermost first, and with the fault of the hook that stands there. -/
structure Failure where
  rest : List Char
  expected : List Expected
  fault : Option Hook.Fault
deriving DecidableEq

/-- A line and a column, both counted from one. -/
structure Place where
  line : Nat
  column : Nat
deriving DecidableEq

/-- What follows the last line feed. -/
def lastLine (cs : List Char) : List Char :=
  (cs.reverse.takeWhile (· != '\n')).reverse

/-- The number of bytes of a text. -/
def byteCount (cs : List Char) : Nat :=
  cs.foldr (fun c n => c.utf8Size + n) 0

/-- The place between two parts of a text. Columns count characters, except in
front of a character of more than one byte: there they count bytes. The end of
the text is one column behind its last character, on the line of that character
even if that is a line feed. -/
def Place.between (before after : List Char) : Place :=
  match after with
  | [] =>
    { line := before.dropLast.count '\n' + 1
      column := (lastLine before.dropLast).length + 2 }
  | c :: _ =>
    { line := before.count '\n' + 1
      column :=
        (if c.utf8Size = 1 then (lastLine before).length else byteCount (lastLine before)) + 1 }

/-- Some spaces. -/
def spaces (n : Nat) : String := String.ofList (List.replicate n ' ')

/-- The text with a mark under the place; a text of several lines is shown by
the line of the place. -/
def pointAt (before after : List Char) : String :=
  let input := before ++ after
  if '\n' ∈ input then
    let place := Place.between before after
    let number := place.line.repr
    let margin := spaces number.length ++ " |"
    let line := (input.splitOn '\n')[place.line - 1]?.getD []
    "parse error at line " ++ number ++ ", column " ++ place.column.repr ++ "\n" ++
      margin ++ "\n" ++
      number ++ " | " ++ String.ofList line ++ "\n" ++
      margin ++ " " ++ spaces (place.column - 1) ++ "^\n"
  else
    String.ofList input ++ "\n" ++ spaces (byteCount before) ++ "^\n"

namespace Failure

/-- Adds to what was expected, from further outside. -/
def expecting (what : Expected) (failure : Failure) : Failure :=
  { failure with expected := failure.expected ++ [what] }

/-- What was expected, and the fault of a hook on a line of its own. -/
def explanation (failure : Failure) : String :=
  let expected :=
    match failure.expected with
    | [] => ""
    | expected => "expected " ++ String.intercalate ", " (expected.map Expected.text)
  match failure.fault with
  | none => expected
  | some fault =>
    (if expected.isEmpty then "" else expected ++ "\n") ++ "parse error: " ++ fault.message

/-- The failure shown in the text it belongs to. -/
def render (input : List Char) (failure : Failure) : String :=
  pointAt (input.take (input.length - failure.rest.length)) failure.rest ++ failure.explanation

end Failure

end Cascade.Grammar
