import Cascade.Event
import Cascade.Toggle

/-!
# Stylesheets

The stylesheet that gives toggles their values. Its first rule sets the toggles
of every identifier to those of an inactive hook. Then every hook has a block,
in force where the hook applies, that sets its toggles to those of an active
one.

A hook that is listed twice has one block, and an identifier that two hooks share
is set once by the first rule.
-/

namespace Cascade

/-- How a stylesheet is laid out. -/
inductive Format where
  | minified
  | pretty
deriving DecidableEq, Inhabited

namespace Format

/-- The name of a format. -/
def name : Format → String
  | minified => "minified"
  | pretty => "pretty"

/-- All formats, in the order in which messages list them. -/
def all : List Format := [minified, pretty]

/-- What stands where one space may. -/
def space : Format → String
  | minified => ""
  | pretty => " "

/-- What ends a line. -/
def newline : Format → String
  | minified => ""
  | pretty => "\n"

/-- What a line is indented by. -/
def indent : Format → String
  | minified => ""
  | pretty => "  "

end Format

/-- Sets a toggle: to the empty value if `valid`, otherwise to no value. -/
structure Declaration where
  toggle : Toggle
  valid : Bool
deriving DecidableEq

namespace Declaration

/-- The declaration as text. -/
def text (format : Format) (d : Declaration) : String :=
  d.toggle.property ++ ":" ++ format.space ++ (if d.valid then "" else "initial") ++ ";"

/-- The declarations of both toggles of a hook in some state. -/
def pair (id : HookId) (active : Bool) : List Declaration :=
  [false, true].map fun on => ⟨⟨id, on⟩, Toggle.isValid ⟨id, on⟩ active⟩

end Declaration

/-- The identifiers that the first rule sets, and the hooks with a block of their
own. -/
structure Stylesheet where
  defaults : List HookId
  overrides : List (Hook × HookId)

namespace Stylesheet

/-- The elements whose key has not come before. -/
def firsts {α κ : Type} [DecidableEq κ] (key : α → κ) : List α → List α
  | [] => []
  | a :: as => a :: (firsts key as).filter fun b => key b ≠ key a

/-- The stylesheet of hooks with given identifiers. -/
def ofHooks (hooks : List (Hook × HookId)) : Stylesheet :=
  let distinct := firsts Prod.fst hooks
  { defaults := firsts id (distinct.map Prod.snd), overrides := distinct }

/-- A selector pattern for any element: every placeholder becomes `*`. -/
def universal (pattern : String) : String :=
  String.ofList (pattern.toList.map fun c => if c = Hook.placeholder then '*' else c)

/-- The lines of a pair of declarations, indented. -/
def pairLines (format : Format) (indent : String) (id : HookId) (active : Bool) : List String :=
  (Declaration.pair id active).map fun d => indent ++ d.text format

/-- The lines of the block of a hook. -/
def block (format : Format) : Hook × HookId → List String
  | (.selector pattern, id) =>
    (universal pattern ++ format.space ++ "\x7b") ::
      (pairLines format format.indent id true ++ ["\x7d"])
  | (.atRule rule body, id) =>
    ((Hook.atRule rule body).text ++ " \x7b") :: (format.indent ++ "* \x7b") ::
      (pairLines format (format.indent ++ format.indent) id true ++
        [format.indent ++ "\x7d", "\x7d"])

/-- Lines with line ends between them. -/
def lines (format : Format) (items : List String) : String :=
  String.intercalate format.newline items

/-- The text of a stylesheet. -/
def render (format : Format) (sheet : Stylesheet) : String :=
  "*" ++ format.space ++ "\x7b" ++ format.newline ++
    lines format (sheet.defaults.flatMap (pairLines format format.indent · false)) ++
    format.newline ++ "\x7d" ++ format.newline ++
    lines format (sheet.overrides.flatMap (block format))

/-- The event of writing a stylesheet. -/
def event (format : Format) (sheet : Stylesheet) : Event :=
  .stylesheetWritten sheet.overrides.length (sheet.render format).utf8ByteSize

end Stylesheet

end Cascade
