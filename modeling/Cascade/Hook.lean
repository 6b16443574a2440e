import Cascade.HookId
import Cascade.Text.Blank

/-!
# Hooks

A hook is a primitive condition that CSS can decide: a selector pattern, in
which `&` stands for the styled element, or an at-rule with its query.

A hook is identified by its exact text, white space included. `Hook.parse`
reads a hook from its text. The two constructors `ofPattern` and `ofQuery` take
the parts instead, and look at less: a pattern may start with `@`, and a query
may be empty.
-/

namespace Cascade

/-- The at-rules that a hook can be gated on. -/
inductive AtRule where
  | media
  | container
  | supports
deriving DecidableEq, Inhabited

namespace AtRule

/-- The keyword, without the `@`. -/
def keyword : AtRule → String
  | media => "media"
  | container => "container"
  | supports => "supports"

/-- All at-rules, in the order in which messages list them. -/
def all : List AtRule := [media, container, supports]

/-- The at-rule with this keyword; case matters. -/
def ofKeyword? (keyword : String) : Option AtRule :=
  all.find? fun rule => rule.keyword == keyword

@[simp] theorem ofKeyword?_keyword (rule : AtRule) : ofKeyword? rule.keyword = some rule := by
  cases rule <;> decide

end AtRule

/-- A selector pattern, or an at-rule with the text after its keyword. -/
inductive Hook where
  | selector (pattern : String)
  | atRule (rule : AtRule) (body : String)
deriving DecidableEq, Inhabited

namespace Hook

/-- The character that stands for the styled element. -/
def placeholder : Char := '&'

/-- Why a text is no hook. -/
inductive Fault where
  | noPlaceholder (pattern : String)
  | unsupported (keyword : String)
  | noQuery (text : String)
deriving DecidableEq

/-- What is wrong, in words. -/
def Fault.message : Fault → String
  | noPlaceholder pattern =>
    "selector hook '" ++ pattern ++ "' must contain the '" ++ placeholder.toString ++
      "' placeholder"
  | unsupported keyword =>
    "unsupported at-rule '@" ++ keyword ++ "'; expected @media, @container or @supports"
  | noQuery text => "at-rule hook '" ++ text ++ "' has no query"

/-- The text of a hook, which is its identity. -/
def text : Hook → String
  | selector pattern => pattern
  | atRule rule body => "@" ++ rule.keyword ++ body

/-- A selector hook; the pattern has to mention the styled element. -/
def ofPattern (pattern : String) : Except Fault Hook :=
  if placeholder ∈ pattern.toList then .ok (selector pattern)
  else .error (.noPlaceholder pattern)

/-- An at-rule hook with one space between keyword and query. -/
def ofQuery (rule : AtRule) (query : String) : Hook :=
  atRule rule (" " ++ query)

/-- The characters that a keyword after `@` runs over. -/
def isKeywordChar (c : Char) : Bool := c.isAlphanum || c == '-'

/-- Reads a hook from its text. What follows the keyword of an at-rule is kept
as it stands, but must not be all white space. -/
def parse (s : String) : Except Fault Hook :=
  match s.toList with
  | '@' :: rest =>
    let keyword := String.ofList (rest.takeWhile isKeywordChar)
    let body := rest.dropWhile isKeywordChar
    match AtRule.ofKeyword? keyword with
    | none => .error (.unsupported keyword)
    | some rule =>
      if body.all Text.isBlank then .error (.noQuery s)
      else .ok (atRule rule (String.ofList body))
  | _ => ofPattern s

/-- The query of an at-rule, without the white space around it. -/
def query? : Hook → Option String
  | selector _ => none
  | atRule _ body => some (String.ofList (Text.trim body.toList))

/-- The identifier of a hook. -/
def id (hook : Hook) : HookId := HookId.ofText hook.text

/-- Whether one hook comes before another: by identifier, then by text. -/
def idLE (a b : Hook) : Bool :=
  a.id.text < b.id.text || (a.id == b.id && a.text ≤ b.text)

/-- The hooks in the order of their identifiers, those with one identifier in
the order of their texts. -/
def sortById (hooks : List Hook) : List Hook :=
  hooks.mergeSort idLE

end Hook

end Cascade
