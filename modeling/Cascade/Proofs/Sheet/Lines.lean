import Cascade.Proofs.Hook
import Cascade.Proofs.Sheet.Notations

/-!
# Sheets written line by line

A sheet is written one definition a line, with any lines between them that are
blank or that are comments. It is read as the hooks and the conditions on its
lines, both in order, and nothing else has a part in it.

* `SheetLine` is what stands on a line, and `SheetLine.Writable` what keeps the line
  from being read as something else.
* One line. Whatever is behind a line, the line adds its definition, if it has one
  (`lists_line`).
* All lines, by induction (`lists_of_lines`), and what they are read as.
-/

namespace Cascade

/-! ## What stands on a line -/

/-- A line of a sheet: a hook with the text it is given by, a condition, blanks, or
a comment. -/
inductive SheetLine where
  | hook (name text : String)
  | condition (name : String) (tree : Condition String)
  | blank (space : String)
  | comment (words : String)

namespace SheetLine

/-- The text of a line. -/
def text : SheetLine → String
  | hook name text => "hook " ++ Grammar.quote name ++ ": " ++ text
  | condition name tree => "condition " ++ name ++ ": " ++ tree.render Grammar.quote
  | blank space => space
  | comment words => "#" ++ words

/-- The text of a hook has to be that of some hook and to take up the rest of its
line, with nothing to be trimmed. A condition has to have an identifier as its
name. Blanks are ASCII white space, and a comment has no line end in it. -/
def Writable : SheetLine → Prop
  | hook _ text =>
    (∃ value, Hook.parse text = .ok value) ∧ (∀ c ∈ text.toList, c ≠ '\r' ∧ c ≠ '\n') ∧
      (∀ c ∈ text.toList.head?, c ≠ ' ' ∧ c ≠ '\t') ∧
      ∀ c ∈ text.toList.getLast?, Text.isBlank c = false
  | condition name _ => Grammar.isIdentifier name = true
  | blank space => ∀ c ∈ space.toList, c ∈ [' ', '\t', '\x0c', '\r']
  | comment words => ∀ c ∈ words.toList, c ≠ '\r' ∧ c ≠ '\n'

/-- The hook that is defined on a line, with its name. -/
def hook? : SheetLine → Option (String × Hook)
  | hook name text => (Hook.parse text).toOption.map fun value => (name, value)
  | _ => none

/-- The condition that is defined on a line, with its name. A node with one item has
become that item. -/
def condition? : SheetLine → Option (String × Condition String)
  | condition name tree => some (name, tree.collapse)
  | _ => none

/-- The definition on a line. -/
def definition? : SheetLine → Option Definition
  | hook name text => (Hook.parse text).toOption.map (.hook name)
  | condition name tree => some (.condition name tree)
  | _ => none

end SheetLine

/-! ## One line -/

namespace Grammar

theorem skipBlanks_append {space : List Char}
    (h : ∀ c ∈ space, c ∈ [' ', '\t', '\x0c', '\r']) (cs : List Char) :
    skipBlanks (space ++ cs) = skipBlanks cs := by
  induction space with
  | nil => rfl
  | cons c space ih =>
    rw [List.forall_mem_cons] at h
    have hc : c ∈ [' ', '\t', '\n', '\x0c', '\r'] := by
      have := h.1
      grind
    rw [List.cons_append, skipBlanks_space hc, ih h.2]

/-- A line has its definition written on it, whatever comes on the lines behind. -/
theorem lists_line {l : SheetLine} (h : l.Writable) {rest : List Char} {ds : List Definition}
    (hend : LineEnd rest) (tail : Lists rest ds) :
    Lists (l.text.toList ++ rest) (l.definition?.toList ++ ds) := by
  cases l with
  | hook name text =>
    obtain ⟨⟨value, hvalue⟩, -⟩ := h
    have hdefinition : (SheetLine.hook name text).definition? = some (.hook name value) := by
      rw [SheetLine.definition?, hvalue]
      rfl
    have hline : (SheetLine.hook name text).text = (Definition.hook name value).line := by
      rw [SheetLine.text, Definition.line, Definition.word, Definition.body,
        Hook.text_eq_of_parse hvalue]
      simp [← String.toList_inj]
    rw [hdefinition, hline]
    exact .cons (starts_line _ rest).skipBlanks hend tail
  | condition name tree =>
    have hline : (SheetLine.condition name tree).text = (Definition.condition name tree).line := by
      rw [SheetLine.text, Definition.line, Definition.word, Definition.body]
      simp [← String.toList_inj]
    rw [hline]
    exact .cons (starts_line _ rest).skipBlanks hend tail
  | blank space => exact tail.congr (skipBlanks_append h rest)
  | comment words =>
    have hcomment := skipBlanks_comment h hend
    rw [List.cons_append] at hcomment
    exact tail.congr (by simpa [SheetLine.text] using hcomment)

/-! ## All lines -/

/-- All lines together have the definitions of each of them written on them, in
order. -/
theorem lists_of_lines {ls : List SheetLine} (h : ∀ l ∈ ls, l.Writable) {ending : List Char}
    (hend : LineEnd ending) (hblank : skipBlanks ending = []) :
    Lists ((String.intercalate "\n" (ls.map SheetLine.text)).toList ++ ending)
      (ls.filterMap SheetLine.definition?) := by
  induction ls with
  | nil => exact .nil hblank
  | cons l ls ih =>
    rw [List.forall_mem_cons] at h
    have hdefinitions : (l :: ls).filterMap SheetLine.definition? =
        l.definition?.toList ++ ls.filterMap SheetLine.definition? := by
      rw [List.filterMap_cons]
      cases l.definition? <;> rfl
    rw [hdefinitions]
    cases ls with
    | nil =>
      rw [List.map_singleton, String.intercalate_singleton]
      exact lists_line h.1 hend (.nil hblank)
    | cons next ls =>
      -- The line end between two lines is a blank to whatever is on the second.
      have htail := (ih h.2).congr (skipBlanks_space (c := '\n') (by simp) _)
      have := lists_line h.1 .feed htail
      rw [List.map_cons, List.map_cons, String.intercalate_cons_cons, ← List.map_cons]
      simpa using this

end Grammar

namespace SheetLine

theorem writable_definition {l : SheetLine} {d : Definition} (h : l.Writable)
    (hd : l.definition? = some d) : d.Writable := by
  cases l with
  | hook name text =>
    obtain ⟨⟨value, hvalue⟩, hline⟩ := h
    rw [definition?, hvalue] at hd
    cases hd
    have htext : value.text = text := Hook.text_eq_of_parse hvalue
    rw [Definition.Writable, htext]
    exact ⟨hvalue, hline⟩
  | condition name tree =>
    cases hd
    exact h
  | blank => cases hd
  | comment => cases hd

/-- The draft of the definitions has the hooks and the conditions of the lines. -/
theorem ofDefinitions_eq (ls : List SheetLine) :
    Draft.ofDefinitions ((ls.filterMap definition?).map Definition.collapse) =
      ⟨ls.filterMap hook?, ls.filterMap condition?⟩ := by
  induction ls with
  | nil => rfl
  | cons l ls ih =>
    cases l with
    | hook name text =>
      simp only [List.filterMap_cons, definition?, hook?, condition?]
      cases (Hook.parse text).toOption with
      | none => exact ih
      | some value =>
        show Draft.consHook name value (Draft.ofDefinitions _) = _
        rw [ih]
        rfl
    | condition name tree =>
      simp only [List.filterMap_cons, definition?, hook?, condition?]
      show Draft.consCondition name tree.collapse (Draft.ofDefinitions _) = _
      rw [ih]
      rfl
    | blank => exact ih
    | comment => exact ih

end SheetLine

/-- A sheet of writable lines, whether or not there is a line end behind the last
one, is read as the hooks and the conditions on its lines, in order. -/
theorem Draft.parse_lines (ls : List SheetLine) (hls : ∀ l ∈ ls, l.Writable) (ending : String)
    (hending : ending = "" ∨ ending = "\n") :
    Draft.parse (String.intercalate "\n" (ls.map SheetLine.text) ++ ending) =
      .ok ⟨ls.filterMap SheetLine.hook?, ls.filterMap SheetLine.condition?⟩ := by
  have hwritable : ∀ d ∈ ls.filterMap SheetLine.definition?, d.Writable := by
    intro d hd
    obtain ⟨l, hl, hdefinition⟩ := List.mem_filterMap.1 hd
    exact SheetLine.writable_definition (hls l hl) hdefinition
  have hblank : Grammar.LineEnd ending.toList ∧ Grammar.skipBlanks ending.toList = [] := by
    rcases hending with rfl | rfl
    · exact ⟨.text, rfl⟩
    · exact ⟨.feed, rfl⟩
  have hlists := Grammar.lists_of_lines hls hblank.1 hblank.2
  rw [Draft.parse, String.toList_append, Grammar.sheet_of_lists hlists hwritable,
    SheetLine.ofDefinitions_eq]
  rfl

/-- A condition that is named by the word for hooks, with a line end and quotes in a
leaf and a node of one item, a comment that reads like a hook, and hooks right
behind blanks and behind a condition. -/
theorem Draft.parse_lines_words :
    let ls : List SheetLine := [
      .comment " hook \"x\": &",
      .condition "hook" (.all [.any [.leaf "a\nOR \"b\\"], .not (.all [])]),
      .blank " \t\r",
      .hook "a\nOR \"b\\" "&:not(#x):hover",
      .comment "",
      .condition "NOT" (.leaf "condition"),
      .hook "" "@media print"]
    let text := "# hook \"x\": &\n" ++
      "condition hook: ((\"a\nOR \\\"b\\\\\") AND (NOT TRUE))\n" ++
      " \t\r\n" ++
      "hook \"a\nOR \\\"b\\\\\": &:not(#x):hover\n" ++
      "#\n" ++
      "condition NOT: \"condition\"\n" ++
      "hook \"\": @media print"
    (∀ l ∈ ls, l.Writable) ∧ String.intercalate "\n" (ls.map SheetLine.text) = text ∧
    Draft.parse (text ++ "\n") =
      .ok ⟨[("a\nOR \"b\\", .selector "&:not(#x):hover"), ("", .atRule .media " print")],
        [("hook", .all [.leaf "a\nOR \"b\\", .not (.all [])]), ("NOT", .leaf "condition")]⟩ := by
  intro ls text
  have hls : ∀ l ∈ ls, l.Writable := by
    simp only [ls, List.forall_mem_cons]
    refine ⟨?_, rfl, ?_, ⟨⟨_, rfl⟩, ?_, ?_, ?_⟩, ?_, rfl, ⟨⟨_, rfl⟩, ?_, ?_, ?_⟩, nofun⟩ <;>
      simp [SheetLine.Writable, Text.isBlank, Text.blankRanges]
  have htext : String.intercalate "\n" (ls.map SheetLine.text) = text := by decide
  have hparse := Draft.parse_lines ls hls "\n" (.inr rfl)
  rw [htext] at hparse
  exact ⟨hls, htext, hparse⟩

end Cascade
