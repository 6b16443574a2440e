import Cascade.Proofs.Condition.RoundTrip

/-!
# Definitions, one a line

A definition is written on a line of its own. The name of a hook and the leaves of
a condition are literals there, so that they can be any text, and the text of a
hook is the rest of the line.

There are three groups.

* Lines. `Definition.line` is the line of a definition, `Definition.Writable` says
  what keeps it from being read as something else, and `Lists` is a text with lines
  and with blanks between them.
* One line. A hook ends where its line does. A condition ends where no operator
  follows, and none does if a definition comes next.
* The whole sheet, which is read as the definitions on its lines
  (`sheet_of_lists`).
-/

namespace Cascade

/-- A definition in a sheet. -/
inductive Definition where
  | hook (name : String) (value : Hook)
  | condition (name : String) (tree : Condition String)

namespace Grammar

/-! ## Literals -/

/-- What stands for a character in a literal. -/
def escape (c : Char) : List Char := if c = '"' ∨ c = '\\' then ['\\', c] else [c]

/-- The literal for a text. -/
def quote (s : String) : String := String.ofList ('"' :: s.toList.flatMap escape ++ ['"'])

theorem escaped_flatMap (cs : List Char) : Escaped (cs.flatMap escape) cs := by
  induction cs with
  | nil => exact .nil
  | cons c cs ih =>
    rw [List.flatMap_cons, escape]
    split
    · next hc => exact .escape hc ih
    · next hc =>
      rw [not_or] at hc
      exact .plain hc.1 hc.2 ih

theorem starts_quote (s : String) (rest : List Char) :
    Starts ((quote s).toList ++ rest) (.literal s) rest := by
  have hbody : Starts ('"' :: s.toList.flatMap escape ++ '"' :: rest)
      (.literal (String.ofList s.toList)) rest := .literal (escaped_flatMap s.toList)
  simpa [quote] using hbody

theorem writes_quote (s : String) : Writes Primary (quote s).toList (.leaf s) :=
  ⟨[.literal s], .literal, by simp, fun _ => takes_cons (starts_quote s _) .nil⟩

end Grammar

/-! ## Lines -/

namespace Definition

/-- The word that a definition starts with. -/
def word : Definition → String
  | hook _ _ => "hook"
  | condition _ _ => "condition"

/-- What is defined, and as what. -/
def body : Definition → String
  | hook name value => Grammar.quote name ++ ": " ++ value.text
  | condition name tree => name ++ ": " ++ tree.render Grammar.quote

/-- The line of a definition. -/
def line (d : Definition) : String := d.word ++ " " ++ d.body

/-- The text of a hook has to be that of the hook and to take up the rest of its
line, with nothing to be trimmed. A condition has to have an identifier as its
name. -/
def Writable : Definition → Prop
  | hook _ value =>
    Hook.parse value.text = .ok value ∧ (∀ c ∈ value.text.toList, c ≠ '\r' ∧ c ≠ '\n') ∧
      (∀ c ∈ value.text.toList.head?, c ≠ ' ' ∧ c ≠ '\t') ∧
      ∀ c ∈ value.text.toList.getLast?, Text.isBlank c = false
  | condition name _ => Grammar.isIdentifier name = true

/-- Replaces every node with one item by that item. -/
def collapse : Definition → Definition
  | hook name value => hook name value
  | condition name tree => condition name tree.collapse

/-- Puts a definition in front of those of a draft. -/
def addTo : Definition → Draft → Draft
  | hook name value => Draft.consHook name value
  | condition name tree => Draft.consCondition name tree

end Definition

/-- The draft with the given definitions. -/
def Draft.ofDefinitions (ds : List Definition) : Draft := ds.foldr Definition.addTo .empty

namespace Grammar

/-- A text of definitions, each on a line of its own, with blanks between them and
around them. -/
inductive Lists : List Char → List Definition → Prop where
  | nil {cs : List Char} (hblank : skipBlanks cs = []) : Lists cs []
  | cons {cs rest : List Char} {d : Definition} {ds : List Definition}
      (hline : skipBlanks cs = d.line.toList ++ rest) (hend : LineEnd rest)
      (tail : Lists rest ds) : Lists cs (d :: ds)

/-! ## One line -/

/-- A line starts with the word of its definition. -/
theorem starts_line (d : Definition) (rest : List Char) :
    Starts (d.line.toList ++ rest) (.word d.word) (' ' :: (d.body.toList ++ rest)) := by
  have hword : isIdentifier d.word = true := by
    cases d with
    | hook => exact (by decide : isIdentifier "hook" = true)
    | condition => exact (by decide : isIdentifier "condition" = true)
  have hline : d.line.toList ++ rest = d.word.toList ++ ' ' :: (d.body.toList ++ rest) := by
    simp [Definition.line]
  rw [hline]
  exact starts_identifier hword (by simp)

theorem ofWord_word (d : Definition) : Token.ofWord d.word = .operand (.leaf d.word) := by
  cases d <;> rfl

/-- No operator comes before a definition, or at the end. -/
theorem Lists.final {cs : List Char} {ds : List Definition} (h : Lists cs ds) : Final cs := by
  cases h with
  | nil hblank => exact final_of_blank hblank
  | @cons _ rest d _ hline _ _ =>
    have hstart := starts_line d rest
    rw [← hline] at hstart
    have hnext := hstart.next?
    rw [Lexeme.token, ofWord_word] at hnext
    exact final_of_operand hnext

theorem colon_colon (cs : List Char) : colon (':' :: cs) = .ok cs := by
  rw [colon, skipBlanks_eq_self rfl (by decide)]
  rfl

/-- A lexeme behind one blank is found. -/
theorem Starts.skipBlanks_blank {cs rest : List Char} {l : Lexeme} (h : Starts cs l rest) :
    Starts (Grammar.skipBlanks (' ' :: cs)) l rest := by
  rw [skipBlanks_space List.mem_cons_self, h.skipBlanks]
  exact h

theorem LineEnd.isInLine_head {cs : List Char} (h : LineEnd cs) :
    ∀ c ∈ cs.head?, isInLine c = false := by
  cases h <;> simp [isInLine]

/-- The text of a hook is the rest of its line. -/
theorem hookText_append {hook : Hook} {text rest : List Char}
    (hparse : Hook.parse (String.ofList text) = .ok hook)
    (hline : ∀ c ∈ text, c ≠ '\r' ∧ c ≠ '\n')
    (hlast : ∀ c ∈ text.getLast?, Text.isBlank c = false) (hend : LineEnd rest) :
    hookText (text ++ rest) = .ok (hook, rest) := by
  have hrun : ∀ c ∈ text, isInLine c = true := by simpa [isInLine] using hline
  obtain ⟨htake, hdrop⟩ := takeWhile_dropWhile_run hrun hend.isInLine_head
  simp only [hookText, htake, hdrop, atLineEnd_iff.2 hend, if_true, Text.trimEnd_eq_self hlast,
    hparse]

/-- The blank before the text of a hook is left out, and nothing else is. -/
theorem dropWhile_blank_append {text rest : List Char}
    (hfirst : ∀ c ∈ text.head?, c ≠ ' ' ∧ c ≠ '\t') (hend : LineEnd rest) :
    (' ' :: (text ++ rest)).dropWhile (fun c => c == ' ' || c == '\t') = text ++ rest := by
  rw [List.dropWhile_cons_of_pos (by simp)]
  apply Text.dropWhile_eq_self
  cases text with
  | nil => cases hend <;> simp
  | cons c text => simpa using hfirst

theorem hookDefinition_line {name : String} {hook : Hook} {rest : List Char}
    (h : (Definition.hook name hook).Writable) (hend : LineEnd rest) :
    hookDefinition (' ' :: ((Definition.hook name hook).body.toList ++ rest)) =
      .ok ((name, hook), rest) := by
  obtain ⟨hparse, hline, hfirst, hlast⟩ := h
  have hbody : (Definition.hook name hook).body.toList ++ rest =
      (quote name).toList ++ ':' :: ' ' :: (hook.text.toList ++ rest) := by
    simp [Definition.body]
  have hname := (starts_quote name (':' :: ' ' :: (hook.text.toList ++ rest))).skipBlanks_blank
  rw [← String.ofList_toList (s := hook.text)] at hparse
  have htext := hookText_append hparse hline hlast hend
  simp only [hbody, hookDefinition, hookName?, hname.literal?, Option.or, orFail, bind, Except.bind,
    colon_colon, dropWhile_blank_append hfirst hend, htext]
  rfl

theorem conditionDefinition_line {name : String} {tree : Condition String} {rest : List Char}
    (h : (Definition.condition name tree).Writable) (hend : LineEnd rest) (hfinal : Final rest) :
    conditionDefinition (' ' :: ((Definition.condition name tree).body.toList ++ rest)) =
      .ok ((name, tree.collapse), rest) := by
  have hbody : (Definition.condition name tree).body.toList ++ rest =
      name.toList ++ ':' :: ' ' :: ((tree.render quote).toList ++ rest) := by
    simp [Definition.body]
  have hname : Starts (name.toList ++ ':' :: ' ' :: ((tree.render quote).toList ++ rest))
      (.word name) (':' :: ' ' :: ((tree.render quote).toList ++ rest)) :=
    starts_identifier h (by simp)
  have hstop : ∀ c ∈ rest.head?, c.isAlphanum = false := by cases hend <;> simp
  obtain ⟨ls, hls, hne, htakes⟩ := (Condition.writes_render fun a _ => writes_quote a).disjunction
  have htree : expression (' ' :: ((tree.render quote).toList ++ rest)) =
      .ok (tree.collapse, rest) :=
    expression_of_disjunction (takes_blank hne (htakes hstop)) hls hfinal
  simp only [hbody, conditionDefinition, hname.skipBlanks_blank.identifier?, orFail, bind,
    Except.bind, colon_colon, htree]
  rfl

/-! ## The whole sheet -/

theorem definitions_eq (cs : List Char) :
    definitions cs =
      match identifier? (skipBlanks cs) with
      | some ("hook", rest) =>
        match hookDefinition rest with
        | .error failure => .error failure
        | .ok ((name, hook), rest) =>
          (definitions rest).map fun (draft, rest) => (draft.consHook name hook, rest)
      | some ("condition", rest) =>
        match conditionDefinition rest with
        | .error failure => .error failure
        | .ok ((name, c), rest) =>
          (definitions rest).map fun (draft, rest) => (draft.consCondition name c, rest)
      | _ => .ok (.empty, cs) := by
  rw [definitions]
  split
  · split <;> simp_all
  · split <;> simp_all
  · simp_all

/-- One line is read as its definition, and reading goes on behind it. -/
theorem definitions_line {cs rest : List Char} {d : Definition} (h : d.Writable)
    (hline : skipBlanks cs = d.line.toList ++ rest) (hend : LineEnd rest) (hfinal : Final rest) :
    definitions cs =
      (definitions rest).map fun (draft, rest) => (d.collapse.addTo draft, rest) := by
  rw [definitions_eq, hline, (starts_line d rest).identifier?]
  cases d with
  | hook name hook =>
    simp only [Definition.word, hookDefinition_line h hend]
    rfl
  | condition name tree =>
    simp only [Definition.word, conditionDefinition_line h hend hfinal]
    rfl

/-- All lines are read, and only blanks are left. -/
theorem definitions_of_lists {cs : List Char} {ds : List Definition} (h : Lists cs ds)
    (hds : ∀ d ∈ ds, d.Writable) :
    ∃ rest, definitions cs = .ok (Draft.ofDefinitions (ds.map Definition.collapse), rest) ∧
      skipBlanks rest = [] := by
  induction h with
  | @nil cs hblank =>
    refine ⟨cs, ?_, hblank⟩
    rw [definitions_eq, hblank]
    rfl
  | cons hline hend tail ih =>
    rw [List.forall_mem_cons] at hds
    obtain ⟨last, hread, hblank⟩ := ih hds.2
    refine ⟨last, ?_, hblank⟩
    -- A condition does not end with its line, so it matters what the other lines start with.
    rw [definitions_line hds.1 hline hend tail.final, hread]
    rfl

/-- A sheet is read as the definitions on its lines, with every node that has one
item replaced by the item. -/
theorem sheet_of_lists {cs : List Char} {ds : List Definition} (h : Lists cs ds)
    (hds : ∀ d ∈ ds, d.Writable) :
    sheet cs = .ok (Draft.ofDefinitions (ds.map Definition.collapse)) := by
  obtain ⟨rest, hread, hblank⟩ := definitions_of_lists h hds
  rw [sheet, hread]
  show finish _ rest = _
  rw [finish, hblank]

end Grammar

end Cascade
