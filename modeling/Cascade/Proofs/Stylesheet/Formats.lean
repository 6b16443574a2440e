import Cascade.Proofs.Stylesheet.Layout
import Mathlib.Data.List.Forall2

/-!
# Stylesheets in both formats

The two formats write the same stylesheet with different layout. `Stylesheet.solid` is its
text without any, and in either format the text is the solid one with spaces and line ends
put in (`LaidOut`), and nothing else. Patterns and queries are kept as they are, also the
spaces and line ends that they have themselves. So the two texts are equal once all spaces
and line ends are taken out.

The relation goes along with putting texts in a row and lines below one another. It is
shown of a pair of declarations, of the lines of a block and of the whole stylesheet in
turn.
-/

namespace Cascade

namespace Format

/-! ## Layout -/

/-- Whether a character is a space or a line end. -/
def isLayout (c : Char) : Bool := c == ' ' || c == '\n'

/-- The text without spaces and line ends. -/
def bare (s : String) : String := String.ofList (s.toList.filter fun c => !isLayout c)

/-- The second list is the first with spaces and line ends put in. -/
inductive Spreads : List Char → List Char → Prop
  | nil : Spreads [] []
  | char (c : Char) {cs ds : List Char} (rest : Spreads cs ds) : Spreads (c :: cs) (c :: ds)
  | layout {c : Char} {cs ds : List Char} (hc : isLayout c = true) (rest : Spreads cs ds) :
      Spreads cs (c :: ds)

theorem Spreads.refl (cs : List Char) : Spreads cs cs := by
  induction cs with
  | nil => exact .nil
  | cons c cs ih => exact .char c ih

theorem Spreads.append {cs ds cs' ds' : List Char} (h : Spreads cs ds) (h' : Spreads cs' ds') :
    Spreads (cs ++ cs') (ds ++ ds') := by
  induction h with
  | nil => exact h'
  | char c _ ih => exact .char c ih
  | layout hc _ ih => exact .layout hc ih

theorem Spreads.filter_eq {cs ds : List Char} (h : Spreads cs ds) :
    cs.filter (fun c => !isLayout c) = ds.filter fun c => !isLayout c := by
  induction h with
  | nil => rfl
  | char c _ ih => rw [List.filter_cons, List.filter_cons, ih]
  | layout hc _ ih => rw [List.filter_cons_of_neg (by simp [hc]), ih]

/-- The second text is the first with layout. -/
def LaidOut (s t : String) : Prop := Spreads s.toList t.toList

variable {s t s' t' blank : String}

theorem LaidOut.refl (s : String) : LaidOut s s := Spreads.refl s.toList

theorem LaidOut.append (h : LaidOut s t) (h' : LaidOut s' t') : LaidOut (s ++ s') (t ++ t') := by
  unfold LaidOut
  rw [String.toList_append, String.toList_append]
  exact Spreads.append h h'

theorem LaidOut.before (h : LaidOut s t) (hblank : LaidOut "" blank) : LaidOut s (t ++ blank) := by
  simpa using h.append hblank

theorem LaidOut.after (h : LaidOut s t) (hblank : LaidOut "" blank) : LaidOut s (blank ++ t) := by
  simpa using hblank.append h

theorem LaidOut.bare_eq (h : LaidOut s t) : bare s = bare t :=
  congrArg String.ofList h.filter_eq

theorem laidOut_blank : LaidOut "" " " := .layout rfl .nil

theorem laidOut_space (format : Format) : LaidOut "" format.space := by
  cases format with
  | minified => exact .nil
  | pretty => exact laidOut_blank

theorem laidOut_newline (format : Format) : LaidOut "" format.newline := by
  cases format with
  | minified => exact .nil
  | pretty => exact .layout rfl .nil

theorem laidOut_indent (format : Format) : LaidOut "" format.indent := by
  cases format with
  | minified => exact .nil
  | pretty => exact .layout rfl (.layout rfl .nil)

end Format

namespace Stylesheet

open Format (LaidOut laidOut_blank laidOut_space laidOut_newline laidOut_indent)

/-! ## The text without layout -/

/-- The declarations of both toggles of a hook in some state. -/
def solidPair (id : HookId) (active : Bool) : List String :=
  ["--" ++ id.text ++ "-0:" ++ (if active then ";" else "initial;"),
    "--" ++ id.text ++ "-1:" ++ (if active then "initial;" else ";")]

/-- The parts of the block of a hook. -/
def solidBlock : Hook × HookId → List String
  | (.selector pattern, id) =>
    (pattern.map (fun c => if c = '&' then '*' else c) ++ "\x7b") ::
      (solidPair id true ++ ["\x7d"])
  | (.atRule rule body, id) =>
    ("@" ++ rule.keyword ++ body ++ "\x7b") :: "*\x7b" :: (solidPair id true ++ ["\x7d", "\x7d"])

/-- The text of a stylesheet without layout. -/
def solid (sheet : Stylesheet) : String :=
  "*\x7b" ++ String.join (sheet.defaults.flatMap (solidPair · false)) ++ "\x7d" ++
    String.join (sheet.overrides.flatMap solidBlock)

/-! ## The text in some format -/

variable (format : Format)

theorem laidOut_lines {items items' : List String} (h : List.Forall₂ LaidOut items items') :
    LaidOut (String.join items) (lines format items') := by
  unfold lines
  induction h with
  | nil => exact .refl ""
  | @cons item item' items items' hitem hitems ih =>
    rw [String.join_cons]
    cases hitems with
    | nil => simpa using hitem
    | cons hnext hrest =>
      rw [String.intercalate_cons_cons]
      exact (hitem.before (laidOut_newline format)).append ih

theorem laidOut_pairLines {indent : String} (hindent : LaidOut "" indent) (id : HookId)
    (active : Bool) :
    List.Forall₂ LaidOut (solidPair id active) (pairLines format indent id active) := by
  have hline (bit value : String) : LaidOut ("--" ++ id.text ++ bit ++ value)
      (indent ++ "--" ++ id.text ++ bit ++ format.space ++ value) := by
    have hname := (((LaidOut.refl "--").after hindent).append (.refl id.text)).append (.refl bit)
    exact (hname.before (laidOut_space format)).append (.refl value)
  rw [pairLines_eq]
  exact .cons (hline _ _) (.cons (hline _ _) .nil)

theorem laidOut_block (entry : Hook × HookId) :
    List.Forall₂ LaidOut (solidBlock entry) (block format entry) := by
  obtain ⟨hook, id⟩ := entry
  have hindent := laidOut_indent format
  have hend : LaidOut "\x7d" "\x7d" := .refl _
  cases hook with
  | selector pattern =>
    have hopen := ((LaidOut.refl (universal pattern)).before (laidOut_space format)).append
      (.refl "\x7b")
    have hpair := laidOut_pairLines format hindent id true
    rw [universal_eq_map] at hopen
    rw [solidBlock, block, universal_eq_map]
    exact .cons hopen (List.rel_append hpair (.cons hend .nil))
  | atRule rule body =>
    -- The spaces in front of the braces are there in both formats.
    have hbrace : LaidOut "\x7b" " \x7b" := (LaidOut.refl "\x7b").after laidOut_blank
    have hopen := (LaidOut.refl (Hook.atRule rule body).text).append hbrace
    have hinner := ((LaidOut.refl "*").append hbrace).after hindent
    have hpair := laidOut_pairLines format (hindent.before hindent) id true
    exact .cons hopen (.cons hinner
      (List.rel_append hpair (.cons (hend.after hindent) (.cons hend .nil))))

theorem laidOut_flatMap {α : Type} {f g : α → List String} (as : List α)
    (h : ∀ a, List.Forall₂ LaidOut (f a) (g a)) :
    List.Forall₂ LaidOut (as.flatMap f) (as.flatMap g) := by
  have hsame : List.Forall₂ Eq as as := List.forall₂_same.2 fun a _ => rfl
  apply List.rel_flatMap hsame
  intro a b hab
  rw [hab]
  exact h b

theorem laidOut_render (sheet : Stylesheet) : LaidOut sheet.solid (sheet.render format) := by
  have hnewline := laidOut_newline format
  have hdefaults := laidOut_lines format (laidOut_flatMap sheet.defaults fun id =>
    laidOut_pairLines format (laidOut_indent format) id false)
  have hoverrides := laidOut_lines format (laidOut_flatMap sheet.overrides (laidOut_block format))
  have hopen := ((LaidOut.refl "*").before (laidOut_space format)).append (.refl "\x7b")
  have hfirst := (((hopen.before hnewline).append hdefaults).before hnewline).append (.refl "\x7d")
  exact (hfirst.before hnewline).append hoverrides

/-- For hooks with any identifiers, the pretty and the minified stylesheet are the same
without their spaces and line ends. Either is the solid text of the stylesheet with spaces
and line ends put in. -/
theorem render_pretty_minified (hooks : List (Hook × HookId)) :
    Format.bare ((ofHooks hooks).render .pretty) = Format.bare ((ofHooks hooks).render .minified) ∧
    ∀ format, LaidOut (ofHooks hooks).solid ((ofHooks hooks).render format) := by
  have hlaid (format : Format) := laidOut_render format (ofHooks hooks)
  refine ⟨?_, hlaid⟩
  rw [← (hlaid .pretty).bare_eq, (hlaid .minified).bare_eq]

end Stylesheet

end Cascade
