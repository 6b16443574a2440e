import Cascade.Condition.Printer
import Cascade.Proofs.Condition.Leaves
import Cascade.Proofs.Grammar.Reading

/-!
# Written conditions are read back

The text of a condition is read as the condition again, except that a node with
one item has become that item: the text has parentheses around it and nothing
else. `Condition.collapse` makes that change, which does not touch the truth of
a condition.

There are three groups.

* Nodes with one item. Conditions that have been read have none
  (`Disjunction.isCollapsed`).
* Texts of phrases. `Writes` says of a text that it has the lexemes of a phrase,
  whatever stands behind it that is no letter or digit.
* The text of a condition, which is that of a primary whatever way the leaves are
  written (`writes_render`).
-/

namespace Cascade

open Grammar

/-! ## Nodes with one item -/

namespace Condition

variable {α : Type}

/-- Replaces every node with one item by that item. -/
def collapse : Condition String → Condition String :=
  fold leaf (chain all) (chain any) not

@[simp] theorem collapse_leaf (a : String) : (leaf a).collapse = leaf a := rfl

@[simp] theorem collapse_all (items : List (Condition String)) :
    (all items).collapse = chain all (items.map collapse) := by
  simp only [collapse, fold, foldList_eq_map]

@[simp] theorem collapse_any (items : List (Condition String)) :
    (any items).collapse = chain any (items.map collapse) := by
  simp only [collapse, fold, foldList_eq_map]

@[simp] theorem collapse_not (c : Condition String) : (not c).collapse = not c.collapse := rfl

/-- Whether no node has exactly one item. -/
def isCollapsed : Condition α → Bool :=
  fold (fun _ => true) (fun items => items.length != 1 && items.all id)
    (fun items => items.length != 1 && items.all id) id

@[simp] theorem isCollapsed_leaf (a : α) : (leaf a).isCollapsed = true := rfl

@[simp] theorem isCollapsed_all (items : List (Condition α)) :
    (all items).isCollapsed = (items.length != 1 && items.all isCollapsed) := by
  simp only [isCollapsed, fold, foldList_eq_map, List.length_map, List.all_map]
  rfl

@[simp] theorem isCollapsed_any (items : List (Condition α)) :
    (any items).isCollapsed = (items.length != 1 && items.all isCollapsed) := by
  simp only [isCollapsed, fold, foldList_eq_map, List.length_map, List.all_map]
  rfl

@[simp] theorem isCollapsed_not (c : Condition α) : (not c).isCollapsed = c.isCollapsed := rfl

/-- Only nodes with one item are changed. -/
theorem collapse_eq_self {c : Condition String} (h : c.isCollapsed = true) : c.collapse = c := by
  induction c using Condition.induction with
  | leaf a => rfl
  | all items ih =>
    simp only [isCollapsed_all, Bool.and_eq_true, bne_iff_ne, List.all_eq_true] at h
    have hitems : items.map collapse = items :=
      (List.map_congr_left fun c hc => ih c hc (h.2 c hc)).trans (List.map_id' items)
    rw [collapse_all, hitems, chain_of_length_ne_one h.1]
  | any items ih =>
    simp only [isCollapsed_any, Bool.and_eq_true, bne_iff_ne, List.all_eq_true] at h
    have hitems : items.map collapse = items :=
      (List.map_congr_left fun c hc => ih c hc (h.2 c hc)).trans (List.map_id' items)
    rw [collapse_any, hitems, chain_of_length_ne_one h.1]
  | not c ih => rw [collapse_not, ih h]

theorem eval_chain {node : List (Condition String) → Condition String} {holds : String → Bool}
    (h : ∀ c, (node [c]).eval holds = c.eval holds) (items : List (Condition String)) :
    (chain node items).eval holds = (node items).eval holds := by
  unfold chain
  split
  · exact (h _).symm
  · rfl

theorem eval_collapse (holds : String → Bool) (c : Condition String) :
    c.collapse.eval holds = c.eval holds := by
  induction c using consInduction with
  | leaf a => rfl
  | all_nil => rfl
  | all_cons c cs ih ihs =>
    rw [collapse_all, eval_chain (by simp)] at ihs ⊢
    rw [List.map_cons, eval_all_cons, ih, ihs, eval_all_cons]
  | any_nil => rfl
  | any_cons c cs ih ihs =>
    rw [collapse_any, eval_chain (by simp)] at ihs ⊢
    rw [List.map_cons, eval_any_cons, ih, ihs, eval_any_cons]
  | not c ih => rw [collapse_not, eval_not, eval_not, ih]

end Condition

namespace Grammar

mutual

/-- A node is derived from several operands, or from a constant. -/
theorem Disjunction.isCollapsed {ls : List Lexeme} {c : Condition String} :
    Disjunction ls c → c.isCollapsed = true
  | .lone operand => operand.isCollapsed c List.mem_cons_self
  | .node operands several => by
    rw [Condition.isCollapsed_any, Bool.and_eq_true, bne_iff_ne, List.all_eq_true]
    exact ⟨by omega, operands.isCollapsed⟩

theorem Disjuncts.isCollapsed {ls : List Lexeme} {items : List (Condition String)} :
    Disjuncts ls items → ∀ c ∈ items, c.isCollapsed = true
  | .first operand => by
    rw [List.forall_mem_singleton]
    exact operand.isCollapsed
  | .next operands _ operand => by
    rw [List.forall_mem_append, List.forall_mem_singleton]
    exact ⟨operands.isCollapsed, operand.isCollapsed⟩

theorem Conjunction.isCollapsed {ls : List Lexeme} {c : Condition String} :
    Conjunction ls c → c.isCollapsed = true
  | .lone operand => operand.isCollapsed c List.mem_cons_self
  | .node operands several => by
    rw [Condition.isCollapsed_all, Bool.and_eq_true, bne_iff_ne, List.all_eq_true]
    exact ⟨by omega, operands.isCollapsed⟩

theorem Conjuncts.isCollapsed {ls : List Lexeme} {items : List (Condition String)} :
    Conjuncts ls items → ∀ c ∈ items, c.isCollapsed = true
  | .first operand => by
    rw [List.forall_mem_singleton]
    exact operand.isCollapsed
  | .next operands _ operand => by
    rw [List.forall_mem_append, List.forall_mem_singleton]
    exact ⟨operands.isCollapsed, operand.isCollapsed⟩

theorem Negation.isCollapsed {ls : List Lexeme} {c : Condition String} :
    Negation ls c → c.isCollapsed = true
  | .not _ operand => operand.isCollapsed
  | .primary primary => primary.isCollapsed

theorem Primary.isCollapsed {ls : List Lexeme} {c : Condition String} :
    Primary ls c → c.isCollapsed = true
  | .group inner => inner.isCollapsed
  | .literal => rfl
  | .name _ => rfl
  | .true _ => rfl
  | .false _ => rfl

end

/-! ## Texts of phrases -/

/-- The text has the lexemes of a phrase with this meaning, whatever stands behind
it that cannot belong to a word. -/
def Writes {α : Type} (Phrase : List Lexeme → α → Prop) (text : List Char) (a : α) : Prop :=
  ∃ ls, Phrase ls a ∧ ls ≠ [] ∧ ∀ {rest}, (∀ d ∈ rest.head?, d.isAlphanum = false) →
    Takes (text ++ rest) ls rest

/-- The text has the lexemes of a phrase with this meaning, also when something
stands behind it that cannot belong to a word. -/
def Spells {α : Type} (Phrase : List Lexeme → α → Prop) (text : List Char) (a : α) : Prop :=
  ∃ ls, Phrase ls a ∧ ∀ {rest more}, (∀ d ∈ rest.head?, d.isAlphanum = false) →
    Lexes rest more → Lexes (text ++ rest) (ls ++ more)

/-- A lexeme at the very start is taken first. -/
theorem takes_cons {cs mid rest : List Char} {l : Lexeme} {ls : List Lexeme}
    (hl : Starts cs l mid) (h : Takes mid ls rest) : Takes cs (l :: ls) rest :=
  .cons (hl.skipBlanks.symm ▸ hl) h

/-- A blank in front of lexemes is passed over. -/
theorem takes_blank {cs rest : List Char} {ls : List Lexeme} (hne : ls ≠ [])
    (h : Takes cs ls rest) : Takes (' ' :: cs) ls rest := by
  cases h with
  | nil => exact absurd rfl hne
  | cons hl htail => exact .cons ((skipBlanks_space List.mem_cons_self cs).symm ▸ hl) htail

/-- An identifier is one word. -/
theorem starts_identifier {word : String} (hword : isIdentifier word = true) {rest : List Char}
    (hstop : ∀ d ∈ rest.head?, d.isAlphanum = false) :
    Starts (word.toList ++ rest) (.word word) rest := by
  obtain ⟨c, run, hcs, hc, hrun⟩ := isIdentifier_iff.1 hword
  rw [hcs, ← String.ofList_toList (s := word), hcs]
  exact .word hc hrun hstop

section Writes

variable {α β γ : Type} {Phrase : List Lexeme → α → Prop} {Other : List Lexeme → β → Prop}
  {Whole : List Lexeme → γ → Prop} {text text' : List Char} {a : α} {b : β} {d : γ}

theorem Writes.imp (h : Writes Phrase text a) (himp : ∀ {ls}, Phrase ls a → Other ls b) :
    Writes Other text b := by
  obtain ⟨ls, hls, hne, htakes⟩ := h
  exact ⟨ls, himp hls, hne, htakes⟩

theorem Writes.spells (h : Writes Phrase text a) : Spells Phrase text a := by
  obtain ⟨ls, hls, -, htakes⟩ := h
  refine ⟨ls, hls, ?_⟩
  intro rest more hstop hmore
  obtain ⟨last, hlast, hblank⟩ := lexes_iff_takes.1 hmore
  exact lexes_iff_takes.2 ⟨last, (htakes hstop).append hlast, hblank⟩

theorem writes_word {word : String} (hword : isIdentifier word = true)
    (h : Phrase [.word word] a) : Writes Phrase word.toList a :=
  ⟨[.word word], h, by simp, fun hstop => takes_cons (starts_identifier hword hstop) .nil⟩

/-- Two phrases with an operator between them. -/
theorem Writes.operator {word : String} (h : Writes Phrase text a) (h' : Writes Other text' b)
    (hword : isIdentifier word = true)
    (hwhole : ∀ {ls ls'}, Phrase ls a → Other ls' b → Whole (ls ++ .word word :: ls') d) :
    Writes Whole (text ++ (' ' :: (word.toList ++ ' ' :: text'))) d := by
  obtain ⟨ls, hls, -, htakes⟩ := h
  obtain ⟨ls', hls', hne', htakes'⟩ := h'
  refine ⟨ls ++ .word word :: ls', hwhole hls hls', by simp, ?_⟩
  intro rest hstop
  have hafter := takes_blank hne' (htakes' hstop)
  have hoperator := takes_cons (starts_identifier hword (by simp)) hafter
  have := (htakes (by simp)).append (takes_blank (by simp) hoperator)
  simpa using this

theorem Writes.not {c : Condition String} (h : Writes Negation text c) :
    Writes Negation ("NOT ".toList ++ text) (.not c) := by
  obtain ⟨ls, hls, hne, htakes⟩ := h
  refine ⟨.word "NOT" :: ls, .not (by simp [Keyword.spellings]) hls, by simp, ?_⟩
  intro rest hstop
  have hword : isIdentifier "NOT" = true := by decide
  have := takes_cons (starts_identifier hword (by simp)) (takes_blank hne (htakes hstop))
  simpa using this

theorem Writes.group {c : Condition String} (h : Writes Disjunction text c) :
    Writes Primary ('(' :: text ++ [')']) c := by
  obtain ⟨ls, hls, -, htakes⟩ := h
  refine ⟨.opening :: ls ++ [.closing], .group hls, by simp, ?_⟩
  intro rest hstop
  have hclosing : Takes (')' :: rest) [.closing] rest := takes_cons .closing .nil
  have hinner := (htakes (by simp)).append hclosing
  have : Takes ('(' :: (text ++ ')' :: rest)) (.opening :: (ls ++ [.closing])) rest :=
    takes_cons .opening hinner
  simpa using this

end Writes

theorem Writes.disjunction {text : List Char} {c : Condition String}
    (h : Writes Primary text c) : Writes Disjunction text c :=
  h.imp fun hc => .lone (.first (.lone (.first (.primary hc))))

theorem Spells.disjunction {text : List Char} {c : Condition String}
    (h : Spells Primary text c) : Spells Disjunction text c := by
  obtain ⟨ls, hls, hlexes⟩ := h
  exact ⟨ls, .lone (.first (.lone (.first (.primary hls)))), hlexes⟩

/-! ## The text of a condition -/

section Operands

variable {Operands : List Lexeme → List (Condition String) → Prop} {word : String}

/-- Operands one after the other, each with the operator in front. -/
theorem Writes.operands (hword : isIdentifier word = true)
    (hnext : ∀ {ls ls' items c}, Operands ls items → Primary ls' c →
      Operands (ls ++ .word word :: ls') (items ++ [c]))
    {text : List Char} {items : List (Condition String)} (h : Writes Operands text items)
    {write : Condition String → List Char} {read : Condition String → Condition String}
    {cs : List (Condition String)} (hcs : ∀ c ∈ cs, Writes Primary (write c) (read c)) :
    Writes Operands (text ++ cs.flatMap fun c => ' ' :: (word.toList ++ ' ' :: write c))
      (items ++ cs.map read) := by
  induction cs generalizing text items with
  | nil => simpa using h
  | cons c cs ih =>
    rw [List.forall_mem_cons] at hcs
    have := ih (h.operator hcs.1 hword hnext) hcs.2
    simpa using this

end Operands

theorem intercalate_cons (sep x : List Char) (xs : List (List Char)) :
    sep.intercalate (x :: xs) = x ++ xs.flatMap (sep ++ ·) := by
  induction xs generalizing x with
  | nil => simp [List.intercalate]
  | cons y xs ih => rw [List.intercalate_cons_cons, ih, List.flatMap_cons, List.append_assoc,
      List.append_assoc]

end Grammar

namespace Condition

theorem toList_renderNode (operator constant : String) (write : Condition String → String)
    (c : Condition String) (cs : List (Condition String)) :
    (renderNode operator constant ((c :: cs).map write)).toList =
      '(' :: ((write c).toList ++
        cs.flatMap fun c => ' ' :: (operator.toList ++ ' ' :: (write c).toList)) ++ [')'] := by
  simp [renderNode, String.toList_intercalate, intercalate_cons, List.flatMap_map]

/-- The text of a node with items is that of a primary, for either operator. -/
theorem writes_node (Operands : List Lexeme → List (Condition String) → Prop)
    {node : List (Condition String) → Condition String} {operator : String} (constant : String)
    (hoperator : isIdentifier operator = true)
    (hfirst : ∀ {ls c}, Primary ls c → Operands ls [c])
    (hnext : ∀ {ls ls' items c}, Operands ls items → Primary ls' c →
      Operands (ls ++ .word operator :: ls') (items ++ [c]))
    (hwhole : ∀ {ls items}, Operands ls items → Disjunction ls (chain node items))
    {write : Condition String → String} {c : Condition String} {cs : List (Condition String)}
    (h : ∀ d ∈ c :: cs, Writes Primary (write d).toList d.collapse) :
    Writes Primary (renderNode operator constant ((c :: cs).map write)).toList
      (chain node ((c :: cs).map collapse)) := by
  rw [List.forall_mem_cons] at h
  have hitems := (h.1.imp hfirst).operands hoperator hnext h.2
  rw [toList_renderNode]
  exact (hitems.imp hwhole).group

/-- The text of a condition is that of a primary, if the texts of its leaves are. -/
theorem writes_render {leafText : String → String} {c : Condition String}
    (h : ∀ a ∈ c.leaves, Writes Primary (leafText a).toList (leaf a)) :
    Writes Primary (c.render leafText).toList c.collapse := by
  induction c using Condition.induction with
  | leaf a => exact h a List.mem_cons_self
  | all items ih =>
    have hitems : ∀ c ∈ items, Writes Primary (c.render leafText).toList c.collapse := fun c hc =>
      ih c hc fun a ha => h a (by rw [leaves_all]; exact List.mem_flatMap_of_mem hc ha)
    rw [render_all, collapse_all]
    cases items with
    | nil =>
      show Writes Primary "TRUE".toList (all [])
      exact writes_word (by decide) (.true List.mem_cons_self)
    | cons c cs =>
      apply writes_node Conjuncts "TRUE" (by decide) ?_ ?_ ?_ hitems
      · intro ls c hc
        exact .first (.primary hc)
      · intro ls ls' items c hitems hc
        exact .next hitems List.mem_cons_self (.primary hc)
      · intro ls items hitems
        exact .lone (.first hitems.conjunction)
  | any items ih =>
    have hitems : ∀ c ∈ items, Writes Primary (c.render leafText).toList c.collapse := fun c hc =>
      ih c hc fun a ha => h a (by rw [leaves_any]; exact List.mem_flatMap_of_mem hc ha)
    rw [render_any, collapse_any]
    cases items with
    | nil =>
      show Writes Primary "FALSE".toList (any [])
      exact writes_word (by decide) (.false List.mem_cons_self)
    | cons c cs =>
      apply writes_node Disjuncts "FALSE" (by decide) ?_ ?_ ?_ hitems
      · intro ls c hc
        exact .first (.lone (.first (.primary hc)))
      · intro ls ls' items c hitems hc
        exact .next hitems List.mem_cons_self (.lone (.first (.primary hc)))
      · intro ls items hitems
        exact hitems.disjunction
  | not c ih =>
    have hnot : Writes Negation ("NOT ".toList ++ (c.render leafText).toList) (.not c.collapse) :=
      ((ih h).imp .primary).not
    have hgroup := (hnot.imp fun hc => Disjunction.lone (.first (.lone (.first hc)))).group
    rw [render_not, collapse_not]
    simpa using hgroup

/-- The text of a condition over names is that of a primary. -/
theorem spells_text {c : Condition String}
    (h : ∀ a ∈ c.leaves, isIdentifier a = true ∧ IsName a) :
    Spells Primary c.text.toList c.collapse := by
  have hleaves : ∀ a ∈ c.leaves, Writes Primary a.toList (leaf a) := by
    intro a ha
    obtain ⟨hword, hname⟩ := h a ha
    exact writes_word hword (.name hname)
  have htext : Writes Primary (c.render id).toList c.collapse := writes_render hleaves
  exact htext.spells

/-- The text of a condition is read as the condition, with every node that has one
item replaced by the item. That does not change what the condition says. It
changes nothing at all in a condition without such nodes, and all conditions
that are read are without. -/
theorem parse_text (c : Condition String)
    (hleaves : ∀ a ∈ c.leaves, isIdentifier a = true ∧ IsName a) :
    parse c.text = .ok c.collapse ∧
    (∀ holds, c.collapse.eval holds = c.eval holds) ∧
    (c.isCollapsed = true → c.collapse = c) ∧
    ∀ s d, parse s = .ok d → d.isCollapsed = true := by
  refine ⟨?_, fun holds => eval_collapse holds c, collapse_eq_self, ?_⟩
  · obtain ⟨ls, hls, hlexes⟩ := (spells_text hleaves).disjunction
    have htext : Lexes (c.text.toList ++ []) (ls ++ []) := hlexes (by simp) .nil
    rw [List.append_nil, List.append_nil] at htext
    exact parse_eq_ok.2 (condition_of_disjunction htext hls)
  · intro s d hd
    obtain ⟨ls, -, hls⟩ := exists_disjunction_of_condition (parse_eq_ok.1 hd)
    exact hls.isCollapsed

/-- Leaves that look like keywords, a node inside of one of its own kind, an empty
node, and a node with one item. -/
theorem parse_text_nested :
    let c : Condition String := all [leaf "notable", any [not (leaf "And")], any [],
      all [leaf "a1", leaf "oR"]]
    (∀ a ∈ c.leaves, isIdentifier a = true ∧ IsName a) ∧
    parse c.text = .ok (all [leaf "notable", not (leaf "And"), any [],
      all [leaf "a1", leaf "oR"]]) := by
  intro c
  have hleaves : ∀ a ∈ c.leaves, isIdentifier a = true ∧ IsName a := by
    intro a ha
    have hcases : a = "notable" ∨ a = "And" ∨ a = "a1" ∨ a = "oR" := by simpa [c] using ha
    rcases hcases with rfl | rfl | rfl | rfl <;>
    · refine ⟨by decide, ?_⟩
      intro k
      cases k <;> simp [Keyword.spellings]
  exact ⟨hleaves, (parse_text c hleaves).1⟩

end Condition

end Cascade
