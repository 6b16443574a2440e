import Cascade.Json.Decode
import Cascade.Proofs.Grammar.Lexemes
import Cascade.Proofs.Registry
import Cascade.Proofs.Stylesheet.Rules

/-!
# Hooks and their texts

A hook that has been read from a text has that text, and is read from it again;
`Hook.parse_accepts` says which texts are read.

A hook that has been put together from its parts may have a text that says
something else: a pattern can look like an at-rule (`Hook.isDisguised`), and an
at-rule can be without a query (`Hook.isBare`). All others are read back
(`parse_text_iff`).

As long as no pattern looks like an at-rule, two hooks with the same text are the
same. One can then be registered in place of the other, and a stylesheet has one
block for each text.
-/

namespace Cascade

namespace Hook

/-! ## Reading -/

theorem keyword_of_ofKeyword? {keyword : String} {rule : AtRule}
    (h : AtRule.ofKeyword? keyword = some rule) : rule.keyword = keyword := by
  simpa using List.find?_some h

theorem isKeywordChar_of_mem_keyword (rule : AtRule) :
    ∀ c ∈ rule.keyword.toList, isKeywordChar c = true := by
  rw [← List.all_eq_true]
  cases rule <;> decide

theorem parse_of_head?_ne {s : String} (h : s.toList.head? ≠ some '@') : parse s = ofPattern s := by
  unfold parse
  split
  · next hs => simp [hs] at h
  · rfl

theorem ofPattern_eq_ok_iff {s : String} {hook : Hook} :
    ofPattern s = .ok hook ↔ placeholder ∈ s.toList ∧ selector s = hook := by
  unfold ofPattern
  split <;> simp_all

/-- The texts that are read as an at-rule, and what is kept of them. -/
theorem parse_eq_atRule_iff {s : String} {rule : AtRule} {body : String} :
    parse s = .ok (atRule rule body) ↔
      s = (atRule rule body).text ∧ (∀ c ∈ body.toList.head?, isKeywordChar c = false) ∧
        body.toList.all Text.isBlank = false := by
  constructor
  · intro h
    unfold parse at h
    split at h
    · next rest hs =>
      simp only at h
      split at h
      · exact absurd h nofun
      · next rule' hrule =>
        split at h
        · exact absurd h nofun
        · next hblank =>
          simp only [Except.ok.injEq, atRule.injEq] at h
          obtain ⟨rfl, rfl⟩ := h
          rw [String.toList_ofList]
          refine ⟨?_, Grammar.head?_dropWhile_eq_false isKeywordChar rest, by simpa using hblank⟩
          apply String.toList_injective
          simp [text, keyword_of_ofKeyword? hrule, hs, List.takeWhile_append_dropWhile]
    · rw [ofPattern_eq_ok_iff] at h
      exact absurd h.2 nofun
  · rintro ⟨rfl, hhead, hblank⟩
    have htext : (atRule rule body).text.toList = '@' :: (rule.keyword.toList ++ body.toList) := by
      simp [text]
    obtain ⟨htake, hdrop⟩ :=
      Grammar.takeWhile_dropWhile_run (isKeywordChar_of_mem_keyword rule) hhead
    unfold parse
    rw [htext]
    simp only [htake, hdrop, String.ofList_toList, AtRule.ofKeyword?_keyword, hblank,
      Bool.false_eq_true, if_false]

/-- The texts that are read as a pattern. -/
theorem parse_eq_selector_iff {s pattern : String} :
    parse s = .ok (selector pattern) ↔
      s = pattern ∧ placeholder ∈ pattern.toList ∧ pattern.toList.head? ≠ some '@' := by
  constructor
  · intro h
    unfold parse at h
    split at h
    · simp only at h
      split at h
      · exact absurd h nofun
      · split at h <;> exact absurd h nofun
    · next hs =>
      obtain ⟨hmem, he⟩ := ofPattern_eq_ok_iff.1 h
      obtain rfl := selector.inj he
      refine ⟨rfl, hmem, ?_⟩
      intro hhead
      obtain ⟨rest, hrest⟩ := List.head?_eq_some_iff.1 hhead
      exact hs rest hrest
  · rintro ⟨rfl, hmem, hhead⟩
    rw [parse_of_head?_ne hhead, ofPattern_eq_ok_iff]
    exact ⟨hmem, rfl⟩

/-- A hook that has been read from a text has that text. -/
theorem text_eq_of_parse {s : String} {hook : Hook} (h : parse s = .ok hook) : hook.text = s := by
  cases hook with
  | selector pattern => exact (parse_eq_selector_iff.1 h).1.symm
  | atRule rule body => exact (parse_eq_atRule_iff.1 h).1.symm

theorem mem_keywords_iff {keyword : String} :
    keyword ∈ ["media", "container", "supports"] ↔ ∃ rule : AtRule, rule.keyword = keyword := by
  constructor
  · intro h
    simp only [List.mem_cons, List.not_mem_nil, or_false] at h
    rcases h with rfl | rfl | rfl
    · exact ⟨.media, rfl⟩
    · exact ⟨.container, rfl⟩
    · exact ⟨.supports, rfl⟩
  · intro h
    obtain ⟨rule, rfl⟩ := h
    cases rule <;> simp [AtRule.keyword]

/-- The keyword of an at-rule goes on as far as there are ASCII letters, digits and
hyphens. -/
theorem isKeywordChar_eq_false_iff {c : Char} :
    isKeywordChar c = false ↔ c.isAlphanum = false ∧ c ≠ '-' := by
  simp [isKeywordChar]

/-- Which texts are read as a hook: those that do not start with `@` and mention the
styled element, and those that start with the keyword of an at-rule, have something
other than white space behind it, and do not continue the keyword.

The hook has the text that it has been read from. So it is read from no other text,
and reading its text gives it again. -/
theorem parse_accepts (s : String) :
    ((∃ hook, parse s = .ok hook) ↔
      (s.toList.head? ≠ some '@' ∧ '&' ∈ s.toList) ∨
      ∃ keyword ∈ ["media", "container", "supports"], ∃ body : String,
        s = "@" ++ keyword ++ body ∧ (∃ c ∈ body.toList, Text.isBlank c = false) ∧
          ∀ c ∈ body.toList.head?, c.isAlphanum = false ∧ c ≠ '-') ∧
    ∀ hook, parse s = .ok hook →
      hook.text = s ∧ parse hook.text = .ok hook ∧ ∀ t, parse t = .ok hook → t = s := by
  refine ⟨⟨?_, ?_⟩, ?_⟩
  · intro h
    obtain ⟨hook, h⟩ := h
    cases hook with
    | selector pattern =>
      obtain ⟨rfl, hmem, hhead⟩ := parse_eq_selector_iff.1 h
      exact .inl ⟨hhead, hmem⟩
    | atRule rule body =>
      obtain ⟨htext, hhead, hblank⟩ := parse_eq_atRule_iff.1 h
      refine .inr ⟨rule.keyword, mem_keywords_iff.2 ⟨rule, rfl⟩, body, htext, ?_, ?_⟩
      · simpa using hblank
      · intro c hc
        exact isKeywordChar_eq_false_iff.1 (hhead c hc)
  · intro h
    rcases h with ⟨hhead, hmem⟩ | ⟨keyword, hkeyword, body, htext, hblank, hhead⟩
    · exact ⟨selector s, parse_eq_selector_iff.2 ⟨rfl, hmem, hhead⟩⟩
    · obtain ⟨rule, rfl⟩ := mem_keywords_iff.1 hkeyword
      refine ⟨atRule rule body, parse_eq_atRule_iff.2 ⟨htext, ?_, by simpa using hblank⟩⟩
      intro c hc
      exact isKeywordChar_eq_false_iff.2 (hhead c hc)
  · intro hook h
    have htext := text_eq_of_parse h
    refine ⟨htext, by rw [htext, h], ?_⟩
    intro t ht
    rw [← text_eq_of_parse ht, htext]

/-! ## Hooks that can be built -/

/-- A hook that reading a text, or one of the two constructors, gives. -/
def Constructed (hook : Hook) : Prop :=
  (∃ s, parse s = .ok hook) ∨ (∃ pattern, ofPattern pattern = .ok hook) ∨
    ∃ rule query, ofQuery rule query = hook

/-- Whether a hook is a pattern that looks like an at-rule. -/
def isDisguised : Hook → Bool
  | selector pattern => pattern.toList.head? == some '@'
  | atRule _ _ => false

/-- Whether a hook is an at-rule without a query. -/
def isBare : Hook → Bool
  | selector _ => false
  | atRule _ body => body.toList.all Text.isBlank

theorem Constructed.placeholder_mem {pattern : String} (h : Constructed (selector pattern)) :
    placeholder ∈ pattern.toList := by
  rcases h with ⟨s, hs⟩ | ⟨pattern', hp⟩ | ⟨rule, query, hq⟩
  · exact (parse_eq_selector_iff.1 hs).2.1
  · obtain ⟨hmem, he⟩ := ofPattern_eq_ok_iff.1 hp
    rwa [selector.inj he] at hmem
  · exact absurd hq nofun

/-- The keyword of an at-rule does not run on into what follows it. -/
theorem Constructed.head_body {rule : AtRule} {body : String} (h : Constructed (atRule rule body)) :
    ∀ c ∈ body.toList.head?, isKeywordChar c = false := by
  rcases h with ⟨s, hs⟩ | ⟨pattern, hp⟩ | ⟨rule', query, hq⟩
  · exact (parse_eq_atRule_iff.1 hs).2.1
  · exact absurd (ofPattern_eq_ok_iff.1 hp).2 nofun
  · obtain ⟨-, rfl⟩ := atRule.inj hq
    simp [isKeywordChar]

/-- Which hooks are read back from their text. -/
theorem parse_text_iff {hook : Hook} (h : Constructed hook) :
    parse hook.text = .ok hook ↔ hook.isDisguised = false ∧ hook.isBare = false := by
  cases hook with
  | selector pattern =>
    simp [parse_eq_selector_iff, text, isDisguised, isBare, h.placeholder_mem]
  | atRule rule body =>
    rw [parse_eq_atRule_iff]
    constructor
    · rintro ⟨-, -, hbare⟩
      exact ⟨rfl, hbare⟩
    · rintro ⟨-, hbare⟩
      exact ⟨rfl, h.head_body, hbare⟩

/-! ## Hooks with the same text -/

/-- At-rules, with or without a query, can be told by their texts. -/
theorem atRule_eq_of_text_eq {rule rule' : AtRule} {body body' : String}
    (h : Constructed (atRule rule body)) (h' : Constructed (atRule rule' body'))
    (htext : (atRule rule body).text = (atRule rule' body').text) :
    atRule rule body = atRule rule' body' := by
  have hlist : rule.keyword.toList ++ body.toList = rule'.keyword.toList ++ body'.toList := by
    simpa [text] using congrArg String.toList htext
  obtain ⟨htake, hdrop⟩ :=
    Grammar.takeWhile_dropWhile_run (isKeywordChar_of_mem_keyword rule) h.head_body
  obtain ⟨htake', hdrop'⟩ :=
    Grammar.takeWhile_dropWhile_run (isKeywordChar_of_mem_keyword rule') h'.head_body
  rw [hlist, htake'] at htake
  rw [hlist, hdrop'] at hdrop
  have hrule : AtRule.ofKeyword? rule'.keyword = AtRule.ofKeyword? rule.keyword :=
    congrArg AtRule.ofKeyword? (String.toList_injective htake)
  simp only [AtRule.ofKeyword?_keyword, Option.some.injEq] at hrule
  rw [hrule, String.toList_injective hdrop]

theorem isDisguised_of_text_eq {pattern : String} {rule : AtRule} {body : String}
    (h : (selector pattern).text = (atRule rule body).text) :
    (selector pattern).isDisguised = true := by
  obtain rfl : pattern = (atRule rule body).text := h
  simp [isDisguised, text]

/-- Two hooks with the same text are the same, unless one is a pattern that looks
like an at-rule. -/
theorem eq_of_text_eq {a b : Hook} (ha : Constructed a) (hb : Constructed b)
    (ha' : a.isDisguised = false) (hb' : b.isDisguised = false) (htext : a.text = b.text) :
    a = b := by
  cases a with
  | selector p =>
    cases b with
    | selector q => exact congrArg selector htext
    | atRule rule body => simp [isDisguised_of_text_eq htext] at ha'
  | atRule rule body =>
    cases b with
    | selector q => simp [isDisguised_of_text_eq htext.symm] at hb'
    | atRule rule' body' => exact atRule_eq_of_text_eq ha hb htext

/-- The hooks with a block of their own, as texts: each text that is the text of a
hook, once. -/
theorem overrides_texts {hooks : List Hook}
    (h : ∀ a ∈ hooks, ∀ b ∈ hooks, a.text = b.text → a = b) :
    (Stylesheet.ofHookList hooks).overrides.map (fun entry => entry.1.text) =
      (hooks.map text).eraseDups := by
  have hkeys : ∀ a ∈ hooks, ∀ b ∈ hooks, a = b ↔ a.text = b.text := by
    intro a ha b hb
    exact ⟨congrArg text, h a ha b hb⟩
  rw [← Stylesheet.firsts_eq_eraseDups, Stylesheet.firsts_map, ← Stylesheet.firsts_congr hkeys]
  show (Stylesheet.firsts Prod.fst (hooks.map fun hook => (hook, hook.id))).map _ = _
  rw [Stylesheet.firsts_map, List.map_map]
  rfl

theorem asHook_eq_ok_iff {s : String} {hook : Hook} :
    Json.asHook (.string s) = .ok hook ↔ parse s = .ok hook := by
  show (parse s).mapError DecodeError.hook = .ok hook ↔ _
  rw [mapError_eq_ok_iff]

/-- When the text of a hook is its identity.

A hook is read back from its text, or from the JSON string, exactly if it is not a
pattern that looks like an at-rule, nor an at-rule without a query. For two hooks
with one text to be the same it is enough that there is no such pattern: one may
then be registered again for the other, which changes nothing, and the stylesheet
has a block for every text, once. -/
theorem text_identifies (hooks : List Hook) (hbuilt : ∀ hook ∈ hooks, Constructed hook) :
    (∀ hook ∈ hooks,
      (parse hook.text = .ok hook ↔ hook.isDisguised = false ∧ hook.isBare = false) ∧
      (Json.asHook (.string hook.text) = .ok hook ↔
        hook.isDisguised = false ∧ hook.isBare = false)) ∧
    ((∀ hook ∈ hooks, hook.isDisguised = false) →
      (∀ a ∈ hooks, ∀ b ∈ hooks, a.text = b.text →
        a = b ∧ ∀ (builder : Registry.Builder) (name : String), name ≠ "" →
          builder.registry.definition? name = some a →
          builder.register (name, b) = .ok builder) ∧
      (Stylesheet.ofHookList hooks).overrides.map (fun entry => entry.1.text) =
        (hooks.map text).eraseDups) := by
  refine ⟨?_, ?_⟩
  · intro hook hmem
    have hiff := parse_text_iff (hbuilt hook hmem)
    exact ⟨hiff, asHook_eq_ok_iff.trans hiff⟩
  · intro hplain
    have heq : ∀ a ∈ hooks, ∀ b ∈ hooks, a.text = b.text → a = b := by
      intro a ha b hb
      exact eq_of_text_eq (hbuilt a ha) (hbuilt b hb) (hplain a ha) (hplain b hb)
    refine ⟨?_, overrides_texts heq⟩
    intro a ha b hb htext
    obtain rfl := heq a ha b hb htext
    exact ⟨rfl, fun _ _ hname hfound => Registry.Builder.register_again hname hfound⟩

/-- A hook that is built twice, once from its text and once from its parts, and an
at-rule without a query. -/
theorem text_identifies_repeated :
    let hooks := [ofQuery .media "print", selector "&:hover", atRule .media " print",
      ofQuery .supports ""]
    (∀ hook ∈ hooks, Constructed hook) ∧
      (∀ hook ∈ hooks, parse hook.text = .ok hook ↔ hook ≠ ofQuery .supports "") ∧
      (Stylesheet.ofHookList hooks).overrides.map (fun entry => entry.1.text) =
        ["@media print", "&:hover", "@supports "] := by
  intro hooks
  have hbuilt : ∀ hook ∈ hooks, Constructed hook := by
    simp only [hooks, List.forall_mem_cons]
    exact ⟨.inr (.inr ⟨.media, "print", rfl⟩), .inr (.inl ⟨"&:hover", rfl⟩),
      .inl ⟨"@media print", rfl⟩, .inr (.inr ⟨.supports, "", rfl⟩), nofun⟩
  obtain ⟨hread, hsame⟩ := text_identifies hooks hbuilt
  refine ⟨hbuilt, ?_, (hsame (by decide)).2⟩
  intro hook hmem
  rw [(hread hook hmem).1]
  revert hook
  decide

/-- A pattern that looks like an at-rule is not the at-rule that its text is read as:
the two cannot share a name, and both have a block. The text of an at-rule without
a query is not read at all. -/
theorem text_of_disguised :
    let pattern := selector "@media &"
    let rule := ofQuery .media "&"
    ofPattern "@media &" = .ok pattern ∧ pattern.text = rule.text ∧ pattern ≠ rule ∧
      parse pattern.text = .ok rule ∧
      Registry.build [("x", pattern), ("x", rule)] = .error (.conflict "x" pattern rule) ∧
      (Stylesheet.ofHookList [pattern, rule]).overrides.map (fun entry => entry.1.text) =
        ["@media &", "@media &"] ∧
      parse (ofQuery .media "").text = .error (.noQuery "@media ") := by
  have hbefore : Registry.Registrable [("x", selector "@media &")] := .of_nodup (by simp) (by simp)
  have hconflict : Registry.build [("x", selector "@media &"), ("x", ofQuery .media "&")] =
      .error (.conflict "x" (selector "@media &") (ofQuery .media "&")) :=
    Registry.build_eq_error_iff.2
      ⟨_, "x", ofQuery .media "&", [], rfl, hbefore, .inr ⟨by decide, _, rfl, nofun, rfl⟩⟩
  exact ⟨rfl, rfl, nofun, rfl, hconflict, rfl, rfl⟩

end Hook

end Cascade
