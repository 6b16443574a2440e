import Cascade.Value.Scan

/-!
# Balanced texts

A text is balanced if a scan that starts in front of it with no parenthesis open
meets no closing parenthesis that would close one from outside, and ends as it
began. A literal that is balanced can stand inside any other value: a scan that
comes to it at some depth leaves it at the same depth, and no cut falls into it.

There are four groups.

* Scans over whole texts, and where a cut falls in a text made of two parts.
* `Balanced`, how balanced texts are put together (`Balanced.append`,
  `Balanced.group`), and how a cut passes over them.
* Texts that are balanced whatever is around them: those without parentheses and
  quotes, and quoted strings.
* Where a `var(` is found.
-/

namespace Cascade.Value

/-! ## Scans over a text -/

namespace Scan

/-- Goes on over a text. -/
def run (scan : Scan) (cs : List Char) : Scan := cs.foldl step scan

@[simp] theorem run_nil (scan : Scan) : scan.run [] = scan := rfl

@[simp] theorem run_cons (scan : Scan) (c : Char) (cs : List Char) :
    scan.run (c :: cs) = (scan.step c).run cs := rfl

@[simp] theorem run_append (scan : Scan) (cs ds : List Char) :
    scan.run (cs ++ ds) = (scan.run cs).run ds :=
  List.foldl_append

/-- The same place inside `n` more parentheses. -/
def inside (n : Nat) : Scan → Scan
  | plain depth => plain (depth + n)
  | quoted quote depth => quoted quote (depth + n)
  | escaped quote depth => escaped quote (depth + n)

/-- A step does not depend on the parentheses around, unless it would close one
of them. -/
theorem step_inside {scan : Scan} {c : Char} (h : ¬(scan = plain 0 ∧ c = ')')) (n : Nat) :
    (scan.inside n).step c = (scan.step c).inside n := by
  cases scan with
  | plain depth =>
    by_cases hq : isQuote c = true
    · simp [inside, step, hq]
    by_cases ho : c = '('
    · subst ho
      simp [inside, step, hq, Nat.add_right_comm]
    by_cases hc : c = ')'
    · have hd : depth ≠ 0 := fun hd => h ⟨by rw [hd], hc⟩
      have hn : depth + n - 1 = depth - 1 + n := by omega
      subst hc
      simp [inside, step, hq, hn]
    · simp [inside, step, hq, ho, hc]
  | quoted quote depth =>
    simp only [inside, step]
    split
    · rfl
    · split <;> rfl
  | escaped quote depth => rfl

/-- Inside at least one parenthesis nothing stands at depth zero. -/
theorem inside_succ_ne (scan : Scan) (n : Nat) : scan.inside (n + 1) ≠ plain 0 := by
  cases scan <;> simp [inside]

end Scan

/-! ## Where a cut falls -/

/-- There is no cut exactly if the mark stands nowhere outside parentheses and
quotes. -/
theorem cutFrom_eq_none_iff {mark : Char} {scan : Scan} {cs : List Char} :
    cutFrom mark scan cs = none ↔
      ∀ before after, cs = before ++ mark :: after → scan.run before ≠ .plain 0 := by
  induction cs generalizing scan with
  | nil => simp [cutFrom]
  | cons c cs ih =>
    rw [cutFrom]
    split
    · next hc =>
      simp only [reduceCtorEq, false_iff]
      intro h
      exact h [] cs (by rw [hc.2, List.nil_append]) hc.1
    · next hc =>
      rw [Option.map_eq_none_iff, ih]
      constructor
      · intro h before after he
        rcases before with _ | ⟨b, before⟩
        · rw [List.nil_append, List.cons.injEq] at he
          exact fun hs => hc ⟨hs, he.1⟩
        · rw [List.cons_append, List.cons.injEq] at he
          rw [Scan.run_cons, ← he.1]
          exact h before after he.2
      · intro h before after he
        exact h (c :: before) after (by rw [he, List.cons_append])

/-- Where a text has no cut, the cut of a longer text is that of the part after
it. -/
theorem cutFrom_append {mark : Char} {scan : Scan} {cs : List Char}
    (h : cutFrom mark scan cs = none) (ds : List Char) :
    cutFrom mark scan (cs ++ ds) =
      (cutFrom mark (scan.run cs) ds).map fun (before, after) => (cs ++ before, after) := by
  induction cs generalizing scan with
  | nil => simp
  | cons c cs ih =>
    rw [cutFrom] at h
    split at h
    · simp at h
    · next hc =>
      rw [Option.map_eq_none_iff] at h
      rw [List.cons_append, cutFrom, if_neg hc, ih h, Option.map_map, Scan.run_cons]
      rfl

/-- A cut falls where the mark first stands outside parentheses and quotes. -/
theorem cutFrom_eq_some_iff {mark : Char} {scan : Scan} {cs before after : List Char} :
    cutFrom mark scan cs = some (before, after) ↔
      cs = before ++ mark :: after ∧ scan.run before = .plain 0 ∧
        cutFrom mark scan before = none := by
  constructor
  · intro h
    refine ⟨cutFrom_eq_some h, ?_⟩
    induction cs generalizing scan before with
    | nil => cases h
    | cons c cs ih =>
      rw [cutFrom] at h
      split at h
      · next hc =>
        cases h
        exact ⟨hc.1, rfl⟩
      · next hc =>
        obtain ⟨⟨b, a⟩, hb, he⟩ := Option.map_eq_some_iff.1 h
        cases he
        obtain ⟨hrun, hnone⟩ := ih hb
        rw [cutFrom, if_neg hc, hnone]
        exact ⟨hrun, rfl⟩
  · intro h
    obtain ⟨hcs, hrun, hnone⟩ := h
    rw [hcs, cutFrom_append hnone, hrun, cutFrom, if_pos ⟨rfl, rfl⟩]
    simp

/-- A text that closes nothing from outside is scanned inside parentheses as it
is outside of them. -/
theorem run_inside {scan : Scan} {cs : List Char} (h : cutFrom ')' scan cs = none) (n : Nat) :
    (scan.inside n).run cs = (scan.run cs).inside n := by
  induction cs generalizing scan with
  | nil => rfl
  | cons c cs ih =>
    rw [cutFrom] at h
    split at h
    · simp at h
    · next hc =>
      rw [Option.map_eq_none_iff] at h
      rw [Scan.run_cons, Scan.run_cons, Scan.step_inside hc, ih h]

/-- Inside parentheses such a text has no cut at all. -/
theorem cutFrom_inside_succ {scan : Scan} {cs : List Char} (h : cutFrom ')' scan cs = none)
    (mark : Char) (n : Nat) : cutFrom mark (scan.inside (n + 1)) cs = none := by
  induction cs generalizing scan with
  | nil => rfl
  | cons c cs ih =>
    rw [cutFrom] at h
    split at h
    · simp at h
    · next hc =>
      rw [Option.map_eq_none_iff] at h
      have hout : ¬(scan.inside (n + 1) = .plain 0 ∧ c = mark) :=
        fun hs => Scan.inside_succ_ne scan n hs.1
      rw [cutFrom, if_neg hout, Scan.step_inside hc, ih h, Option.map_none]

/-! ## Balanced texts -/

/-- A scan of the text that starts outside all parentheses and quotes never comes
to a closing parenthesis there, and ends there. -/
structure Balanced (cs : List Char) : Prop where
  closes_own : ∀ before after, cs = before ++ ')' :: after →
    Scan.run (.plain 0) before ≠ .plain 0
  ends_level : Scan.run (.plain 0) cs = .plain 0

theorem balanced_iff {cs : List Char} :
    Balanced cs ↔ cutAt ')' cs = none ∧ Scan.run (.plain 0) cs = .plain 0 :=
  ⟨fun h => ⟨cutFrom_eq_none_iff.2 h.closes_own, h.ends_level⟩,
    fun h => ⟨cutFrom_eq_none_iff.1 h.1, h.2⟩⟩

instance (cs : List Char) : Decidable (Balanced cs) :=
  decidable_of_iff _ balanced_iff.symm

/-- A balanced text is left at the depth at which it is entered. -/
theorem Balanced.run {cs : List Char} (h : Balanced cs) (depth : Nat) :
    Scan.run (.plain depth) cs = .plain depth := by
  have hd : Scan.plain depth = Scan.inside depth (.plain 0) := by
    rw [Scan.inside, Nat.zero_add]
  rw [hd, run_inside (balanced_iff.1 h).1, h.ends_level]

/-- A cut at a closing parenthesis passes over a balanced text. -/
theorem Balanced.cutAt_append {cs : List Char} (h : Balanced cs) (ds : List Char) :
    cutAt ')' (cs ++ ds) =
      (cutAt ')' ds).map fun (before, after) => (cs ++ before, after) := by
  rw [cutAt, cutFrom_append (balanced_iff.1 h).1, h.ends_level]
  rfl

/-- The parenthesis that closes a group with balanced contents is found. -/
theorem Balanced.cutAt_closing {cs : List Char} (h : Balanced cs) (rest : List Char) :
    cutAt ')' (cs ++ ')' :: rest) = some (cs, rest) := by
  rw [h.cutAt_append, cutAt, cutFrom, if_pos ⟨rfl, rfl⟩]
  simp

theorem Balanced.append {cs ds : List Char} (hc : Balanced cs) (hd : Balanced ds) :
    Balanced (cs ++ ds) := by
  rw [balanced_iff]
  constructor
  · rw [hc.cutAt_append, (balanced_iff.1 hd).1, Option.map_none]
  · rw [Scan.run_append, hc.ends_level, hd.ends_level]

theorem Balanced.group {cs : List Char} (h : Balanced cs) :
    Balanced ('(' :: (cs ++ [')'])) := by
  have hopen : Scan.step (.plain 0) '(' = .plain 1 := rfl
  have hclose : Scan.step (.plain 1) ')' = .plain 0 := rfl
  rw [balanced_iff]
  constructor
  · have hnone : cutFrom ')' (.plain 1) cs = none :=
      cutFrom_inside_succ (balanced_iff.1 h).1 ')' 0
    rw [cutAt, cutFrom, if_neg (by decide), hopen, cutFrom_append hnone, h.run]
    rfl
  · rw [Scan.run_cons, hopen, Scan.run_append, h.run, Scan.run_cons, hclose, Scan.run_nil]

/-! ## Texts without parentheses and quotes -/

/-- Whether a character is neither a parenthesis nor a quote. -/
def isPlain (c : Char) : Bool := !Scan.isQuote c && c != '(' && c != ')'

theorem step_of_isPlain {c : Char} (h : isPlain c = true) (depth : Nat) :
    Scan.step (.plain depth) c = .plain depth := by
  simp only [isPlain, Bool.and_eq_true, Bool.not_eq_true', bne_iff_ne, ne_eq] at h
  rw [Scan.step, if_neg (by rw [h.1.1]; decide), if_neg h.1.2, if_neg h.2]

theorem run_of_isPlain {cs : List Char} (h : ∀ c ∈ cs, isPlain c = true) (depth : Nat) :
    Scan.run (.plain depth) cs = .plain depth := by
  induction cs with
  | nil => rfl
  | cons c cs ih =>
    rw [List.forall_mem_cons] at h
    rw [Scan.run_cons, step_of_isPlain h.1, ih h.2]

theorem cutFrom_of_not_mem {mark : Char} {cs : List Char} (hm : mark ∉ cs) (scan : Scan) :
    cutFrom mark scan cs = none := by
  rw [cutFrom_eq_none_iff]
  intro before after he
  exact absurd (he ▸ by simp) hm

/-- The first mark after a text without parentheses, quotes and marks is found. -/
theorem cutAt_of_isPlain {mark : Char} {cs : List Char} (h : ∀ c ∈ cs, isPlain c = true)
    (hm : mark ∉ cs) (rest : List Char) : cutAt mark (cs ++ mark :: rest) = some (cs, rest) := by
  rw [cutAt, cutFrom_append (cutFrom_of_not_mem hm _), run_of_isPlain h, cutFrom,
    if_pos ⟨rfl, rfl⟩]
  simp

theorem balanced_of_isPlain {cs : List Char} (h : ∀ c ∈ cs, isPlain c = true) :
    Balanced cs where
  closes_own := by
    intro before after he
    have hp := h ')' (by rw [he]; simp)
    exact absurd hp (by decide)
  ends_level := run_of_isPlain h 0

/-! ## Quoted strings -/

/-- What can stand between two quotes: no `quote`, unless after a backslash, and a
backslash only in front of another character. -/
inductive InQuotes (quote : Char) : List Char → Prop
  | nil : InQuotes quote []
  | char {c : Char} {cs : List Char} (hquote : c ≠ quote) (hescape : c ≠ '\\')
      (rest : InQuotes quote cs) : InQuotes quote (c :: cs)
  | escape {c : Char} {cs : List Char} (rest : InQuotes quote cs) :
      InQuotes quote ('\\' :: c :: cs)

theorem Scan.step_quoted {c quote : Char} (hquote : c ≠ quote) (hescape : c ≠ '\\')
    (depth : Nat) : step (.quoted quote depth) c = .quoted quote depth := by
  rw [step, if_neg hescape, if_neg hquote]

theorem InQuotes.run {quote : Char} {cs : List Char} (h : InQuotes quote cs) (depth : Nat) :
    Scan.run (.quoted quote depth) cs = .quoted quote depth := by
  induction h with
  | nil => rfl
  | char hquote hescape rest ih => rw [Scan.run_cons, Scan.step_quoted hquote hescape, ih]
  | escape rest ih =>
    rw [Scan.run_cons, Scan.run_cons]
    exact ih

/-- No cut falls between quotes. -/
theorem InQuotes.cutFrom {quote : Char} {cs : List Char} (h : InQuotes quote cs) (mark : Char)
    (depth : Nat) : cutFrom mark (.quoted quote depth) cs = none := by
  induction h with
  | nil => rfl
  | char hquote hescape rest ih =>
    rw [Value.cutFrom, if_neg (by simp), Scan.step_quoted hquote hescape, ih, Option.map_none]
  | @escape c cs rest ih =>
    have hback : Scan.step (.quoted quote depth) '\\' = .escaped quote depth := rfl
    have hnext : Scan.step (.escaped quote depth) c = .quoted quote depth := rfl
    rw [Value.cutFrom, if_neg (by simp), hback, Value.cutFrom, if_neg (by simp), hnext, ih,
      Option.map_none, Option.map_none]

theorem InQuotes.balanced {quote : Char} {cs : List Char} (h : InQuotes quote cs)
    (hquote : Scan.isQuote quote = true) : Balanced (quote :: (cs ++ [quote])) := by
  have hparen : quote ≠ ')' := by
    rintro rfl
    exact absurd hquote (by decide)
  have hback : quote ≠ '\\' := by
    rintro rfl
    exact absurd hquote (by decide)
  have hopen : Scan.step (.plain 0) quote = .quoted quote 0 := by
    rw [Scan.step, if_pos hquote]
  have hclose : Scan.step (.quoted quote 0) quote = .plain 0 := by
    rw [Scan.step, if_neg hback, if_pos rfl]
  rw [balanced_iff]
  constructor
  · rw [cutAt, Value.cutFrom, if_neg fun hc => hparen hc.2, hopen,
      cutFrom_append (h.cutFrom ')' 0), h.run, Value.cutFrom, if_neg (by simp)]
    rfl
  · rw [Scan.run_cons, hopen, Scan.run_append, h.run, Scan.run_cons, hclose, Scan.run_nil]

/-! ## Where a call is found -/

/-- What a call starts with. -/
def callStart : List Char := ['v', 'a', 'r', '(']

@[simp] theorem cutCall_callStart (cs : List Char) :
    cutCall (callStart ++ cs) = some ([], cs) := rfl

theorem Balanced.call {arguments : List Char} (h : Balanced arguments) :
    Balanced (callStart ++ (arguments ++ [')'])) := by
  have hname : Balanced ['v', 'a', 'r'] := by decide
  exact hname.append h.group

/-- There is no cut at a call exactly if the text has no `var(` in it. -/
theorem cutCall_eq_none_iff {cs : List Char} : cutCall cs = none ↔ ¬callStart <:+: cs := by
  constructor
  · rintro h ⟨before, after, rfl⟩
    induction before with
    | nil => simp at h
    | cons c before ih =>
      apply ih
      simp only [List.cons_append] at h
      unfold cutCall at h
      split at h
      · simp at h
      · next heq =>
        rw [List.cons.injEq] at heq
        rw [← heq.2] at h
        exact Option.map_eq_none_iff.1 h
      · next heq => simp at heq
  · intro h
    cases hc : cutCall cs with
    | none => rfl
    | some cut =>
      obtain ⟨before, after⟩ := cut
      have he := cutCall_eq_some hc
      exact absurd ⟨before, after, by rw [he]; simp [callStart]⟩ h

/-- Where no call starts, one that is found starts further on. -/
theorem cutCall_cons {c : Char} {cs : List Char} (h : ¬callStart <+: c :: cs) :
    cutCall (c :: cs) = (cutCall cs).map fun (before, after) => (c :: before, after) := by
  rw [cutCall]
  rintro rest rfl rfl
  exact h ⟨rest, rfl⟩

end Cascade.Value
