/-!
# Parentheses and quotes

A declaration value is scanned character by character. Parentheses are counted
outside quotes only, and a backslash inside quotes takes its meaning from the
character after it. `cutAt` cuts a text at the first place where a character
stands outside all parentheses and quotes.
-/

namespace Cascade.Value

/-- Where a scan stands: outside quotes, inside them, or inside them right after
a backslash; and how many parentheses are open. -/
inductive Scan where
  | plain (depth : Nat)
  | quoted (quote : Char) (depth : Nat)
  | escaped (quote : Char) (depth : Nat)
deriving DecidableEq

namespace Scan

/-- Whether a character opens a quoted string. -/
def isQuote (c : Char) : Bool := c == '"' || c == '\x27'

/-- Goes on by one character. A closing parenthesis with none open is passed
over. -/
def step : Scan → Char → Scan
  | plain depth, c =>
    if isQuote c then quoted c depth
    else if c = '(' then plain (depth + 1)
    else if c = ')' then plain (depth - 1)
    else plain depth
  | quoted quote depth, c =>
    if c = '\\' then escaped quote depth
    else if c = quote then plain depth
    else quoted quote depth
  | escaped quote depth, _ => quoted quote depth

end Scan

/-- The texts before and after the first `mark` outside all parentheses and
quotes, for a scan that stands at `scan`. -/
def cutFrom (mark : Char) (scan : Scan) : List Char → Option (List Char × List Char)
  | [] => none
  | c :: cs =>
    if scan = .plain 0 ∧ c = mark then some ([], cs)
    else (cutFrom mark (scan.step c) cs).map fun (before, after) => (c :: before, after)

/-- The texts before and after the first `mark` outside all parentheses and
quotes. -/
def cutAt (mark : Char) (cs : List Char) : Option (List Char × List Char) :=
  cutFrom mark (.plain 0) cs

/-- Cutting takes out the mark and nothing else. -/
theorem cutFrom_eq_some {mark : Char} {scan : Scan} {cs before after : List Char}
    (h : cutFrom mark scan cs = some (before, after)) : cs = before ++ mark :: after := by
  induction cs generalizing scan before with
  | nil => simp [cutFrom] at h
  | cons c cs ih =>
    unfold cutFrom at h
    split at h
    · next hc => simp_all
    · obtain ⟨⟨b, a⟩, hb, he⟩ := Option.map_eq_some_iff.1 h
      simp only [Prod.mk.injEq] at he
      obtain ⟨rfl, rfl⟩ := he
      simp [ih hb]

theorem cutAt_eq_some {mark : Char} {cs before after : List Char}
    (h : cutAt mark cs = some (before, after)) : cs = before ++ mark :: after :=
  cutFrom_eq_some h

/-- The texts before and after the first `var(`, wherever it stands. -/
def cutCall : List Char → Option (List Char × List Char)
  | 'v' :: 'a' :: 'r' :: '(' :: cs => some ([], cs)
  | c :: cs => (cutCall cs).map fun (before, after) => (c :: before, after)
  | [] => none

theorem cutCall_eq_some {cs before after : List Char}
    (h : cutCall cs = some (before, after)) :
    cs = before ++ 'v' :: 'a' :: 'r' :: '(' :: after := by
  fun_induction cutCall cs generalizing before with
  | case1 => simp_all
  | case2 c cs _ ih =>
    obtain ⟨⟨b, a⟩, hb, he⟩ := Option.map_eq_some_iff.1 h
    simp only [Prod.mk.injEq] at he
    obtain ⟨rfl, rfl⟩ := he
    simp [ih hb]
  | case3 => simp at h

end Cascade.Value
