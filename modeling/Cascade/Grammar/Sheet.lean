import Cascade.Draft.Basic
import Cascade.Grammar.Expression

/-!
# Reading sheets

A sheet is a sequence of definitions. `hook NAME: TEXT` takes the text of the
hook from the rest of its line, so it is over where the line is. `condition NAME:
EXPRESSION` is over where no operator follows. The two words that start a
definition are written in lower case.

What comes after one of these words has to be right. A text with any other start
ends the sheet, and then nothing but blanks may be left.
-/

namespace Cascade.Grammar

/-- The value, or a failure. -/
def orFail {α : Type} (failure : Failure) : Option α → Except Failure α
  | some a => .ok a
  | none => .error failure

/-- Reads a colon after blanks. -/
def colon (cs : List Char) : Except Failure (List Char) :=
  match skipBlanks cs with
  | ':' :: rest => .ok rest
  | rest => .error ⟨rest, [], none⟩

/-- The name of a hook is a literal or an identifier. -/
def hookName? (cs : List Char) : Option (String × List Char) :=
  (literal? cs).or (identifier? cs)

/-- Reads the text of a hook, which is the rest of the line without the white
space at its end. -/
def hookText (cs : List Char) : Except Failure (Hook × List Char) :=
  let line := cs.takeWhile isInLine
  let rest := cs.dropWhile isInLine
  if atLineEnd rest then
    match Hook.parse (String.ofList (Text.trimEnd line)) with
    | .ok hook => .ok (hook, rest)
    | .error fault => .error ⟨cs, [.hook], some fault⟩
  else
    .error ⟨rest, [.hook], none⟩

/-- Reads the name and the text of a hook. -/
def hookDefinition (cs : List Char) : Except Failure ((String × Hook) × List Char) := do
  let start := skipBlanks cs
  let (name, cs) ← orFail ⟨start, [.hookName], none⟩ (hookName? start)
  let cs ← colon cs
  let (hook, rest) ← hookText (cs.dropWhile fun c => c == ' ' || c == '\t')
  return ((name, hook), rest)

/-- Reads the name of a condition and the condition. -/
def conditionDefinition (cs : List Char) :
    Except Failure ((String × Condition String) × List Char) := do
  let start := skipBlanks cs
  let (name, cs) ← orFail ⟨start, [.conditionName], none⟩ (identifier? start)
  let cs ← colon cs
  let (c, rest) ← (expression cs).mapError (Failure.expecting .conditionBody)
  return ((name, c), rest)

theorem orFail_eq_ok_iff {α : Type} {failure : Failure} {a? : Option α} {a : α} :
    orFail failure a? = .ok a ↔ a? = some a := by
  cases a? <;> simp [orFail]

theorem colon_length {cs rest : List Char} (h : colon cs = .ok rest) :
    rest.length < cs.length := by
  have := length_skipBlanks_le cs
  unfold colon at h
  split at h
  · next hc =>
    simp only [hc, List.length_cons] at this
    simp only [Except.ok.injEq] at h
    subst h
    omega
  · simp at h

theorem hookName?_length {cs rest : List Char} {name : String}
    (h : hookName? cs = some (name, rest)) : rest.length < cs.length := by
  unfold hookName? at h
  rcases Option.or_eq_some_iff.1 h with h | ⟨-, h⟩
  · exact literal?_length h
  · exact identifier?_length h

theorem hookText_length {cs rest : List Char} {hook : Hook}
    (h : hookText cs = .ok (hook, rest)) : rest.length ≤ cs.length := by
  have := length_dropWhile_le isInLine cs
  simp only [hookText] at h
  split at h
  · split at h
    · simp_all
    · simp at h
  · simp at h

theorem hookDefinition_length {cs rest : List Char} {d : String × Hook}
    (h : hookDefinition cs = .ok (d, rest)) : rest.length ≤ cs.length := by
  simp only [hookDefinition, bind, Except.bind] at h
  split at h
  · simp at h
  next n hn =>
  split at h
  · simp at h
  next r hr =>
  split at h
  · simp at h
  next b hb =>
  simp only [pure, Except.pure, Except.ok.injEq, Prod.mk.injEq] at h
  have h₀ := length_skipBlanks_le cs
  have h₁ := hookName?_length (orFail_eq_ok_iff.1 hn)
  have h₂ := colon_length hr
  have h₃ := hookText_length hb
  have h₄ := length_dropWhile_le (fun c => c == ' ' || c == '\t') r
  simp only [← h.2]
  omega

theorem conditionDefinition_length {cs rest : List Char} {d : String × Condition String}
    (h : conditionDefinition cs = .ok (d, rest)) : rest.length ≤ cs.length := by
  simp only [conditionDefinition, bind, Except.bind] at h
  split at h
  · simp at h
  next n hn =>
  split at h
  · simp at h
  next r hr =>
  split at h
  · simp at h
  next b hb =>
  simp only [pure, Except.pure, Except.ok.injEq, Prod.mk.injEq] at h
  have h₀ := length_skipBlanks_le cs
  have h₁ := identifier?_length (orFail_eq_ok_iff.1 hn)
  have h₂ := colon_length hr
  have h₃ : b.2.length ≤ r.length := by
    cases he : expression r with
    | error f =>
      rw [he] at hb
      exact absurd hb nofun
    | ok v =>
      rw [he] at hb
      have hv : v = b := Except.ok.inj hb
      subst hv
      exact expression_length he
  simp only [← h.2]
  omega

/-- Reads definitions as long as one starts, and gives the text after them. -/
def definitions (cs : List Char) : Except Failure (Draft × List Char) :=
  match _h : identifier? (skipBlanks cs) with
  | some ("hook", rest) =>
    match _h' : hookDefinition rest with
    | .error failure => .error failure
    | .ok ((name, hook), rest) =>
      (definitions rest).map fun (draft, rest) => (draft.consHook name hook, rest)
  | some ("condition", rest) =>
    match _h' : conditionDefinition rest with
    | .error failure => .error failure
    | .ok ((name, c), rest) =>
      (definitions rest).map fun (draft, rest) => (draft.consCondition name c, rest)
  | _ => .ok (.empty, cs)
termination_by cs.length
decreasing_by
  all_goals
    have h₀ := length_skipBlanks_le cs
    have h₁ := identifier?_length _h
  · have h₂ := hookDefinition_length _h'
    omega
  · have h₂ := conditionDefinition_length _h'
    omega

/-- Reads a text that is a sheet. -/
def sheet (cs : List Char) : Except Failure Draft := do
  let (draft, rest) ← definitions cs
  finish draft rest

end Cascade.Grammar
