import Cascade.Grammar.Failure
import Cascade.Grammar.Token

/-!
# Reading conditions

`NOT` binds most tightly, then `AND`, then `OR`. Operands joined by one operator
become the items of one node, and a lone operand stays as it is.

The reader goes through the tokens once. It keeps what it has read at the current
level of parentheses, and a stack of the levels around it. It has two states: an
operand has to come, or an operator may.

## Which failure is reported

A level is *committed* once an operator has been read on it. If an operand is
missing on a level that is not committed, the parenthesis that opened the level
is no operand, and that is reported in place of what is missing inside.
Everything around a committed level is told what was expected there.
-/

namespace Cascade.Grammar

/-- Negates a condition a number of times. -/
def negated : Nat → Condition String → Condition String
  | 0, c => c
  | n + 1, c => .not (negated n c)

/-- Joins operands to a node; a lone one stays as it is. -/
def chain (node : List (Condition String) → Condition String) :
    List (Condition String) → Condition String
  | [c] => c
  | items => node items

/-- What has been read on one level of parentheses, last first: the operands of
`OR` that are complete, those of `AND` in the operand of `OR` after them, and
the number of `NOT`s since. -/
structure Level where
  disjuncts : List (Condition String)
  conjuncts : List (Condition String)
  negations : Nat

namespace Level

/-- A level on which nothing has been read. -/
def fresh : Level := ⟨[], [], 0⟩

/-- Whether an operator has been read. -/
def committed (level : Level) : Bool :=
  level.negations != 0 || !level.conjuncts.isEmpty || !level.disjuncts.isEmpty

/-- Takes one more `NOT`. -/
def negate (level : Level) : Level := { level with negations := level.negations + 1 }

/-- Takes an operand. -/
def push (level : Level) (c : Condition String) : Level :=
  ⟨level.disjuncts, negated level.negations c :: level.conjuncts, 0⟩

/-- The operand of `OR` that is being read. -/
def disjunct (level : Level) : Condition String :=
  chain .all level.conjuncts.reverse

/-- Takes an `OR`. -/
def next (level : Level) : Level := ⟨level.disjunct :: level.disjuncts, [], 0⟩

/-- The condition on the level. -/
def result (level : Level) : Condition String :=
  chain .any (level.disjunct :: level.disjuncts).reverse

end Level

/-- An open parenthesis: the text from it on, and the level it stands on. -/
structure Group where
  opening : List Char
  outer : Level

/-- The failure as it is seen outside of all groups. It passes out of a committed
level with a word added, and out of any other as a failure of the group. -/
def Failure.leave (failure : Failure) (committed : Bool) : List Group → Failure
  | [] => failure
  | group :: groups =>
    if committed then
      (failure.expecting .condition).leave true groups
    else
      Failure.leave ⟨group.opening, [.condition], none⟩ group.outer.committed groups

/-- The condition ends where no operator follows, and the blanks in front of that
place are left unread. Inside a group that is a failure. -/
def stop (level : Level) (groups : List Group) (cs : List Char) :
    Except Failure (Condition String × List Char) :=
  match groups with
  | [] => .ok (level.result, cs)
  | _ :: _ => .error (Failure.leave ⟨skipBlanks cs, [], none⟩ true groups)

theorem stop_length {level : Level} {groups : List Group} {cs rest : List Char}
    {c : Condition String} (h : stop level groups cs = .ok (c, rest)) :
    rest.length ≤ cs.length := by
  unfold stop at h
  split at h
  · simp_all
  · simp at h

mutual

/-- Reads an operand and whatever comes after it. -/
def operand (level : Level) (groups : List Group) (cs : List Char) :
    Except Failure (Condition String × List Char) :=
  match _h : Token.next? cs with
  | some (.not, rest) => operand level.negate groups rest
  | some (.opening, rest) => operand .fresh (⟨skipBlanks cs, level⟩ :: groups) rest
  | some (.operand c, rest) => operator (level.push c) groups rest
  | _ => .error (Failure.leave ⟨skipBlanks cs, [.condition], none⟩ level.committed groups)
termination_by cs.length
decreasing_by
  all_goals exact Token.next?_length _h

/-- Goes on after an operand. -/
def operator (level : Level) (groups : List Group) (cs : List Char) :
    Except Failure (Condition String × List Char) :=
  match _h : Token.next? cs with
  | some (.and, rest) => operand level groups rest
  | some (.or, rest) => operand level.next groups rest
  | some (.closing, rest) =>
    match groups with
    | [] => stop level [] cs
    | group :: groups => operator (group.outer.push level.result) groups rest
  | _ => stop level groups cs
termination_by cs.length
decreasing_by
  all_goals exact Token.next?_length _h

end

/-- Both states leave at most the text they were given. -/
theorem length_le_of_ok (n : Nat) :
    (∀ level groups cs c rest, cs.length ≤ n → operand level groups cs = .ok (c, rest) →
      rest.length ≤ cs.length) ∧
    (∀ level groups cs c rest, cs.length ≤ n → operator level groups cs = .ok (c, rest) →
      rest.length ≤ cs.length) := by
  induction n using Nat.strongRecOn with
  | ind n ih =>
    have shorter {token rest cs} (hn : cs.length ≤ n)
        (h : Token.next? cs = some (token, rest)) :
        rest.length < n ∧ rest.length < cs.length := by
      have := Token.next?_length h
      omega
    constructor
    · intro level groups cs c rest hn h
      rw [operand] at h
      split at h
      · next ht =>
        have := shorter hn ht
        have := (ih _ this.1).1 _ _ _ _ _ (Nat.le_refl _) h
        omega
      · next ht =>
        have := shorter hn ht
        have := (ih _ this.1).1 _ _ _ _ _ (Nat.le_refl _) h
        omega
      · next ht =>
        have := shorter hn ht
        have := (ih _ this.1).2 _ _ _ _ _ (Nat.le_refl _) h
        omega
      · simp at h
    · intro level groups cs c rest hn h
      rw [operator] at h
      split at h
      · next ht =>
        have := shorter hn ht
        have := (ih _ this.1).1 _ _ _ _ _ (Nat.le_refl _) h
        omega
      · next ht =>
        have := shorter hn ht
        have := (ih _ this.1).1 _ _ _ _ _ (Nat.le_refl _) h
        omega
      · next ht =>
        have := shorter hn ht
        split at h
        · exact stop_length h
        · have := (ih _ this.1).2 _ _ _ _ _ (Nat.le_refl _) h
          omega
      · exact stop_length h

/-- Reads a condition, and gives the text after it. -/
def expression (cs : List Char) : Except Failure (Condition String × List Char) :=
  operand .fresh [] cs

theorem expression_length {cs rest : List Char} {c : Condition String}
    (h : expression cs = .ok (c, rest)) : rest.length ≤ cs.length :=
  (length_le_of_ok cs.length).1 _ _ _ _ _ (Nat.le_refl _) h

/-- Accepts a text of which only blanks are left. -/
def finish {α : Type} (a : α) (cs : List Char) : Except Failure α :=
  match skipBlanks cs with
  | [] => .ok a
  | rest => .error ⟨rest, [], none⟩

/-- Reads a text that is one condition with blanks around it. -/
def condition (cs : List Char) : Except Failure (Condition String) := do
  let (c, rest) ← expression cs
  finish c rest

end Cascade.Grammar
