import Mathlib.Algebra.GroupWithZero.Nat
import Cascade.Condition.Compile

/-!
# The size of compiled chains

A compiled conjunction has the rest of its items inside each item. If every item
is a hook, under any number of negations, each of them writes what it is given in
place of one literal exactly once, so the value grows by the size of one item for
each of them. A disjunction is a conjunction of negations with the literals
exchanged.

A `Frame` is what is written around such a place. The frame of a chain is made of
the frames of its items, one inside the other (`exists_frame_all`), and its size
is the sum of theirs. Sizes are in bytes.
-/

namespace Cascade

/-- What is written before and after the place of a text. -/
structure Frame where
  before : String
  after : String

namespace Frame

/-- A text in its place. -/
def fill (frame : Frame) (s : String) : String := frame.before ++ s ++ frame.after

/-- How much is written around the place. -/
def size (frame : Frame) : Nat := frame.before.utf8ByteSize + frame.after.utf8ByteSize

/-- The place of the inner frame, when that stands in the place of the outer one. -/
def around (outer inner : Frame) : Frame :=
  ⟨outer.before ++ inner.before, inner.after ++ outer.after⟩

theorem fill_around (outer inner : Frame) (s : String) :
    (outer.around inner).fill s = outer.fill (inner.fill s) := by
  simp only [around, fill, String.append_assoc]

theorem size_around (outer inner : Frame) : (outer.around inner).size = outer.size + inner.size := by
  simp only [around, size, String.utf8ByteSize_append]
  omega

theorem utf8ByteSize_fill (frame : Frame) (s : String) :
    (frame.fill s).utf8ByteSize = frame.size + s.utf8ByteSize := by
  simp only [fill, size, String.utf8ByteSize_append]
  omega

end Frame

namespace Condition

/-! ## One item -/

/-- The condition under a number of negations. -/
def negations {α : Type} : Nat → Condition α → Condition α
  | 0, c => c
  | n + 1, c => not (negations n c)

/-- What the two references to a hook take besides the literals. -/
def referencesSize (id : HookId) : Nat := 23 + 2 * id.text.utf8ByteSize

theorem utf8ByteSize_property (toggle : Toggle) :
    toggle.property.utf8ByteSize = 4 + toggle.id.text.utf8ByteSize := by
  have hhyphens : "--".utf8ByteSize = 2 := rfl
  have hbit : (if toggle.on then "-1" else "-0").utf8ByteSize = 2 := by
    cases toggle.on <;> rfl
  rw [Toggle.property, String.utf8ByteSize_append, String.utf8ByteSize_append, hhyphens, hbit]
  omega

/-- The place of the first literal. -/
def firstPlace (id : HookId) (ifFalse : String) : Frame :=
  ⟨"var(" ++ id.on ++ ", ", ") var(" ++ id.off ++ ", " ++ ifFalse ++ ")"⟩

/-- The place of the second literal. -/
def secondPlace (id : HookId) (ifTrue : String) : Frame :=
  ⟨"var(" ++ id.on ++ ", " ++ ifTrue ++ ") var(" ++ id.off ++ ", ", ")"⟩

theorem compileHook_eq_fill_first (id : HookId) (t f : String) :
    compileHook id t f = (firstPlace id f).fill t := by
  show _ = "var(" ++ id.on ++ ", " ++ t ++ (") var(" ++ id.off ++ ", " ++ f ++ ")")
  simp only [compileHook_eq, String.append_assoc]

theorem compileHook_eq_fill_second (id : HookId) (t f : String) :
    compileHook id t f = (secondPlace id t).fill f := rfl

theorem utf8ByteSize_compileHook (id : HookId) (t f : String) :
    (compileHook id t f).utf8ByteSize =
      referencesSize id + (t.utf8ByteSize + f.utf8ByteSize) := by
  have hopen : "var(".utf8ByteSize = 4 := rfl
  have hcomma : ", ".utf8ByteSize = 2 := rfl
  have hbetween : ") var(".utf8ByteSize = 6 := rfl
  have hclose : ")".utf8ByteSize = 1 := rfl
  have hon : id.on.utf8ByteSize = 4 + id.text.utf8ByteSize := utf8ByteSize_property ⟨id, true⟩
  have hoff : id.off.utf8ByteSize = 4 + id.text.utf8ByteSize := utf8ByteSize_property ⟨id, false⟩
  simp only [compileHook_eq, referencesSize, String.utf8ByteSize_append]
  omega

/-- A hook under negations has one place for each of the two literals, whatever the
other one is. -/
theorem exists_frame_negations (id : HookId) (n : Nat) (other : String) :
    (∃ frame : Frame, frame.size = referencesSize id + other.utf8ByteSize ∧
      ∀ s, (negations n (leaf id)).compile s other = frame.fill s) ∧
    (∃ frame : Frame, frame.size = referencesSize id + other.utf8ByteSize ∧
      ∀ s, (negations n (leaf id)).compile other s = frame.fill s) := by
  induction n with
  | zero =>
    constructor
    · refine ⟨firstPlace id other, ?_, fun s => compileHook_eq_fill_first id s other⟩
      have hsize := utf8ByteSize_compileHook id "" other
      rw [compileHook_eq_fill_first, Frame.utf8ByteSize_fill] at hsize
      omega
    · refine ⟨secondPlace id other, ?_, fun s => compileHook_eq_fill_second id other s⟩
      have hsize := utf8ByteSize_compileHook id other ""
      rw [compileHook_eq_fill_second, Frame.utf8ByteSize_fill] at hsize
      omega
  | succ n ih => exact ⟨ih.2, ih.1⟩

/-! ## Chains -/

/-- The hooks with their numbers of negations, as conditions. -/
def chain (items : List (HookId × Nat)) : List (Condition HookId) :=
  items.map fun item => negations item.2 (leaf item.1)

/-- What the references to the hooks of a chain take besides the literals. -/
def chainSize (items : List (HookId × Nat)) : Nat :=
  (items.map fun item => referencesSize item.1).sum

/-- A conjunction has what its last items choose in the place of its first ones. -/
theorem compile_all_append (cs ds : List (Condition HookId)) (t f : String) :
    (all (cs ++ ds)).compile t f = (all cs).compile ((all ds).compile t f) f := by
  simp only [compile_all, List.foldr_append]

/-- A disjunction is written as the conjunction of the negations, for the other
outcome. -/
theorem compile_any_eq_all (cs : List (Condition HookId)) (t f : String) :
    (any cs).compile t f = (all (cs.map not)).compile f t := by
  simp only [compile_any, compile_all, List.foldr_map, compile_not]

/-- A conjunction of hooks has one place for the literal for true, and one copy of
the literal for false for each of its hooks. -/
theorem exists_frame_all (items : List (HookId × Nat)) (f : String) :
    ∃ frame : Frame, frame.size = chainSize items + items.length * f.utf8ByteSize ∧
      ∀ s, (all (chain items)).compile s f = frame.fill s := by
  induction items with
  | nil => exact ⟨⟨"", ""⟩, by simp [Frame.size, chainSize], by simp [chain, Frame.fill]⟩
  | cons item items ih =>
    obtain ⟨outer, hsize, houter⟩ := (exists_frame_negations item.1 item.2 f).1
    obtain ⟨inner, hsizes, hinner⟩ := ih
    refine ⟨outer.around inner, ?_, ?_⟩
    · have hsum : chainSize (item :: items) = referencesSize item.1 + chainSize items := rfl
      rw [Frame.size_around, hsize, hsizes, hsum, List.length_cons, Nat.add_one_mul]
      omega
    · intro s
      rw [Frame.fill_around, ← hinner, ← houter]
      rfl

theorem chain_map_not (items : List (HookId × Nat)) :
    (chain items).map not = chain (items.map fun item => (item.1, item.2 + 1)) := by
  simp only [chain, List.map_map]
  rfl

theorem exists_frame_any (items : List (HookId × Nat)) (t : String) :
    ∃ frame : Frame, frame.size = chainSize items + items.length * t.utf8ByteSize ∧
      ∀ s, (any (chain items)).compile t s = frame.fill s := by
  obtain ⟨frame, hsize, hframe⟩ :=
    exists_frame_all (items.map fun item => (item.1, item.2 + 1)) t
  refine ⟨frame, ?_, ?_⟩
  · rw [hsize, List.length_map, chainSize, List.map_map]
    rfl
  · intro s
    rw [compile_any_eq_all, chain_map_not, hframe]

/-- In a compiled chain of hooks, each under any number of negations, a hook takes
twenty-three bytes and twice its identifier, besides the literals. A conjunction has
the literal for true once and that for false once for each hook, and a disjunction
the other way round. Whatever follows the chain is written in one place that does not
depend on it. -/
theorem utf8ByteSize_compile_chain (items : List (HookId × Nat)) (t f : String) :
    let hooks := items.map fun item => negations item.2 (leaf item.1)
    let references := (items.map fun item => 23 + 2 * item.1.text.utf8ByteSize).sum
    ((all hooks).compile t f).utf8ByteSize =
      references + (t.utf8ByteSize + items.length * f.utf8ByteSize) ∧
    ((any hooks).compile t f).utf8ByteSize =
      references + (items.length * t.utf8ByteSize + f.utf8ByteSize) ∧
    (∃ before after, ∀ rest s,
      (all (hooks ++ rest)).compile s f = before ++ (all rest).compile s f ++ after) ∧
    (∃ before after, ∀ rest s,
      (any (hooks ++ rest)).compile t s = before ++ (any rest).compile t s ++ after) := by
  intro hooks references
  obtain ⟨frame, hsize, hframe⟩ := exists_frame_all items f
  obtain ⟨frame', hsize', hframe'⟩ := exists_frame_any items t
  have hreferences : chainSize items = references := rfl
  refine ⟨?_, ?_, ⟨frame.before, frame.after, ?_⟩, ⟨frame'.before, frame'.after, ?_⟩⟩
  · show ((all (chain items)).compile t f).utf8ByteSize = _
    rw [hframe, Frame.utf8ByteSize_fill, hsize]
    omega
  · show ((any (chain items)).compile t f).utf8ByteSize = _
    rw [hframe', Frame.utf8ByteSize_fill, hsize']
    omega
  · intro rest s
    rw [compile_all_append]
    exact hframe _
  · intro rest s
    rw [compile_any_eq_all, List.map_append, compile_all_append, ← compile_any_eq_all,
      ← compile_any_eq_all]
    exact hframe' _

end Condition

end Cascade
