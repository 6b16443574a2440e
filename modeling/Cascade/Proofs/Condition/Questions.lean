import Cascade.Proofs.Condition.Resolution
import Cascade.Proofs.Distinct

/-!
# Questions about hooks

Evaluating a condition asks about its leaves from left to right and stops where
the rest of a node does not matter. Resolving the value that the condition is
compiled to asks about the same hooks, each twice as often.

There are three groups.

* `Condition.questions` are the leaves that evaluation asks about.
* Choices that keep a record. A reference to an inactive hook is followed at once
  by the other one, and between the two references to an active hook there is
  everything else that is asked (`choose_askedAt`).
* Resolution. What it asks is the record of such a choice
  (`asked_compile_eq_choose`).
-/

namespace Cascade

namespace Condition

/-! ## Evaluating -/

section Questions

variable {α : Type} (holds : α → Bool) (c : Condition α) (cs : List (Condition α))

/-- The leaves that evaluation asks about, in order. -/
def questions : List α := (c.evalM (Logged.ask holds)).log

/-- Evaluation with questions comes to the truth of the condition. -/
theorem value_evalM : (c.evalM (Logged.ask holds)).value = c.eval holds := by
  induction c using consInduction with
  | leaf a => rfl
  | all_nil => rfl
  | all_cons c cs ih ihs =>
    rw [evalM_all] at ihs ⊢
    rw [List.allM, Logged.value_bind, ih, eval_all_cons]
    cases c.eval holds with
    | true => exact ihs
    | false => rfl
  | any_nil => rfl
  | any_cons c cs ih ihs =>
    rw [evalM_any] at ihs ⊢
    rw [List.anyM, Logged.value_bind, ih, eval_any_cons]
    cases c.eval holds with
    | true => rfl
    | false => exact ihs
  | not c ih => rw [evalM_not, Logged.value_map, ih, eval_not]

@[simp] theorem questions_leaf (a : α) : (leaf a).questions holds = [a] := rfl

@[simp] theorem questions_not : (not c).questions holds = c.questions holds := by
  rw [questions, evalM_not, Logged.log_map, questions]

/-- The other items of a conjunction are asked about if the first one is true. -/
theorem questions_all_cons :
    (all (c :: cs)).questions holds =
      c.questions holds ++ if c.eval holds then (all cs).questions holds else [] := by
  rw [questions, evalM_all, List.allM, Logged.log_bind, value_evalM, questions, questions,
    evalM_all]
  cases c.eval holds <;> rfl

/-- The other items of a disjunction are asked about if the first one is false. -/
theorem questions_any_cons :
    (any (c :: cs)).questions holds =
      c.questions holds ++ if c.eval holds then [] else (any cs).questions holds := by
  rw [questions, evalM_any, List.anyM, Logged.log_bind, value_evalM, questions, questions,
    evalM_any]
  cases c.eval holds <;> rfl

end Questions

/-! ## Choices that keep a record -/

variable {isActive : HookId → Bool} {id : HookId}

/-- What the two references to a hook ask, given what is asked by the literals. -/
def askedAt (isActive : HookId → Bool) (id : HookId) (first second : List HookId) : List HookId :=
  if isActive id then id :: (first ++ [id]) else id :: id :: second

/-- What is asked before the selected literal is come to: the first question about
each active hook, and both about each of the others. -/
def askedBefore (isActive : HookId → Bool) (ids : List HookId) : List HookId :=
  ids.flatMap fun id => List.replicate ((if isActive id then 0 else 1) + 1) id

/-- What is asked after the selected literal: the second question about each active
hook, the hook that was asked about last first. -/
def askedAfter (isActive : HookId → Bool) (ids : List HookId) : List HookId :=
  (ids.filter isActive).reverse

theorem askedBefore_append (ids ids' : List HookId) :
    askedBefore isActive (ids ++ ids') = askedBefore isActive ids ++ askedBefore isActive ids' :=
  List.flatMap_append

theorem askedAfter_append (ids ids' : List HookId) :
    askedAfter isActive (ids ++ ids') = askedAfter isActive ids' ++ askedAfter isActive ids := by
  rw [askedAfter, List.filter_append, List.reverse_append]
  rfl

/-- The record of a choice is that of the selected alternative, with the questions
of evaluation around it. -/
theorem choose_askedAt (c : Condition HookId) (first second : List HookId) :
    c.choose (askedAt isActive) first second =
      askedBefore isActive (c.questions isActive) ++
        ((if c.eval isActive then first else second) ++
          askedAfter isActive (c.questions isActive)) := by
  induction c using consInduction generalizing first second with
  | leaf id =>
    rw [choose_leaf, askedAt, eval_leaf, questions_leaf]
    cases hactive : isActive id <;> simp [askedBefore, askedAfter, hactive]
  | all_nil => simp [askedBefore, askedAfter, questions, List.allM]
  | all_cons c cs ih ihs =>
    rw [choose_all_cons, ih, ihs, eval_all_cons, questions_all_cons]
    cases c.eval isActive with
    | true => simp [askedBefore_append, askedAfter_append]
    | false => simp
  | any_nil => simp [askedBefore, askedAfter, questions, List.anyM]
  | any_cons c cs ih ihs =>
    rw [choose_any_cons, ih, ihs, eval_any_cons, questions_any_cons]
    cases c.eval isActive with
    | true => simp
    | false => simp [askedBefore_append, askedAfter_append]
  | not c ih =>
    rw [choose_not, ih, eval_not, questions_not]
    cases c.eval isActive <;> rfl

/-! ## Resolving -/

open Value
open Logged (value_run_bind value_run_map log_run_bind log_run_map)

theorem log_askState_bind {β : Type} (next : Resolution β) :
    (askState isActive id >>= fun _ => next).run.log = id :: next.run.log :=
  log_run_bind rfl _

/-- Literals that are resolved without failing are resolved in the two references
to a hook, with the questions about the hook around them. -/
theorem run_references (isActive : HookId → Bool) (id : HookId)
    {first second : Resolution (List Char)} {v w : List Char} (hfirst : first.run.value = .ok v)
    (hsecond : second.run.value = .ok w) :
    (∃ value, (references isActive id first second).run.value = .ok value) ∧
    (references isActive id first second).run.log =
      askedAt isActive id first.run.log second.run.log := by
  rw [references, askedAt]
  split
  · constructor
    · rw [value_askState_bind, value_run_bind, hfirst]
      exact ⟨v ++ [' '], rfl⟩
    · rw [log_askState_bind, log_run_bind hfirst, log_askState_bind]
      rfl
  · constructor
    · rw [value_askState_bind, value_askState_bind, value_run_bind, hsecond]
      exact ⟨' ' :: w, rfl⟩
    · rw [log_askState_bind, log_askState_bind, log_run_bind hsecond]
      simp

/-- The two readings of a text do not fail and ask the same questions. -/
structure Answered (r : Resolution (List Char) × Resolution (List Char)) : Prop where
  succeeds : ∃ value, r.2.run.value = .ok value
  same_log : r.1.run.log = r.2.run.log

theorem answered_readings (isActive : HookId → Bool) {s : String}
    (h : ¬callStart <:+: s.toList) :
    Answered (readings isActive s) ∧ (readings isActive s).2.run.log = [] := by
  have hcut := cutCall_eq_none_iff.2 h
  have hplain : readings isActive s = (pure s.toList, (' ' :: ·) <$> pure s.toList) := by
    simp only [readings, alone, substitute_blank, substitute_of_no_call hcut]
  rw [hplain]
  exact ⟨⟨⟨_, rfl⟩, rfl⟩, rfl⟩

theorem answered_readingsAt {first second : Resolution (List Char) × Resolution (List Char)}
    (hfirst : Answered first) (hsecond : Answered second) :
    Answered (readingsAt isActive id first second) ∧
    (readingsAt isActive id first second).2.run.log =
      askedAt isActive id first.2.run.log second.2.run.log := by
  obtain ⟨v, hv⟩ := hfirst.succeeds
  obtain ⟨w, hw⟩ := hsecond.succeeds
  obtain ⟨⟨value, hvalue⟩, hlog⟩ := run_references isActive id hv hw
  have hblank : (readingsAt isActive id first second).2.run.log =
      (references isActive id first.2 second.2).run.log := by
    rw [readingsAt, log_run_map]
  refine ⟨⟨⟨' ' :: value, ?_⟩, hblank.symm⟩, hblank.trans hlog⟩
  rw [readingsAt, value_run_map, hvalue]
  rfl

variable {c : Condition HookId} {t f : String}

/-- What is asked in resolving a compiled condition is the record of the choice
that the condition makes. -/
theorem asked_compile_eq_choose (isActive : HookId → Bool)
    (hids : ∀ id ∈ c.leaves, id.WellFormed)
    (ht : Balanced t.toList) (hf : Balanced f.toList)
    (hct : ¬callStart <:+: t.toList) (hcf : ¬callStart <:+: f.toList) :
    asked isActive (c.compile t f) = c.choose (askedAt isActive) [] [] := by
  have hclosed : ∀ id ∈ c.leaves, ∀ x y, Answered x → Answered y →
      Answered (readingsAt isActive id x y) :=
    fun id _ x y hx hy => (answered_readingsAt hx hy).1
  obtain ⟨hta, htlog⟩ := answered_readings isActive hct
  obtain ⟨hfa, hflog⟩ := answered_readings isActive hcf
  have hreadings : readings isActive (c.compile t f) =
      c.choose (readingsAt isActive) (readings isActive t) (readings isActive f) :=
    readings_compile hids ht hf
  have hanswered : Answered (readings isActive (c.compile t f)) := by
    rw [hreadings]
    exact choose_closed hclosed hta hfa
  have hlog : (readings isActive (c.compile t f)).2.run.log =
      c.choose (askedAt isActive) [] [] := by
    rw [hreadings, map_choose (φ := fun r => r.2.run.log) hclosed
      (fun id _ x y hx hy => (answered_readingsAt hx hy).2) hta hfa, htlog, hflog]
  rw [asked, resolution, bind_pure_comp, log_run_map, ← hlog,
    ← hanswered.same_log]
  rfl

/-! ## Resolving asks what evaluating asks -/

theorem mem_askedBefore {ids : List HookId} : id ∈ askedBefore isActive ids ↔ id ∈ ids := by
  simp [askedBefore, List.mem_flatMap, List.mem_replicate]

/-- Both questions about a hook are asked before the literal, or one of them on
either side. -/
theorem count_askedBefore_askedAfter (ids : List HookId) (id : HookId) :
    (askedBefore isActive ids ++ askedAfter isActive ids).count id = 2 * ids.count id := by
  induction ids with
  | nil => rfl
  | cons first ids ih =>
    rw [← List.singleton_append, askedBefore_append, askedAfter_append]
    simp only [List.count_append] at ih ⊢
    have hfirst : (askedBefore isActive [first]).count id +
        (askedAfter isActive [first]).count id = 2 * [first].count id := by
      cases hactive : isActive first with
      | true =>
        have hbefore : askedBefore isActive [first] = [first] := by simp [askedBefore, hactive]
        have hafter : askedAfter isActive [first] = [first] := by simp [askedAfter, hactive]
        rw [hbefore, hafter]
        omega
      | false =>
        have hbefore : askedBefore isActive [first] = [first] ++ [first] := by
          simp [askedBefore, hactive, List.replicate_succ]
        have hafter : askedAfter isActive [first] = [] := by simp [askedAfter, hactive]
        rw [hbefore, hafter, List.count_append, List.count_nil]
        omega
    omega

theorem eraseDups_askedBefore_askedAfter (ids : List HookId) :
    (askedBefore isActive ids ++ askedAfter isActive ids).eraseDups = ids.eraseDups := by
  have hbefore : ∀ id ∈ askedAfter isActive ids, id ∈ askedBefore isActive ids := by
    intro id hid
    rw [askedAfter, List.mem_reverse, List.mem_filter] at hid
    exact mem_askedBefore.2 hid.1
  rw [eraseDups_append_of_subset hbefore]
  exact eraseDups_flatMap_replicate _ ids

/-- In resolving the value that a condition is compiled to, with literals that ask
nothing themselves, every hook is asked about twice as often as in evaluating the
condition, and the hooks come up in the same order. A hook that evaluation does not
ask about is not asked about.

To be exact, the questions of evaluation are asked in order, those about inactive
hooks twice, and then those about active hooks once more in the opposite order. -/
theorem asked_compile (c : Condition HookId) (isActive : HookId → Bool) (t f : String)
    (hids : ∀ id ∈ c.leaves, id.WellFormed)
    (ht : Balanced t.toList) (hf : Balanced f.toList)
    (hct : ¬"var(".toList <:+: t.toList) (hcf : ¬"var(".toList <:+: f.toList) :
    let evaluation := c.evalM (Logged.ask isActive)
    let asked := Value.asked isActive (c.compile t f)
    evaluation.value = c.eval isActive ∧
    (∀ id, asked.count id = 2 * evaluation.log.count id) ∧
    asked.eraseDups = evaluation.log.eraseDups ∧
    (∀ id, id ∉ evaluation.log → id ∉ asked) ∧
    asked = (evaluation.log.flatMap fun id => if isActive id then [id] else [id, id]) ++
      (evaluation.log.filter isActive).reverse := by
  intro evaluation asked
  have hasked : asked =
      askedBefore isActive evaluation.log ++ askedAfter isActive evaluation.log := by
    have := asked_compile_eq_choose isActive hids ht hf hct hcf
    rwa [choose_askedAt, ite_self, List.nil_append] at this
  have hcount : ∀ id, asked.count id = 2 * evaluation.log.count id := by
    rw [hasked]
    exact count_askedBefore_askedAfter evaluation.log
  refine ⟨value_evalM isActive c, hcount, ?_, ?_, ?_⟩
  · rw [hasked, eraseDups_askedBefore_askedAfter]
  · intro id hid
    rw [← List.count_eq_zero, hcount, List.count_eq_zero.2 hid]
  · have hbefore : ∀ id, List.replicate ((if isActive id then 0 else 1) + 1) id =
        if isActive id then [id] else [id, id] := by
      intro id
      cases isActive id <;> rfl
    simp only [hasked, askedBefore, askedAfter, hbefore]

/-- Two leaves are the same hook, and of three nodes each stops before its last
leaf. -/
theorem asked_compile_repeated :
    let dark : HookId := ⟨"dark"⟩
    let hover : HookId := ⟨"hover"⟩
    let print : HookId := ⟨"print"⟩
    let c : Condition HookId := all [leaf dark, not (all [leaf hover, leaf print]),
      any [leaf dark, leaf print], any [], leaf print]
    let isActive (id : HookId) : Bool := id == dark
    let asked := Value.asked isActive (c.compile "f(x)" "\")\"")
    (∀ id ∈ c.leaves, id.WellFormed) ∧ asked.count dark = 4 ∧ asked.count hover = 2 ∧
      asked.eraseDups = [dark, hover] ∧ print ∉ asked := by
  intro dark hover print c isActive asked
  have hids : ∀ id ∈ c.leaves, id.WellFormed := by decide
  have hlog : (c.evalM (Logged.ask isActive)).log = [dark, hover, dark] := by decide
  obtain ⟨-, hcount, hfirsts, hskipped, -⟩ := asked_compile c isActive "f(x)" "\")\"" hids
    (by decide) (by decide) (cutCall_eq_none_iff.1 (by decide)) (cutCall_eq_none_iff.1 (by decide))
  rw [hlog] at hcount hfirsts hskipped
  exact ⟨hids, hcount dark, hcount hover, hfirsts, hskipped print (by decide)⟩

end Condition

end Cascade
