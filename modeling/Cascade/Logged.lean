/-!
# Values with a log

A computation that consults something outside itself can be asked afterwards
what it consulted. `Logged ω α` is such a result: the value, and the notes taken
on the way to it, oldest first. Computations are put together with `do`; their
notes follow one another.

To let a computation fail and keep the notes it took until then, use
`ExceptT ε (Logged ω)`.
-/

namespace Cascade

/-- A value, and the notes taken while it was computed, oldest first. -/
structure Logged (ω α : Type) where
  value : α
  log : List ω

namespace Logged

variable {ω α β : Type}

instance : Monad (Logged ω) where
  pure a := ⟨a, []⟩
  bind x f :=
    let y := f x.value
    ⟨y.value, x.log ++ y.log⟩

/-- Answers a question and takes a note of it. -/
def ask (answer : ω → α) (question : ω) : Logged ω α := ⟨answer question, [question]⟩

@[simp] theorem value_pure (a : α) : (pure a : Logged ω α).value = a := rfl

@[simp] theorem log_pure (a : α) : (pure a : Logged ω α).log = [] := rfl

@[simp] theorem value_bind (x : Logged ω α) (f : α → Logged ω β) :
    (x >>= f).value = (f x.value).value := rfl

@[simp] theorem log_bind (x : Logged ω α) (f : α → Logged ω β) :
    (x >>= f).log = x.log ++ (f x.value).log := rfl

@[simp] theorem value_map (f : α → β) (x : Logged ω α) : (f <$> x).value = f x.value := rfl

@[simp] theorem log_map (f : α → β) (x : Logged ω α) : (f <$> x).log = x.log := by
  simp [Functor.map]

theorem ext {x y : Logged ω α} (hv : x.value = y.value) (hl : x.log = y.log) : x = y := by
  cases x
  cases y
  simp_all

instance : LawfulMonad (Logged ω) :=
  LawfulMonad.mk' (Logged ω)
    (fun _ => ext rfl (by simp [Functor.map]))
    (fun _ _ => ext rfl (by simp))
    (fun _ _ _ => ext rfl (by simp))

/-! ## Computations that can fail -/

section Failing

variable {ε : Type} {x : ExceptT ε (Logged ω) α}

theorem value_run_bind (x : ExceptT ε (Logged ω) α) (f : α → ExceptT ε (Logged ω) β) :
    (x >>= f).run.value = x.run.value >>= fun a => (f a).run.value := by
  rw [ExceptT.run_bind, value_bind]
  cases x.run.value <;> rfl

theorem value_run_map (f : α → β) (x : ExceptT ε (Logged ω) α) :
    (f <$> x).run.value = x.run.value.map f := by
  rw [ExceptT.run_map, value_map]

theorem log_run_map (f : α → β) (x : ExceptT ε (Logged ω) α) :
    (f <$> x).run.log = x.run.log := by
  rw [ExceptT.run_map, log_map]

theorem log_run_bind {a : α} (h : x.run.value = .ok a) (f : α → ExceptT ε (Logged ω) β) :
    (x >>= f).run.log = x.run.log ++ (f a).run.log := by
  rw [ExceptT.run_bind, log_bind, h]

/-- Nothing is noted after a failure. -/
theorem log_run_bind_of_error {error : ε} (h : x.run.value = .error error)
    (f : α → ExceptT ε (Logged ω) β) : (x >>= f).run.log = x.run.log := by
  rw [ExceptT.run_bind, log_bind, h]
  exact List.append_nil _

end Failing

end Logged

end Cascade
