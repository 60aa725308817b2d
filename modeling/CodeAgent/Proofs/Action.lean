import CodeAgent.Failure

/-! Operations that can fail, and those that also change a state: what they come to, and the state they leave.
Outcomes whose failures are faults of a tool, a few failures apart that are told in advance. -/
namespace CodeAgent

theorem exists_of_bind_eq_ok {ε α β : Type} {a : Except ε α} {f : α → Except ε β} {y : β}
    (done : (a >>= f) = .ok y) : ∃ x, a = .ok x ∧ f x = .ok y := by
  cases a with
  | error e => contradiction
  | ok x => exact ⟨x, rfl, done⟩

theorem eq_error_of_bind {ε α β : Type} {x : Except ε α} {f : α → Except ε β} {e : ε}
    (failed : (x >>= f) = .error e) : x = .error e ∨ ∃ y, x = .ok y ∧ f y = .error e := by
  cases x with
  | error e' =>
    cases failed
    exact .inl rfl
  | ok y => exact .inr ⟨y, rfl, failed⟩

theorem eq_error_of_mapError {ε δ α : Type} {x : Except ε α} {g : ε → δ} {e : δ}
    (failed : x.mapError g = .error e) : ∃ e', x = .error e' ∧ g e' = e := by
  cases x with
  | error e' => exact ⟨e', rfl, Except.error.inj failed⟩
  | ok y => cases failed

theorem eq_ok_of_mapError {ε δ α : Type} {x : Except ε α} {g : ε → δ} {y : α}
    (done : x.mapError g = .ok y) : x = .ok y := by
  cases x with
  | error e => cases done
  | ok y' => exact congrArg Except.ok (Except.ok.inj done)

theorem eq_ok_of_toOption {ε α : Type} {x : Except ε α} {y : α} (done : x.toOption = some y) : x = .ok y := by
  cases x with
  | error e => cases done
  | ok y' => exact congrArg Except.ok (Option.some.inj done)

namespace Action
variable {ε σ α β : Type}

/-- What an operation makes of a state. -/
def exec (a : ExceptT ε (StateM σ) α) (s : σ) : Except ε α × σ := a.run.run s

theorem exec_bind (a : ExceptT ε (StateM σ) α) (f : α → ExceptT ε (StateM σ) β) (s : σ) :
    exec (a >>= f) s = match exec a s with
      | (.ok x, s') => exec (f x) s'
      | (.error e, s') => (.error e, s') := by
  change (ExceptT.bindCont f (exec a s).1).run (exec a s).2 = _
  cases exec a s with
  | mk outcome s' => cases outcome <;> rfl

theorem exec_tryCatch (a : ExceptT ε (StateM σ) α) (f : ε → ExceptT ε (StateM σ) α) (s : σ) :
    exec (tryCatch a f) s = match exec a s with
      | (.ok x, s') => (.ok x, s')
      | (.error e, s') => exec (f e) s' := by
  unfold exec
  rw [ExceptT.run_tryCatch, StateT.run_bind]
  cases a.run.run s with
  | mk outcome s' => cases outcome <;> rfl

/-- Failures that are caught are thrown again as others. -/
theorem exec_rethrow (a : ExceptT ε (StateM σ) α) (change : ε → ε) (s : σ) :
    exec (tryCatch a fun e => throw (change e)) s = ((exec a s).1.mapError change, (exec a s).2) := by
  rw [exec_tryCatch]
  rcases exec a s with ⟨_ | _, s'⟩ <;> rfl

@[simp]
theorem exec_pure (x : α) (s : σ) : exec (pure x : ExceptT ε (StateM σ) α) s = (.ok x, s) := rfl

@[simp]
theorem exec_throw (e : ε) (s : σ) : exec (throw e : ExceptT ε (StateM σ) α) s = (.error e, s) := rfl

@[simp]
theorem exec_get (s : σ) : exec (get : ExceptT ε (StateM σ) σ) s = (.ok s, s) := rfl

@[simp]
theorem exec_set (t s : σ) : exec (set t : ExceptT ε (StateM σ) PUnit) s = (.ok ⟨⟩, t) := rfl

@[simp]
theorem exec_mk_pure (x : Except ε α) (s : σ) :
    exec (ExceptT.mk (pure x) : ExceptT ε (StateM σ) α) s = (x, s) := rfl

end Action
end CodeAgent

namespace CodeAgent

/-- A failure that is a fault of a tool. -/
def Failure.OfTool (e : Failure) : Prop := ∃ f, e = .fault f ∧ f.kind.isTool = true

/-- An outcome is had, is a fault of a tool, or is one of some failures that are let through, and comes to
each of these. -/
structure Contained {α : Type} (leaks : Failure → Prop) (x : Except Failure α) : Prop where
  leaked : ∀ e, leaks e → x = .error e
  answered : ∀ e, x = .error e → e.OfTool ∨ leaks e

namespace Contained
variable {α β : Type} {leaks leaks' : Failure → Prop}

theorem of_ofTool {x : Except Failure α} (none_leaks : ∀ e, ¬ leaks e)
    (faults : ∀ e, x = .error e → e.OfTool) : Contained leaks x :=
  ⟨fun e leak => absurd leak (none_leaks e), fun e failed => .inl (faults e failed)⟩

theorem of_ok (x : α) (none_leaks : ∀ e, ¬ leaks e) : Contained leaks (.ok x) := by
  refine .of_ofTool none_leaks fun e failed => ?_
  cases failed

theorem congr {x : Except Failure α} (h : Contained leaks x) (same : ∀ e, leaks e ↔ leaks' e) :
    Contained leaks' x := by
  obtain rfl : leaks = leaks' := funext fun e => propext (same e)
  exact h

/-- What comes after an outcome that is had can only add faults. -/
theorem bind {x : Except Failure α} {f : α → Except Failure β} (first : Contained leaks x)
    (rest : ∀ y e, f y = .error e → e.OfTool) : Contained leaks (x >>= f) := by
  refine ⟨fun e leak => ?_, fun e failed => ?_⟩
  · rw [first.leaked e leak]
    rfl
  · rcases eq_error_of_bind failed with failed | ⟨y, -, failed⟩
    · exact first.answered e failed
    · exact .inl (rest y e failed)

end Contained

end CodeAgent
