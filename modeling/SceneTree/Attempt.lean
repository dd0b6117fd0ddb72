import SceneTree.Fault

/-!
# Attempts

A computation over a state that may fail. A failure ends it, and the state stays as it was changed up to there: nothing
is taken back.
-/

namespace SceneTree

/-- A computation over states of type `σ` that ends with a result or a fault, and with a state in either case. -/
def Attempt (σ α : Type) : Type := σ → Except Fault α × σ

namespace Attempt

variable {σ α β : Type}

instance : Monad (Attempt σ) where
  pure a := fun s => (.ok a, s)
  bind x f := fun s =>
    match x s with
    | (.ok a, s') => f a s'
    | (.error fault, s') => (.error fault, s')

/-- Fails, and changes nothing. -/
def fail (fault : Fault) : Attempt σ α := fun s => (.error fault, s)

/-- The result or the fault of a computation without a state. -/
def ofExcept (x : Except Fault α) : Attempt σ α := fun s => (x, s)

instance : MonadLift (Except Fault) (Attempt σ) := ⟨ofExcept⟩

/-- The present state. -/
def state : Attempt σ σ := fun s => (.ok s, s)

/-- Changes the state. -/
def update (f : σ → σ) : Attempt σ Unit := fun s => (.ok (), f s)

/-- Changes the state by a computation that also has a result. -/
def step (f : σ → α × σ) : Attempt σ α := fun s => (.ok (f s).1, (f s).2)

@[simp] theorem pure_apply (a : α) (s : σ) : (pure a : Attempt σ α) s = (.ok a, s) := rfl

theorem bind_apply (x : Attempt σ α) (f : α → Attempt σ β) (s : σ) :
    (x >>= f) s = match x s with
      | (.ok a, s') => f a s'
      | (.error fault, s') => (.error fault, s') := rfl

theorem bind_apply_of_ok {x : Attempt σ α} {f : α → Attempt σ β} {s s' : σ} {a : α} (h : x s = (.ok a, s')) :
    (x >>= f) s = f a s' := by
  simp [bind_apply, h]

theorem bind_apply_of_error {x : Attempt σ α} {f : α → Attempt σ β} {s s' : σ} {fault : Fault}
    (h : x s = (.error fault, s')) : (x >>= f) s = (.error fault, s') := by
  simp [bind_apply, h]

@[simp] theorem fail_apply (fault : Fault) (s : σ) : (fail fault : Attempt σ α) s = (.error fault, s) := rfl

@[simp] theorem ofExcept_apply (x : Except Fault α) (s : σ) : (ofExcept x : Attempt σ α) s = (x, s) := rfl

@[simp] theorem state_apply (s : σ) : (state : Attempt σ σ) s = (.ok s, s) := rfl

@[simp] theorem update_apply (f : σ → σ) (s : σ) : update f s = (.ok (), f s) := rfl

@[simp] theorem step_apply (f : σ → α × σ) (s : σ) : step f s = (.ok (f s).1, (f s).2) := rfl

end Attempt

end SceneTree
