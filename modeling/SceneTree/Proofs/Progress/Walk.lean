/-!
# Walks

A walk reads what lies before it, piece by piece, and is watched: it is stopped when it reads behind the end, passes an
ending, completes a turn of a loop without reading anything, calls a routine that is open and has read nothing since, or
goes on for longer than it was allowed to. What ends with a result or with a fault of what was read has done none of
these.
-/

namespace SceneTree

/-- What a walk is stopped for. -/
inductive Breach where
  /-- Something is read behind the last thing that there is. -/
  | beyond
  /-- The ending is passed. -/
  | pastEnding
  /-- A turn of a loop is completed, and nothing was read in it. -/
  | idle
  /-- A routine is called that is open, and nothing was read since it was called. -/
  | circular
  /-- A loop or a recursion is not over after the turns that it was allowed. -/
  | endless
  deriving DecidableEq, Repr

/-- Why a walk has no result: what it reads is faulty, or it is stopped. -/
inductive Halt (ε : Type) where
  | fault (fault : ε)
  | breach (breach : Breach)
  deriving Repr

/-- A walk over what is left to read. -/
def Walk (σ ε α : Type) : Type := σ → Except (Halt ε) (α × σ)

namespace Walk

variable {σ ε α β : Type}

instance : Monad (Walk σ ε) where
  pure a := fun s => .ok (a, s)
  bind x f := fun s =>
    match x s with
    | .ok (a, s') => f a s'
    | .error halt => .error halt

/-- Ends with a fault. -/
def fail (fault : ε) : Walk σ ε α := fun _ => .error (.fault fault)

/-- Is stopped. -/
def stop (breach : Breach) : Walk σ ε α := fun _ => .error (.breach breach)

/-- Has a result or a fault, and reads nothing. -/
def ofExcept (x : Except ε α) : Walk σ ε α := fun s =>
  match x with
  | .ok a => .ok (a, s)
  | .error fault => .error (.fault fault)

/-- Repeats a turn while a condition holds, for a number of turns at most. A turn says whether another may follow. Turns
that are completed must read something; what is left has a size. -/
def loop (size : σ → Nat) (condition : α → Walk σ ε Bool) (turn : α → Walk σ ε (α × Bool)) :
    (turns : Nat) → α → Walk σ ε α
  | 0, _ => stop .endless
  | turns + 1, a => fun s =>
    match condition a s with
    | .error halt => .error halt
    | .ok (false, s') => .ok (a, s')
    | .ok (true, s') =>
      match turn a s' with
      | .error halt => .error halt
      | .ok ((a', more), s'') =>
        if size s'' < size s then
          if more then loop size condition turn turns a' s'' else .ok (a', s'')
        else .error (.breach .idle)

/-- How a walk comes out, whatever is left. -/
def outcome (x : Walk σ ε α) (s : σ) : Except (Halt ε) α := (x s).map (·.1)

variable {x : Walk σ ε α} {f : α → Walk σ ε β} {a a' : α} {s s' s'' : σ} {halt : Halt ε}

@[simp] theorem pure_apply (a : α) (s : σ) : (pure a : Walk σ ε α) s = .ok (a, s) := rfl

theorem ofExcept_apply (y : Except ε α) (s : σ) :
    (ofExcept y : Walk σ ε α) s = (y.map fun a => (a, s)).mapError .fault := by
  cases y <;> rfl

theorem bind_of_ok (h : x s = .ok (a, s')) : (x >>= f) s = f a s' := by
  change (match x s with | .ok (a, s') => f a s' | .error halt => .error halt) = _
  rw [h]

theorem bind_of_error (h : x s = .error halt) : (x >>= f) s = .error halt := by
  change (match x s with | .ok (a, s') => f a s' | .error halt => .error halt) = _
  rw [h]

theorem bind_congr {x' : Walk σ ε α} (h : x s = x' s') : (x >>= f) s = (x' >>= f) s' := by
  change (match x s with | .ok (a, s') => f a s' | .error halt => .error halt) =
    match x' s' with | .ok (a, s') => f a s' | .error halt => .error halt
  rw [h]

/-- Two walks in a row come to what two computations come to. -/
theorem bind_eq_mapError {r : Except ε (α × σ)} {g : α × σ → Except ε (β × σ)} (hx : x s = r.mapError .fault)
    (hf : ∀ a s', r = .ok (a, s') → f a s' = (g (a, s')).mapError .fault) :
    (x >>= f) s = (r >>= g).mapError .fault := by
  cases r with
  | error fault => exact bind_of_error hx
  | ok read => exact (bind_of_ok hx).trans (hf _ _ rfl)

/-! ### Turns of a loop -/

variable {size : σ → Nat} {condition : α → Walk σ ε Bool} {turn : α → Walk σ ε (α × Bool)} {turns : Nat}

theorem loop_of_not (h : condition a s = .ok (false, s')) :
    loop size condition turn (turns + 1) a s = .ok (a, s') := by
  simp only [loop, h]

/-- A turn that reads something is followed by the others. -/
theorem loop_of_more (hc : condition a s = .ok (true, s')) (ht : turn a s' = .ok ((a', true), s''))
    (hlt : size s'' < size s) :
    loop size condition turn (turns + 1) a s = loop size condition turn turns a' s'' := by
  simp only [loop, hc, ht, hlt, if_true]

theorem loop_of_last (hc : condition a s = .ok (true, s')) (ht : turn a s' = .ok ((a', false), s''))
    (hlt : size s'' < size s) : loop size condition turn (turns + 1) a s = .ok (a', s'') := by
  simp only [loop, hc, ht, hlt, if_true, if_neg Bool.false_ne_true]

theorem loop_of_error (hc : condition a s = .ok (true, s')) (ht : turn a s' = .error halt) :
    loop size condition turn (turns + 1) a s = .error halt := by
  simp only [loop, hc, ht]

end Walk

end SceneTree
