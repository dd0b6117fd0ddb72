import SceneTree.Attempt

/-!
# What attempts keep

An attempt keeps a property of states if the property holds afterwards whenever it held before, also when the attempt
fails. Statements about long attempts are put together from statements about their steps.
-/

namespace SceneTree

namespace Outcome

variable {α β : Type}

/-- Two computations in a row succeed when both do, whatever they may fail for. -/
theorem bind_eq_ok_iff {ε : Type} {x : Except ε α} {f : α → Except ε β} {b : β} :
    (x >>= f) = .ok b ↔ ∃ a, x = .ok a ∧ f a = .ok b := by
  cases x with
  | error _ => simp [bind, Except.bind]
  | ok a => simp [bind, Except.bind]

/-- Two computations in a row fail when the first does, or the second after it. -/
theorem bind_eq_error_iff {ε : Type} {x : Except ε α} {f : α → Except ε β} {e : ε} :
    (x >>= f) = .error e ↔ x = .error e ∨ ∃ a, x = .ok a ∧ f a = .error e := by
  cases x with
  | error _ => simp [bind, Except.bind]
  | ok a => simp [bind, Except.bind]

/-- Computations on some items succeed when the first does and the others do. -/
theorem mapM_cons_eq_ok_iff {f : α → Except Fault β} {a : α} {rest : List α} {bs : List β} :
    (a :: rest).mapM f = .ok bs ↔ ∃ b bs', f a = .ok b ∧ rest.mapM f = .ok bs' ∧ bs = b :: bs' := by
  rw [List.mapM_cons, bind_eq_ok_iff]
  constructor
  · rintro ⟨b, hb, h⟩
    obtain ⟨bs', hbs, h⟩ := bind_eq_ok_iff.mp h
    cases h
    exact ⟨b, bs', hb, hbs, rfl⟩
  · rintro ⟨b, bs', hb, hbs, rfl⟩
    exact ⟨b, hb, bind_eq_ok_iff.mpr ⟨bs', hbs, rfl⟩⟩

/-- Every result of computations on some items is that of one of them. -/
theorem mem_of_mapM_eq_ok {f : α → Except Fault β} {as : List α} {bs : List β} (h : as.mapM f = .ok bs) :
    ∀ b ∈ bs, ∃ a ∈ as, f a = .ok b := by
  induction as generalizing bs with
  | nil =>
    cases h
    exact List.forall_mem_nil _
  | cons a rest ih =>
    obtain ⟨b, bs', hb, hbs, rfl⟩ := mapM_cons_eq_ok_iff.mp h
    intro b' hb'
    rcases List.mem_cons.mp hb' with rfl | hb'
    · exact ⟨a, List.mem_cons_self, hb⟩
    · obtain ⟨a', ha', hf⟩ := ih hbs b' hb'
      exact ⟨a', List.mem_cons_of_mem _ ha', hf⟩

/-- Computations on some items that all succeed have results. -/
theorem mapM_of_forall {f : α → Except Fault β} {P : β → Prop} {as : List α}
    (h : ∀ a ∈ as, ∃ b, f a = .ok b ∧ P b) : ∃ bs, as.mapM f = .ok bs ∧ ∀ b ∈ bs, P b := by
  induction as with
  | nil => exact ⟨[], rfl, List.forall_mem_nil _⟩
  | cons a rest ih =>
    obtain ⟨b, hb, hP⟩ := h a List.mem_cons_self
    obtain ⟨bs, hbs, hPs⟩ := ih fun a ha => h a (List.mem_cons_of_mem _ ha)
    exact ⟨b :: bs, mapM_cons_eq_ok_iff.mpr ⟨b, bs, hb, hbs, rfl⟩, List.forall_mem_cons.mpr ⟨hP, hPs⟩⟩

/-- When there are results, the computation on every item has succeeded. -/
theorem ok_of_mapM_eq_ok {f : α → Except Fault β} {as : List α} {bs : List β} (h : as.mapM f = .ok bs) :
    ∀ a ∈ as, ∃ b, f a = .ok b := by
  induction as generalizing bs with
  | nil => exact List.forall_mem_nil _
  | cons a rest ih =>
    obtain ⟨b, bs', hb, hbs, -⟩ := mapM_cons_eq_ok_iff.mp h
    exact List.forall_mem_cons.mpr ⟨⟨b, hb⟩, ih hbs⟩

/-- Computations on some items fail as the computation on one of them does. -/
theorem exists_of_mapM_eq_error {f : α → Except Fault β} {as : List α} {fault : Fault}
    (h : as.mapM f = .error fault) : ∃ a ∈ as, f a = .error fault := by
  induction as with
  | nil => cases h
  | cons a rest ih =>
    rw [List.mapM_cons, bind_eq_error_iff] at h
    rcases h with h | ⟨b, -, h⟩
    · exact ⟨a, List.mem_cons_self, h⟩
    · rcases bind_eq_error_iff.mp h with h | ⟨_, -, h⟩
      · obtain ⟨a', ha', h⟩ := ih h
        exact ⟨a', List.mem_cons_of_mem _ ha', h⟩
      · cases h

end Outcome

namespace Attempt

variable {σ α β : Type} {I : σ → Prop}

/-- Two attempts in a row succeed when both do, the second from the state that the first leaves. -/
theorem bind_eq_ok_iff {x : Attempt σ α} {f : α → Attempt σ β} {s s'' : σ} {b : β} :
    (x >>= f) s = (.ok b, s'') ↔ ∃ a s', x s = (.ok a, s') ∧ f a s' = (.ok b, s'') := by
  rw [bind_apply]
  rcases x s with ⟨_ | a, s'⟩
  · simp
  · constructor
    · intro h
      exact ⟨a, s', rfl, h⟩
    · rintro ⟨_, _, h, hf⟩
      cases h
      exact hf

/-- Two attempts in a row fail when the first does, or the second from the state that the first leaves. -/
theorem bind_eq_error_iff {x : Attempt σ α} {f : α → Attempt σ β} {s s'' : σ} {fault : Fault} :
    (x >>= f) s = (.error fault, s'') ↔
      x s = (.error fault, s'') ∨ ∃ a s', x s = (.ok a, s') ∧ f a s' = (.error fault, s'') := by
  rw [bind_apply]
  rcases x s with ⟨_ | a, s'⟩
  · simp
  · constructor
    · intro h
      exact .inr ⟨a, s', rfl, h⟩
    · rintro (h | ⟨_, _, h, hf⟩)
      · cases h
      · cases h
        exact hf

/-- The property holds after the attempt if it held before. -/
def Keeps (I : σ → Prop) (x : Attempt σ α) : Prop := ∀ s, I s → I (x s).2

theorem Keeps.pure (a : α) : Keeps I (pure a : Attempt σ α) := fun _ h => h

theorem Keeps.fail (fault : Fault) : Keeps I (fail fault : Attempt σ α) := fun _ h => h

theorem Keeps.ofExcept (x : Except Fault α) : Keeps I (ofExcept x) := fun _ h => h

/-- What both of two attempts keep, they keep in a row. -/
theorem Keeps.bind {x : Attempt σ α} {f : α → Attempt σ β} (hx : Keeps I x) (hf : ∀ a, Keeps I (f a)) :
    Keeps I (x >>= f) := by
  intro s hs
  have h := hx s hs
  rw [bind_apply]
  rcases hxs : x s with ⟨_ | a, s'⟩
  · rw [hxs] at h
    exact h
  · rw [hxs] at h
    exact hf a s' h

end Attempt

end SceneTree
