import SceneTree.Proofs.Attempt
import SceneTree.Proofs.Cells
import SceneTree.Proofs.Sameness
import SceneTree.Proofs.Translation.Given
import Mathlib.Data.List.Forall2

/-!
# What a reading comes to

The text of a script depends on the values in it and on nothing that was read before, so that two values that differ
only in how their references find what they mean have the same text. `Mirrors` says this of readings; the notes that
are left on the way are right, which is why a document says the same after its references kept what they found.
-/

namespace SceneTree

namespace Attempt

variable {σ α β : Type} {I : σ → Prop}

/-- An attempt comes to what another comes to, whatever states the two start from, and keeps a property. -/
structure Mirrors (I : σ → Prop) (x y : Attempt σ α) : Prop where
  outcome : ∀ s s', (x s).1 = (y s').1
  keeps : x.Keeps I

theorem Mirrors.pure (a : α) : Mirrors I (pure a : Attempt σ α) (pure a) := ⟨fun _ _ => rfl, .pure a⟩

theorem Mirrors.ofExcept (x : Except Fault α) : Mirrors I (ofExcept x : Attempt σ α) (ofExcept x) :=
  ⟨fun _ _ => rfl, .ofExcept x⟩

/-- Attempts in a row mirror others in a row when the first ones do and those that follow on the same result. -/
theorem Mirrors.bind {x y : Attempt σ α} {f g : α → Attempt σ β} (h : x.Mirrors I y)
    (hf : ∀ a, (f a).Mirrors I (g a)) : (x >>= f).Mirrors I (y >>= g) := by
  refine ⟨fun s s' => ?_, h.keeps.bind fun a => (hf a).keeps⟩
  have ho := h.outcome s s'
  rw [bind_apply, bind_apply]
  rcases hx : x s with ⟨_ | a, s₁⟩ <;> rcases hy : y s' with ⟨_ | b, s₁'⟩ <;> rw [hx, hy] at ho <;> cases ho
  · rfl
  · exact (hf a).outcome s₁ s₁'

end Attempt

namespace Value

/-- A value has the encoding of another, and encoding it keeps a property of readings. -/
def Reads (I : Readings → Prop) (v w : Value) : Prop := (encode v).Mirrors I (encode w)

variable {I : Readings → Prop}

theorem encodeItems_mirrors {vs ws : List Value} (h : List.Forall₂ (Reads I) vs ws) :
    (encodeItems vs).Mirrors I (encodeItems ws) := by
  induction h with
  | nil =>
    rw [encodeItems]
    exact .pure []
  | cons h _ ih =>
    rw [encodeItems, encodeItems]
    exact .bind h fun v => .bind ih fun vs => .pure (v :: vs)

/-- Slots read the same when their items do. -/
theorem Reads.slot {vs ws : List Value} (h : List.Forall₂ (Reads I) vs ws) : Reads I (.slot vs) (.slot ws) := by
  unfold Reads
  rw [encode, encode]
  exact .bind (encodeItems_mirrors h) fun items => .pure (Value.list items)

/-- Scripts read the same when their parameters and their statements do. -/
theorem Reads.script (head : ScriptHead) {params params' statements statements' : Value} (hp : Reads I params params')
    (hs : Reads I statements statements') :
    Reads I (head.toRecord params statements) (head.toRecord params' statements') := by
  unfold Reads ScriptHead.toRecord
  rw [encode, encode]
  exact .bind hp fun _ => .bind hs fun _ => .bind (.ofExcept _) fun _ => .pure _

/-- A given value reads as itself. -/
theorem Reads.self {v : Value} (h : v.isGiven = true) : Reads I v v := by
  revert h
  unfold Reads
  refine encode.induct (fun v => v.isGiven = true → (encode v).Mirrors I (encode v))
    (fun es => areGivenEntries es = true → (encodeEntries es).Mirrors I (encodeEntries es))
    (fun vs => areGiven vs = true → (encodeItems vs).Mirrors I (encodeItems vs)) ?_ ?_ ?_ ?_ ?_ ?_ ?_ ?_ ?_ ?_ ?_ v
  · intro id type x y assemble copyable deletable emphasized movable readOnly extensions params statements hp hs h
    simp only [isGiven, areGiven, Bool.and_eq_true] at h
    obtain ⟨-, -, -, -, -, -, -, -, -, -, -, hpg, hsg, -⟩ := h
    rw [encode]
    exact .bind (hp hpg) fun _ => .bind (hs hsg) fun _ => .bind (.ofExcept _) fun _ => .pure _
  · intro items ih h
    rw [encode]
    exact .bind (ih h) fun _ => .pure _
  · intro items ih h
    rw [encode]
    exact .bind (ih h) fun _ => .pure _
  · intro items ih h
    rw [encode]
    exact .bind (ih h) fun _ => .pure _
  · intro entries ih h
    rw [encode]
    exact .bind (ih h) fun _ => .pure _
  · intro origin kind name candidates h
    rw [encode, readLookup]
    cases origin with
    | given label => exact .bind (.ofExcept _) fun _ => .pure _
    | param index => cases h
  · intro v h₁ h₂ h₃ h₄ h₅ h₆ _
    rw [encode.eq_7 v h₁ h₂ h₃ h₄ h₅ h₆]
    exact .pure v
  · intro _
    rw [encodeItems]
    exact .pure []
  · intro v rest hv hr h
    rw [areGiven, Bool.and_eq_true] at h
    rw [encodeItems]
    exact .bind (hv h.1) fun _ => .bind (hr h.2) fun _ => .pure _
  · intro _
    rw [encodeEntries]
    exact .pure []
  · intro k v rest hv hr h
    rw [areGivenEntries, Bool.and_eq_true, Bool.and_eq_true] at h
    rw [encodeEntries]
    exact .bind (hv h.1.2) fun _ => .bind (hr h.2) fun _ => .pure _

/-- The text of a script is that of any value that it reads as. -/
theorem Reads.dump {v w : Value} (h : Reads I v w) : v.dump.Mirrors I w.dump :=
  .bind h fun _ => .ofExcept _

/-- A lookup that a parameter made reads as a given one that finds the same, and what it found is noted. -/
theorem readLookup_mirrors {index label : Nat} {kind : String} {name : Value} {cs cs' : Candidates}
    (h : cs.resolve kind name = cs'.resolve kind name)
    (hI : ∀ id readings, cs'.resolve kind name = .ok id → I readings → I (readings ++ [(index, id)])) :
    (readLookup (.param index) kind name cs).Mirrors I (readLookup (.given label) kind name cs') := by
  unfold readLookup
  rw [h]
  cases hr : cs'.resolve kind name with
  | error fault => exact ⟨fun _ _ => rfl, fun _ hs => hs⟩
  | ok id => exact ⟨fun _ _ => rfl, fun readings hs => hI id readings hr hs⟩

end Value

namespace Document

variable {doc : Document} {index : Nat}

/-- What a reference comes to if its name is looked up now. -/
def lookUp? (doc : Document) (index : Nat) : Option (Except Fault Value) :=
  (doc.references.get? index).map fun (target, r) => (doc.candidates target).resolve r.kind r.name

/-- Every reading is what its reference comes to. -/
def Right (doc : Document) (readings : Readings) : Prop :=
  ∀ p ∈ readings, ∀ outcome, doc.lookUp? p.1 = some outcome → outcome = .ok p.2

theorem Right.nil (doc : Document) : doc.Right [] := by
  intro p hp
  cases hp

/-- References that keep something keep what they come to. -/
def Honest (doc : Document) : Prop :=
  ∀ i target r id, doc.references.get? i = some (target, r) → r.found = some id →
    (doc.candidates target).resolve r.kind r.name = .ok id

/-- A reference reads as a lookup of its name among what it may mean. -/
theorem Honest.reads (h : doc.Honest) {target : Target} {r : Reference}
    (hr : doc.references.get? index = some (target, r)) {label : Nat} {cs : Candidates}
    (hc : doc.candidates target = cs) :
    (doc.referenceValue index).Reads doc.Right (.lookup (.given label) r.kind r.name cs) := by
  have hright : ∀ id readings, cs.resolve r.kind r.name = .ok id → doc.Right readings →
      doc.Right (readings ++ [(index, id)]) := by
    intro id readings hid hrs p hp outcome ho
    rcases List.mem_append.mp hp with hp | hp
    · exact hrs p hp outcome ho
    · rw [List.mem_singleton.mp hp] at ho ⊢
      simp only [lookUp?, hr, Option.map_some, Option.some.injEq] at ho
      rw [← ho, hc, hid]
  unfold referenceValue Value.Reads
  rw [hr]
  simp only
  rw [Value.encode, Value.encode]
  cases hf : r.found with
  | none => exact Value.readLookup_mirrors (congrArg (Candidates.resolve · r.kind r.name) hc) hright
  | some id =>
    have hid := h index target r id hr hf
    refine Value.readLookup_mirrors ?_ hright
    rw [Candidates.resolve_kept hid, ← hc, hid]

theorem keep_cons (p : Nat × Value) (rest : Readings) : doc.keep (p :: rest) = (doc.keep [p]).keep rest := rfl

/-- What a reference comes to does not depend on what references keep. -/
theorem lookUp?_keep (readings : Readings) : (doc.keep readings).lookUp? index = doc.lookUp? index := by
  induction readings generalizing doc with
  | nil => rfl
  | cons p rest ih =>
    rw [keep_cons, ih]
    exact Cells.map_get?_modify doc.references p.1 (f := fun (target, r) => (target, { r with found := some p.2 }))
      (g := fun (target, r) => (doc.candidates target).resolve r.kind r.name) (fun _ => rfl) index

/-- A document stays honest when its references keep readings that are right. -/
theorem Honest.keep (h : doc.Honest) {readings : Readings} (hr : doc.Right readings) : (doc.keep readings).Honest := by
  induction readings generalizing doc with
  | nil => exact h
  | cons p rest ih =>
    rw [keep_cons]
    refine ih ?_ ?_
    · intro i target r id hi hf
      by_cases he : i = p.1
      · subst he
        have hi : (doc.references.get? p.1).map (fun (target, r) => (target, { r with found := some p.2 })) =
            some (target, r) := (Cells.get?_modify_self doc.references p.1 _).symm.trans hi
        obtain ⟨⟨t, r₀⟩, hr₀, he⟩ := Option.map_eq_some_iff.mp hi
        obtain ⟨rfl, rfl⟩ := Prod.mk.inj he
        rw [← Option.some_inj.mp hf]
        exact hr p List.mem_cons_self _ (by rw [lookUp?, hr₀]; rfl)
      · exact h i target r id ((Cells.get?_modify_of_ne doc.references _ he).symm.trans hi) hf
    · intro q hq outcome ho
      rw [lookUp?_keep] at ho
      exact hr q (List.mem_cons_of_mem _ hq) outcome ho

/-- Nothing but the references of a document changes when they keep what they found, and these keep their names. -/
theorem references_keep (doc : Document) (readings : Readings) :
    doc.references.Later (fun (target, r) => (target, r.kind, r.name)) (doc.keep readings).references := by
  induction readings generalizing doc with
  | nil => exact .refl _ _
  | cons p rest ih =>
    rw [keep_cons]
    refine .trans ?_ (ih (doc.keep [p]))
    exact Cells.Later.modify doc.references p.1
      (f := fun (target, r) => (target, { r with found := some p.2 })) fun _ => rfl

end Document

end SceneTree
