import SceneTree.Node.Build
import SceneTree.Proofs.Attempt

/-!
# What building a node computes

Some fields of a node are computed from others: half of a width or a height, and the font from the font size. Only
there can a number be too large; everything else that can be wrong with what was given has a wording.
-/

namespace SceneTree

/-- An integer lies beyond every floating-point number, or half of it does. -/
def Oversized (n : Int) : Prop := Binary64.ofQuotient? n 1 = none ∨ Binary64.ofQuotient? n 2 = none

/-- Only an integer is too large to be halved. -/
theorem Value.int_of_half {v : Value} (h : v.half = .error .tooLarge) :
    ∃ n, v = .int n ∧ Binary64.ofQuotient? n 2 = none := by
  have hhalf {n : Int} (h : half.halfOf n = .error .tooLarge) : Binary64.ofQuotient? n 2 = none := by
    rw [half.halfOf] at h
    split at h
    · cases h
    · next hn => exact hn
  cases v with
  | int n => exact ⟨n, rfl, hhalf h⟩
  | bool b =>
    have := hhalf h
    cases b <;> cases this
  | _ => cases h

namespace Node

/-- The fields that a node computes with. -/
def reckoned : List Field := [.width, .height, .fontSize]

/-- No default is too large to compute with. -/
theorem not_oversized_defaultOf {kind : Kind} {field : Field} {n : Int} (hf : field ∈ reckoned)
    (h : kind.defaultOf field = .int n) : ¬ Oversized n := by
  have hzero : n = 0 := by
    simp only [reckoned, List.mem_cons, List.not_mem_nil, or_false] at hf
    rcases hf with rfl | rfl | rfl <;> cases kind <;> cases h <;> rfl
  subst hzero
  rintro (h | h) <;> cases h

/-- Only an integer is too large for a font size. -/
theorem int_of_fontSizeText {v : Value} (h : fontSizeText v = .error .tooLarge) :
    ∃ n, v = .int n ∧ Binary64.ofQuotient? n 1 = none := by
  cases v with
  | int n =>
    rw [fontSizeText] at h
    split at h
    · cases h
    · next hn => exact ⟨n, rfl, by simpa using hn⟩
  | float x =>
    rw [fontSizeText] at h
    split at h <;> cases h
  | str s =>
    rw [fontSizeText] at h
    repeat' split at h
    all_goals cases h
  | _ => cases h

/-- Half of a field is too large only if an integer on the field is. -/
theorem int_of_withHalf {node : Node} {field whole : Field} (h : node.withHalf field whole = .error .tooLarge) :
    ∃ n, node.get whole = .int n ∧ Oversized n := by
  rw [withHalf] at h
  split at h
  · rcases Outcome.bind_eq_error_iff.mp h with h | ⟨v, -, h⟩
    · obtain ⟨n, hn, ho⟩ := Value.int_of_half h
      exact ⟨n, hn, .inr ho⟩
    · cases h
  · cases h

/-- Halving one field for another leaves all but the latter. -/
theorem get_of_withHalf {node node' : Node} {field whole f : Field} (h : node.withHalf field whole = .ok node')
    (hf : f ≠ field) : node'.get f = node.get f := by
  rw [withHalf] at h
  split at h
  · obtain ⟨v, -, h⟩ := Outcome.bind_eq_ok_iff.mp h
    cases h
    exact node.get_set_of_ne v hf
  · cases h
    rfl

/-- A default leaves all fields but one, and that one if it holds something. -/
theorem get_setDefault (node : Node) (field f : Field) (v : Value) :
    (node.setDefault field v).get f = node.get f ∨ f = field ∧ (node.setDefault field v).get f = v := by
  rw [setDefault]
  split
  · by_cases hf : f = field
    · subst hf
      exact .inr ⟨rfl, node.get_set_self f v⟩
    · exact .inl (node.get_set_of_ne v hf)
  · exact .inl rfl

/-- The styling of a text box is too large to compute only if an integer for its font size is. -/
theorem int_of_withTextBoxDefaults {node : Node} (h : node.withTextBoxDefaults = .error .tooLarge) :
    ∃ n, node.get .fontSize = .int n ∧ Oversized n := by
  rw [withTextBoxDefaults] at h
  simp only at h
  split at h
  · rcases Outcome.bind_eq_error_iff.mp h with h | ⟨_, -, h⟩
    · obtain ⟨n, hn, ho⟩ := int_of_fontSizeText h
      rcases get_setDefault (node.setDefault .text (.str defaultText)) .fontSize .fontSize defaultFontSize
        with heq | ⟨-, heq⟩
      · rcases get_setDefault node .text .fontSize (.str defaultText) with heq' | ⟨hne, -⟩
        · exact ⟨n, by rw [← heq', ← heq, hn], .inl ho⟩
        · cases hne
      · rw [heq] at hn
        cases hn
        exact absurd ho (by decide)
    · cases h
  · cases h

/-- The two checks of an object come first. -/
theorem completeObject_eq (node : Node) :
    node.completeObject =
      if !(node.get .objectType).isOneOf objectTypes then
        .error (.unknownObjectType (node.get .objectType) (node.get .name))
      else if !(node.get .rotateMethod).isOneOf rotateMethods then
        .error (.unknownRotateMethod (node.get .rotateMethod) (node.get .name))
      else (do
        let node ← node.withHalf .regX .width
        let node ← node.withHalf .regY .height
        if (node.get .objectType).isText "textBox" then node.withTextBoxDefaults else pure node) := by
  rw [completeObject]
  split
  · rfl
  · split <;> rfl

/-- What an object computes is too large only if an integer on it is. -/
theorem int_of_completeObject {node : Node} (h : node.completeObject = .error .tooLarge) :
    ∃ field ∈ reckoned, ∃ n, node.get field = .int n ∧ Oversized n := by
  rw [completeObject_eq] at h
  split at h
  · cases h
  · split at h
    · cases h
    · rcases Outcome.bind_eq_error_iff.mp h with h | ⟨node₁, h₁, h⟩
      · exact ⟨.width, by simp [reckoned], int_of_withHalf h⟩
      · rcases Outcome.bind_eq_error_iff.mp h with h | ⟨node₂, h₂, h⟩
        · exact ⟨.height, by simp [reckoned], get_of_withHalf h₁ (f := .height) nofun ▸ int_of_withHalf h⟩
        · split at h
          · obtain ⟨n, hn, ho⟩ := int_of_withTextBoxDefaults h
            refine ⟨.fontSize, by simp [reckoned], n, ?_, ho⟩
            have h₁ : node₁.get .fontSize = node.get .fontSize := get_of_withHalf h₁ nofun
            have h₂ : node₂.get .fontSize = node₁.get .fontSize := get_of_withHalf h₂ nofun
            rw [← h₁, ← h₂, hn]
          · cases h

/-- An address has an extension or is none, and nothing about it is too large. -/
theorem extensionOf_ne_tooLarge (v : Value) : extensionOf v ≠ .error .tooLarge := by
  cases v <;> nofun

/-- What a node computes is too large only if an integer on it is. -/
theorem int_of_complete {node : Node} (h : node.complete = .error .tooLarge) :
    ∃ field ∈ reckoned, ∃ n, node.get field = .int n ∧ Oversized n := by
  rw [complete] at h
  split at h
  · exact int_of_completeObject h
  · exact int_of_completeObject h
  · exact int_of_completeObject h
  · rw [completePicture] at h
    split at h
    · rcases Outcome.bind_eq_error_iff.mp h with h | ⟨_, -, h⟩
      · exact absurd h (extensionOf_ne_tooLarge _)
      · cases h
    · cases h
  · rw [completeSound] at h
    split at h
    · rcases Outcome.bind_eq_error_iff.mp h with h | ⟨_, -, h⟩
      · exact absurd h (extensionOf_ne_tooLarge _)
      · cases h
    · cases h
  · rw [completeFunction] at h
    split at h <;> cases h
  · cases h

/-- Building a node computes something too large only if an integer that was given is. -/
theorem int_of_build {kind : Kind} {given : List (Field × Value)} (h : build kind given = .error .tooLarge) :
    ∃ field n, (field, .int n) ∈ given ∧ Oversized n := by
  rw [build] at h
  split at h
  · cases h
  · split at h
    · cases h
    · obtain ⟨field, hfield, n, hn, ho⟩ := int_of_complete h
      cases hg : given.lookup field with
      | none =>
        simp only [hg, Option.getD_none] at hn
        exact absurd ho (not_oversized_defaultOf hfield hn)
      | some v =>
        simp only [hg, Option.getD_some] at hn
        subst hn
        obtain ⟨before, after, rfl, -⟩ := List.lookup_eq_some_iff.mp hg
        exact ⟨field, n, by simp, ho⟩

end Node

end SceneTree
