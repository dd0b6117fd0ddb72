import SceneTree.Reference.Basic

/-!
# Values and themselves

Every value is the same as itself, and equals itself unless it is no number. A reference finds nothing for a name that
is no number, so that what it finds once it finds again in what it keeps.
-/

namespace SceneTree

/-- A floating-point number equals itself. -/
theorem Binary64.equals_self (x : Binary64) : x.equals x = true := by
  cases x with
  | infinite negative => simp [equals]
  | finite negative mantissa exponent => simp [equals, toRatio?]

namespace Value

/-- Every entry of one map is among the entries of another that holds them and whose entries are the same as
themselves. -/
theorem sameEntries_of_subset {xs ys : List (Value × Value)} (h : ∀ p ∈ xs, p ∈ ys)
    (hs : ∀ p ∈ xs, p.1.same p.1 = true ∧ p.2.same p.2 = true) : sameEntries xs ys = true := by
  induction xs with
  | nil => rw [sameEntries]
  | cons p rest ih =>
    obtain ⟨k, v⟩ := p
    rw [sameEntries, Bool.and_eq_true, List.any_eq_true]
    refine ⟨⟨(k, v), h _ List.mem_cons_self, ?_⟩, ?_⟩
    · obtain ⟨hk, hv⟩ := hs _ List.mem_cons_self
      simp only at hk hv
      simp only [hk, hv, Bool.and_self]
    · exact ih (fun q hq => h q (List.mem_cons_of_mem _ hq)) fun q hq => hs q (List.mem_cons_of_mem _ hq)

mutual

/-- A value is the same as itself. -/
theorem same_self : (v : Value) → v.same v = true
  | .null => by rw [same]
  | .bool b => by simp [same, sameNumber, sameNumber.sameInt]
  | .int n => by simp [same, sameNumber, sameNumber.sameInt]
  | .float x => by simp [same, sameNumber, x.equals_self]
  | .notANumber label => by simp [same]
  | .str s => by simp [same]
  | .list items => by
    rw [same]
    exact sameItems_self items
  | .tuple items => by
    rw [same]
    exact sameItems_self items
  | .slot items => by
    rw [same]
    exact sameItems_self items
  | .map entries => by
    rw [same, sameEntries_of_subset (fun _ hp => hp) (sameEntries_self entries)]
    simp
  | .lookup origin _ _ _ => by simp [same]
  | .record kind fields => by
    rw [same, sameFields_self kind fields]
    simp

/-- Values are the same as themselves, item by item. -/
theorem sameItems_self : (vs : List Value) → sameItems vs vs = true
  | [] => by rw [sameItems]
  | v :: rest => by rw [sameItems, same_self v, sameItems_self rest, Bool.and_self]

/-- The fields of a record are the same as themselves. -/
theorem sameFields_self (kind : RecordKind) : (vs : List Value) → sameFields kind vs vs = true
  | [] => by rw [sameFields]
  | v :: rest => by rw [sameFields, same_self v, sameFields_self kind rest, Bool.or_true, Bool.and_self]

/-- Keys and values of entries are the same as themselves. -/
theorem sameEntries_self : (entries : List (Value × Value)) →
    ∀ p ∈ entries, p.1.same p.1 = true ∧ p.2.same p.2 = true
  | [] => fun _ hp => absurd hp List.not_mem_nil
  | (k, v) :: rest => fun p hp => by
    rcases List.mem_cons.mp hp with rfl | hp
    · exact ⟨same_self k, same_self v⟩
    · exact sameEntries_self rest p hp

end

/-- Only what is no number is the same as something that is no number. -/
theorem equals_notANumber (v : Value) (label : Nat) : v.equals (.notANumber label) = false := by
  cases v <;> simp [equals, same, sameNumber, sameNumber.sameInt]

/-- What anything equals equals itself. -/
theorem equals_self_of_equals {v w : Value} (h : v.equals w = true) : w.equals w = true := by
  cases w with
  | notANumber label =>
    rw [equals_notANumber] at h
    cases h
  | _ => exact same_self _

end Value

/-- What a name finds it also finds in a list that holds nothing else. -/
theorem Candidates.resolve_kept {cs : Candidates} {kind : String} {name id : Value}
    (h : cs.resolve kind name = .ok id) : Candidates.resolve [(id, name)] kind name = .ok id := by
  unfold resolve firstNamed? at h
  cases hf : cs.find? fun p => p.2.equals name with
  | none =>
    rw [hf] at h
    cases h
  | some p =>
    have hn : p.2.equals name = true := List.find?_some (p := fun p : Value × Value => p.2.equals name) hf
    have hp := Value.equals_self_of_equals hn
    simp [resolve, firstNamed?, hp]

end SceneTree
