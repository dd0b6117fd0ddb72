import SceneTree.Proofs.Evaluation.Ownership
import SceneTree.Proofs.Translation.Reading

/-!
# Plain data

Values that JSON has: they are written as they are, encoding leaves them alone, and no reference hides in them. Nodes
whose attributes are such values, of the types that the attributes are declared with, are what containment speaks of.
-/

namespace SceneTree

namespace Value

mutual

/-- Whether a value is one that JSON has: texts are the only keys, and integers can be read back. -/
def isJson : Value → Bool
  | .null | .bool _ | .float _ | .notANumber _ | .str _ => true
  | .int n => JsonText.isShortInteger n
  | .list items => areJson items
  | .map entries => areJsonEntries entries
  | _ => false

/-- Whether JSON has some values. -/
def areJson : List Value → Bool
  | [] => true
  | v :: rest => isJson v && areJson rest

/-- Whether JSON has some entries. -/
def areJsonEntries : List (Value × Value) → Bool
  | [] => true
  | (.str _, v) :: rest => isJson v && areJsonEntries rest
  | _ :: _ => false

end

theorem areJson_iff {vs : List Value} : areJson vs = true ↔ ∀ v ∈ vs, v.isJson = true := by
  induction vs with
  | nil => simp [areJson]
  | cons v rest ih => simp [areJson, ih]

theorem areJsonEntries_iff {entries : List (Value × Value)} :
    areJsonEntries entries = true ↔ ∀ p ∈ entries, (∃ s, p.1 = .str s) ∧ p.2.isJson = true := by
  induction entries with
  | nil => simp [areJsonEntries]
  | cons p rest ih =>
    obtain ⟨k, v⟩ := p
    cases k <;> simp [areJsonEntries, ih]

/-- Texts and null are among the values that JSON has. -/
theorem IsTextOrNull.isJson {v : Value} (h : v.IsTextOrNull) : v.isJson = true := by
  rcases h with rfl | ⟨s, rfl⟩ <;> rfl

theorem isJson_str (s : String) : (Value.str s).isJson = true := rfl

/-- A list is one that JSON has if its items are. -/
theorem isJson_list {vs : List Value} : (Value.list vs).isJson = true ↔ ∀ v ∈ vs, v.isJson = true := by
  rw [isJson, areJson_iff]

/-- A map with texts as keys is one that JSON has if its values are. -/
theorem isJson_object {entries : List (String × Value)} :
    (Value.object entries).isJson = true ↔ ∀ p ∈ entries, p.2.isJson = true := by
  unfold Value.object
  rw [isJson, areJsonEntries_iff]
  constructor
  · intro h p hp
    exact (h _ (List.mem_map_of_mem hp)).2
  · intro h q hq
    obtain ⟨p, hp, rfl⟩ := List.mem_map.mp hq
    exact ⟨⟨p.1, rfl⟩, h p hp⟩

theorem isJson_object_nil : (Value.object []).isJson = true := rfl

theorem isJson_object_cons {key : String} {v : Value} {rest : List (String × Value)} :
    (Value.object ((key, v) :: rest)).isJson = true ↔ v.isJson = true ∧ (Value.object rest).isJson = true := by
  rw [isJson_object, isJson_object, List.forall_mem_cons]

theorem isJson_object_append {entries rest : List (String × Value)} :
    (Value.object (entries ++ rest)).isJson = true ↔
      (Value.object entries).isJson = true ∧ (Value.object rest).isJson = true := by
  rw [isJson_object, isJson_object, isJson_object, List.forall_mem_append]

/-- The items of a value that JSON has are such values. -/
theorem isJson_of_items {v : Value} {vs : List Value} (h : v.isJson = true) (hi : v.items = .ok vs) :
    ∀ w ∈ vs, w.isJson = true := by
  cases v with
  | str s =>
    cases hi
    intro w hw
    obtain ⟨c, -, rfl⟩ := List.mem_map.mp hw
    rfl
  | list items =>
    cases hi
    exact isJson_list.mp h
  | map entries =>
    rw [isJson, areJsonEntries_iff] at h
    cases hi
    intro w hw
    obtain ⟨p, hp, rfl⟩ := List.mem_map.mp hw
    obtain ⟨s, hs⟩ := (h p hp).1
    rw [hs]
    rfl
  | tuple _ | slot _ => simp [isJson] at h
  | _ => cases hi

/-- The items of a value that JSON has, as far as there are any, are such values. -/
theorem isJson_itemList {v : Value} (h : v.isJson = true) : ∀ w ∈ v.itemList, w.isJson = true := by
  unfold itemList
  cases hi : v.items with
  | error fault => exact List.forall_mem_nil _
  | ok vs => exact isJson_of_items h hi

/-- A map that JSON has is still one when a text is given such a value. -/
theorem isJson_put {entries : Entries} {v : Value} (key : String) (h : (Value.map entries).isJson = true)
    (hv : v.isJson = true) : (Value.map (entries.put (.str key) v)).isJson = true := by
  rw [isJson, areJsonEntries_iff] at h ⊢
  induction entries with
  | nil =>
    intro p hp
    rw [Entries.put, List.mem_singleton] at hp
    rw [hp]
    exact ⟨⟨key, rfl⟩, hv⟩
  | cons q rest ih =>
    obtain ⟨k, w⟩ := q
    have hq := h (k, w) List.mem_cons_self
    intro p hp
    rw [Entries.put] at hp
    split at hp
    · rcases List.mem_cons.mp hp with rfl | hp
      · exact ⟨hq.1, hv⟩
      · exact h p (List.mem_cons_of_mem _ hp)
    · rcases List.mem_cons.mp hp with rfl | hp
      · exact hq
      · exact ih (fun q hq => h q (List.mem_cons_of_mem _ hq)) p hp

mutual

/-- What JSON has is given. -/
theorem isGiven_of_isJson : (v : Value) → v.isJson = true → v.isGiven = true
  | .null, _ | .bool _, _ | .int _, _ | .float _, _ | .notANumber _, _ | .str _, _ => by rw [isGiven] <;> simp
  | .list items, h => by
    rw [isJson] at h
    rw [isGiven]
    exact areGiven_of_areJson items h
  | .map entries, h => by
    rw [isJson] at h
    rw [isGiven]
    exact areGiven_of_areJsonEntries entries h
  | .tuple _, h | .slot _, h | .lookup .., h | .record .., h => by simp [isJson] at h

theorem areGiven_of_areJson : (vs : List Value) → areJson vs = true → areGiven vs = true
  | [], _ => by rw [areGiven]
  | v :: rest, h => by
    rw [areJson, Bool.and_eq_true] at h
    rw [areGiven, isGiven_of_isJson v h.1, areGiven_of_areJson rest h.2]
    rfl

theorem areGiven_of_areJsonEntries : (entries : List (Value × Value)) → areJsonEntries entries = true →
    areGivenEntries entries = true
  | [], _ => by rw [areGivenEntries]
  | (k, v) :: rest, h => by
    cases k with
    | str s =>
      rw [areJsonEntries, Bool.and_eq_true] at h
      rw [areGivenEntries, isGiven_of_isJson v h.1, areGiven_of_areJsonEntries rest h.2]
      rfl
    | _ => simp [areJsonEntries] at h

end

mutual

/-- Encoding leaves alone what JSON has. -/
theorem encode_of_isJson : (v : Value) → v.isJson = true → ∀ readings, encode v readings = (.ok v, readings)
  | .null, _, _ | .bool _, _, _ | .int _, _, _ | .float _, _, _ | .notANumber _, _, _ | .str _, _, _ => by
    rw [encode] <;> simp
  | .list items, h, readings => by
    rw [isJson] at h
    rw [encode, Attempt.bind_apply_of_ok (encodeItems_of_areJson items h readings)]
    rfl
  | .map entries, h, readings => by
    rw [isJson] at h
    rw [encode, Attempt.bind_apply_of_ok (encodeEntries_of_areJson entries h readings)]
    rfl
  | .tuple _, h, _ | .slot _, h, _ | .lookup .., h, _ | .record .., h, _ => by simp [isJson] at h

theorem encodeItems_of_areJson : (vs : List Value) → areJson vs = true → ∀ readings,
    encodeItems vs readings = (.ok vs, readings)
  | [], _, readings => by
    rw [encodeItems]
    rfl
  | v :: rest, h, readings => by
    rw [areJson, Bool.and_eq_true] at h
    rw [encodeItems, Attempt.bind_apply_of_ok (encode_of_isJson v h.1 readings),
      Attempt.bind_apply_of_ok (encodeItems_of_areJson rest h.2 readings)]
    rfl

theorem encodeEntries_of_areJson : (entries : List (Value × Value)) → areJsonEntries entries = true → ∀ readings,
    encodeEntries entries readings = (.ok entries, readings)
  | [], _, readings => by
    rw [encodeEntries]
    rfl
  | (k, v) :: rest, h, readings => by
    cases k with
    | str s =>
      rw [areJsonEntries, Bool.and_eq_true] at h
      rw [encodeEntries, Attempt.bind_apply_of_ok (encode_of_isJson v h.1 readings),
        Attempt.bind_apply_of_ok (encodeEntries_of_areJson rest h.2 readings)]
      rfl
    | _ => simp [areJsonEntries] at h

end

end Value

namespace JsonText

open Value

mutual

/-- What JSON has can be written. -/
theorem write_of_isJson (layout : Layout) (level : Nat) : (v : Value) → v.isJson = true →
    ∃ chars, write layout level v = .ok chars
  | .null, _ | .bool _, _ | .float _, _ | .notANumber _, _ => ⟨_, by rw [write] <;> first | rfl | simp⟩
  | .str s, _ => ⟨_, by rw [write]⟩
  | .int n, h => by
    rw [isJson] at h
    refine ⟨(toString n).toList, ?_⟩
    rw [write, plain, if_pos h] <;> simp
  | .list [], _ => ⟨_, by rw [write]⟩
  | .list (v :: rest), h => by
    rw [isJson] at h
    obtain ⟨chars, hc⟩ := writeItems_of_areJson layout (level + 1) (v :: rest) h
    rw [write, hc]
    · exact ⟨_, rfl⟩
    · simp
  | .map [], _ => ⟨_, by rw [write]⟩
  | .map (p :: rest), h => by
    rw [isJson] at h
    obtain ⟨chars, hc⟩ := writeEntries_of_areJson layout (level + 1) (p :: rest) h
    rw [write, hc]
    · exact ⟨_, rfl⟩
    · simp
  | .tuple _, h | .slot _, h | .lookup .., h | .record .., h => by simp [isJson] at h

theorem writeItems_of_areJson (layout : Layout) (level : Nat) : (vs : List Value) → areJson vs = true →
    ∃ chars, writeItems layout level vs = .ok chars
  | [], _ => ⟨_, by rw [writeItems]⟩
  | [v], h => by
    rw [areJson, Bool.and_eq_true] at h
    rw [writeItems]
    exact write_of_isJson layout level v h.1
  | v :: w :: rest, h => by
    rw [areJson, Bool.and_eq_true] at h
    obtain ⟨head, hh⟩ := write_of_isJson layout level v h.1
    obtain ⟨tail, ht⟩ := writeItems_of_areJson layout level (w :: rest) h.2
    rw [writeItems, hh, ht]
    · exact ⟨_, rfl⟩
    · simp

theorem writeEntries_of_areJson (layout : Layout) (level : Nat) : (entries : List (Value × Value)) →
    areJsonEntries entries = true → ∃ chars, writeEntries layout level entries = .ok chars
  | [], _ => ⟨_, by rw [writeEntries]⟩
  | (k, v) :: rest, h => by
    cases k with
    | str s =>
      rw [areJsonEntries, Bool.and_eq_true] at h
      obtain ⟨value, hv⟩ := write_of_isJson layout level v h.1
      obtain ⟨tail, ht⟩ := writeEntries_of_areJson layout level rest h.2
      rw [writeEntries, keyText, hv, ht]
      exact ⟨_, rfl⟩
    | _ => simp [areJsonEntries] at h

end

/-- What JSON has has a text in every layout that is not too wide. -/
theorem text_of_isJson {v : Value} (layout : Layout) (h : v.isJson = true) (hs : layout.isShort = true)
    (hh : layout.isHoldable = true) : ∃ s, text layout v = .ok s := by
  obtain ⟨chars, hc⟩ := write_of_isJson layout 0 v h
  refine ⟨String.ofList chars, ?_⟩
  rw [text, hs, hh, hc]
  rfl

end JsonText

end SceneTree
