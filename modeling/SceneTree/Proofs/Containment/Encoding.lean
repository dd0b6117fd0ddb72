import SceneTree.Proofs.Containment.Data

/-!
# What can be encoded

A value that a script holds can be encoded if what it holds can be and every lookup in it finds something; its encoding
is plain data then and has a text.
-/

namespace SceneTree

namespace Value

/-- A value comes out of an encoding that succeeds. -/
def Encodable (v : Value) : Prop := ∃ w readings readings', encode v readings = (.ok w, readings')

/-- A value has an encoding in plain data, whatever was read before, and nothing is read for it. -/
def Encodes (v : Value) : Prop := ∃ w, w.isJson = true ∧ ∀ readings, encode v readings = (.ok w, readings)

/-- What was encoded as an item can be encoded. -/
theorem encodable_of_encodeItems {vs ws : List Value} {readings readings' : Readings}
    (h : encodeItems vs readings = (.ok ws, readings')) : ∀ v ∈ vs, v.Encodable := by
  induction vs generalizing ws readings readings' with
  | nil => exact List.forall_mem_nil _
  | cons v rest ih =>
    rw [encodeItems] at h
    obtain ⟨w, r₁, hw, h⟩ := Attempt.bind_eq_ok_iff.mp h
    obtain ⟨ws', r₂, hws, -⟩ := Attempt.bind_eq_ok_iff.mp h
    intro u hu
    rcases List.mem_cons.mp hu with rfl | hu
    · exact ⟨w, readings, r₁, hw⟩
    · exact ih hws u hu

/-- The items of a slot that can be encoded can be encoded. -/
theorem Encodable.slot {vs : List Value} (h : (Value.slot vs).Encodable) : ∀ v ∈ vs, v.Encodable := by
  obtain ⟨w, readings, readings', h⟩ := h
  rw [encode] at h
  obtain ⟨ws, r, hws, -⟩ := Attempt.bind_eq_ok_iff.mp h
  exact encodable_of_encodeItems hws

/-- The parameters and statements of a script that can be encoded can be encoded. -/
theorem Encodable.script {head : ScriptHead} {params statements : Value}
    (h : (head.toRecord params statements).Encodable) : params.Encodable ∧ statements.Encodable := by
  obtain ⟨w, readings, readings', h⟩ := h
  unfold ScriptHead.toRecord at h
  rw [encode] at h
  obtain ⟨p, r₁, hp, h⟩ := Attempt.bind_eq_ok_iff.mp h
  obtain ⟨s, r₂, hs, -⟩ := Attempt.bind_eq_ok_iff.mp h
  exact ⟨⟨p, readings, r₁, hp⟩, ⟨s, r₁, r₂, hs⟩⟩

/-- A lookup that can be encoded finds something. -/
theorem Encodable.lookup {origin : Origin} {kind : String} {name : Value} {cs : Candidates}
    (h : (Value.lookup origin kind name cs).Encodable) : (cs.firstNamed? name).isSome = true := by
  obtain ⟨w, readings, readings', h⟩ := h
  rw [encode, readLookup] at h
  obtain ⟨id, r, hid, -⟩ := Attempt.bind_eq_ok_iff.mp h
  unfold Candidates.resolve at hid
  cases hf : cs.firstNamed? name with
  | some _ => rfl
  | none =>
    rw [hf] at hid
    cases hid

/-- Plain data is its own encoding. -/
theorem Encodes.of_isJson {v : Value} (h : v.isJson = true) : v.Encodes := ⟨v, h, encode_of_isJson v h⟩

theorem encodeItems_of_encodes {vs : List Value} (h : ∀ v ∈ vs, v.Encodes) :
    ∃ ws, (∀ w ∈ ws, w.isJson = true) ∧ ∀ readings, encodeItems vs readings = (.ok ws, readings) := by
  induction vs with
  | nil => exact ⟨[], List.forall_mem_nil _, fun _ => by rw [encodeItems]; rfl⟩
  | cons v rest ih =>
    obtain ⟨w, hw, hv⟩ := h v List.mem_cons_self
    obtain ⟨ws, hws, hrest⟩ := ih fun u hu => h u (List.mem_cons_of_mem _ hu)
    refine ⟨w :: ws, ?_, fun readings => ?_⟩
    · intro u hu
      rcases List.mem_cons.mp hu with rfl | hu
      · exact hw
      · exact hws u hu
    · rw [encodeItems, Attempt.bind_apply_of_ok (hv readings), Attempt.bind_apply_of_ok (hrest readings)]
      rfl

/-- A slot has an encoding if its items have. -/
theorem Encodes.slot {vs : List Value} (h : ∀ v ∈ vs, v.Encodes) : (Value.slot vs).Encodes := by
  obtain ⟨ws, hws, hvs⟩ := encodeItems_of_encodes h
  refine ⟨.list ws, isJson_list.mpr hws, fun readings => ?_⟩
  rw [encode, Attempt.bind_apply_of_ok (hvs readings)]
  rfl

/-- A lookup that finds something among plain ids has an encoding. -/
theorem Encodes.lookup {label : Nat} {kind : String} {name : Value} {cs : Candidates}
    (h : (cs.firstNamed? name).isSome = true) (hc : ∀ p ∈ cs, p.1.isJson = true) :
    (Value.lookup (.given label) kind name cs).Encodes := by
  obtain ⟨id, hid⟩ := Option.isSome_iff_exists.mp h
  have hfound := hid
  unfold Candidates.firstNamed? at hfound
  obtain ⟨p, hp, rfl⟩ := Option.map_eq_some_iff.mp hfound
  refine ⟨p.1, hc p (List.mem_of_find?_eq_some hp), fun readings => ?_⟩
  have hresolve : cs.resolve kind name = .ok p.1 := by
    unfold Candidates.resolve
    rw [hid]
  rw [encode, readLookup, hresolve]
  rfl

/-- A script has an encoding if its parameters and statements have and all else is plain data. -/
theorem Encodes.script {head : ScriptHead} {params statements : Value} (hp : params.Encodes) (hs : statements.Encodes)
    (hh : ∀ p s : Value, p.isJson = true → s.isJson = true → (head.layout p s).isJson = true) :
    (head.toRecord params statements).Encodes := by
  obtain ⟨p, hpj, hp⟩ := hp
  obtain ⟨s, hsj, hs⟩ := hs
  refine ⟨head.layout p s, hh p s hpj hsj, fun readings => ?_⟩
  unfold ScriptHead.toRecord
  rw [encode, Attempt.bind_apply_of_ok (hp readings), Attempt.bind_apply_of_ok (hs readings)]
  rfl

/-- The text of a value that has an encoding. -/
theorem Encodes.dump {v : Value} (h : v.Encodes) : ∃ s, (v.dump []).1 = .ok s := by
  obtain ⟨w, hw, hv⟩ := h
  obtain ⟨s, hs⟩ := JsonText.text_of_isJson .compact hw rfl rfl
  refine ⟨s, ?_⟩
  unfold Value.dump
  rw [Attempt.bind_apply_of_ok (hv [])]
  exact hs

/-- A value with a text can be encoded. -/
theorem encodable_of_dump {v : Value} {s : String} (h : (v.dump []).1 = .ok s) : v.Encodable := by
  unfold Value.dump at h
  rcases he : v.encode [] with ⟨_ | w, readings⟩
  · rw [Attempt.bind_apply_of_error he] at h
    cases h
  · exact ⟨w, [], readings, he⟩

end Value

end SceneTree
