import SceneTree.Document.Basic
import SceneTree.Proofs.Cells
import SceneTree.Proofs.Encoding.Composition
import SceneTree.Proofs.Sameness

/-!
# The normal form of values

A value in a document is read with what its references may mean at that time. Encoding a composed value gives plain
data, whatever was read before; and because the references keep what they found, encoding it again gives the same data
when other things have the names.
-/

namespace SceneTree

namespace Document

mutual

/-- A value as a document lets it be seen: its references may mean what the document has for them. -/
def seen (doc : Document) : Value → Value
  | .record .script
      [id, type, x, y, assemble, copyable, deletable, emphasized, movable, readOnly, extensions, params,
        statements] =>
    .record .script
      [id, type, x, y, assemble, copyable, deletable, emphasized, movable, readOnly, extensions, seen doc params,
        seen doc statements]
  | .slot items => .slot (seenItems doc items)
  | .list items => .list (seenItems doc items)
  | .tuple items => .tuple (seenItems doc items)
  | .map entries => .map (seenEntries doc entries)
  | .lookup (.param index) _ _ _ => doc.referenceValue index
  | v => v

/-- The items of a collection as a document lets them be seen. -/
def seenItems (doc : Document) : List Value → List Value
  | [] => []
  | v :: rest => seen doc v :: seenItems doc rest

/-- The entries of a map as a document lets them be seen. -/
def seenEntries (doc : Document) : List (Value × Value) → List (Value × Value)
  | [] => []
  | (k, v) :: rest => (k, seen doc v) :: seenEntries doc rest

end

/-- Encodes a value as a document lets it be seen; the references that are read keep what they find. -/
def encoding (v : Value) : Attempt Document Value := reading fun doc => (doc.seen v).encode

variable {doc later : Document} {α β : Type} {P : α → Prop} {Q : β → Prop}

/-! ### What stays -/

/-- A reference comes to what a reading noted. -/
def Noted (doc : Document) (p : Nat × Value) : Prop :=
  ∃ kind name candidates, doc.referenceValue p.1 = .lookup (.param p.1) kind name candidates ∧
    Candidates.resolve candidates kind name = .ok p.2

/-- A document has as many references as another, and those that were read come to what was noted. -/
def Follows (doc later : Document) (noted : Readings) : Prop :=
  later.references.size = doc.references.size ∧ ∀ p ∈ noted, later.Noted p

/-- What is read in a document has a property, and it is the same in every document that follows. -/
def Steady (doc : Document) (P : α → Prop) (x : Document → Attempt Readings α) : Prop :=
  ∃ a noted, P a ∧ (∀ p ∈ noted, doc.Noted p) ∧
    ∀ later, doc.Follows later noted → ∀ readings, x later readings = (.ok a, readings ++ noted)

theorem Steady.pure {a : α} (h : P a) : doc.Steady P fun _ => Pure.pure a :=
  ⟨a, [], h, List.forall_mem_nil _, fun _ _ readings => by rw [List.append_nil]; rfl⟩

theorem Steady.bind {x : Document → Attempt Readings α} {f : Document → α → Attempt Readings β} (h : doc.Steady P x)
    (hf : ∀ a, P a → doc.Steady Q fun later => f later a) : doc.Steady Q fun later => x later >>= f later := by
  obtain ⟨a, noted, ha, hnoted, hx⟩ := h
  obtain ⟨b, noted', hb, hnoted', hfx⟩ := hf a ha
  refine ⟨b, noted ++ noted', hb, List.forall_mem_append.mpr ⟨hnoted, hnoted'⟩, ?_⟩
  rintro later ⟨hsize, hlater⟩ readings
  obtain ⟨hfirst, hsecond⟩ := List.forall_mem_append.mp hlater
  calc (x later >>= f later) readings
    _ = f later a (readings ++ noted) := Attempt.bind_apply_of_ok (hx later ⟨hsize, hfirst⟩ readings)
    _ = (.ok b, readings ++ noted ++ noted') := hfx later ⟨hsize, hsecond⟩ _
    _ = (.ok b, readings ++ (noted ++ noted')) := by rw [List.append_assoc]

theorem Noted.encode_eq {p : Nat × Value} (h : doc.Noted p) (readings : Readings) :
    (doc.referenceValue p.1).encode readings = (.ok p.2, readings ++ [p]) := by
  obtain ⟨kind, name, candidates, hlookup, hfound⟩ := h
  rw [hlookup, Value.encode, readLookup, hfound]
  rfl

theorem referenceValue_of_none {index : Nat} (h : doc.references.get? index = none) :
    doc.referenceValue index = .null := by
  unfold referenceValue
  rw [h]

/-- A reference comes to the id of what it finds, in every document that follows. -/
theorem steady_referenceValue {index : Nat} (h : (doc.referenceValue index).Composed) :
    doc.Steady Value.Plain fun later => (later.referenceValue index).encode := by
  cases hr : doc.references.get? index with
  | none =>
    refine ⟨.null, [], .scalar rfl, List.forall_mem_nil _, fun later hlater readings => ?_⟩
    have hnone : later.references.get? index = none := by
      rw [← Option.not_isSome_iff_eq_none, Cells.isSome_get?_iff, hlater.1, ← Cells.isSome_get?_iff, hr]
      exact Bool.false_ne_true
    simp only [referenceValue_of_none hnone, List.append_nil]
    rfl
  | some cell =>
    obtain ⟨target, r⟩ := cell
    have hv : ∃ candidates, doc.referenceValue index = .lookup (.param index) r.kind r.name candidates := by
      unfold referenceValue
      rw [hr]
      exact ⟨_, rfl⟩
    obtain ⟨candidates, hv⟩ := hv
    rw [hv] at h
    cases h with
    | @lookup _ _ id _ _ h =>
      refine ⟨.str id, [(index, .str id)], .scalar rfl, ?_, fun later hlater => ?_⟩
      · exact List.forall_mem_singleton.mpr ⟨_, _, _, hv, h⟩
      · exact (hlater.2 _ (List.mem_singleton_self _)).encode_eq
    | scalar h => cases h
    | items h => cases h

/-! ### Composed values -/

/-- A composed value is encoded as plain data, and as the same in every document that follows. -/
theorem steady_seen (v : Value) (h : (doc.seen v).Composed) :
    doc.Steady Value.Plain fun later => (later.seen v).encode := by
  revert h
  refine seen.induct (fun v => (doc.seen v).Composed → doc.Steady Value.Plain fun later => (later.seen v).encode)
    (fun entries => (∀ p ∈ doc.seenEntries entries, p.1.isScalar = true) →
      (∀ p ∈ doc.seenEntries entries, p.2.Composed) →
      doc.Steady (fun entries => (∀ p ∈ entries, p.1.isScalar = true) ∧ ∀ p ∈ entries, p.2.Plain)
        fun later => Value.encodeEntries (later.seenEntries entries))
    (fun items => (∀ v ∈ doc.seenItems items, v.Composed) → doc.Steady (∀ v ∈ ·, v.Plain)
      fun later => Value.encodeItems (later.seenItems items)) ?_ ?_ ?_ ?_ ?_ ?_ ?_ ?_ ?_ ?_ ?_ v
  · intro id type x y assemble copyable deletable emphasized movable readOnly extensions params statements hp hs h
    rw [seen] at h
    obtain ⟨-, head, _, _, _, heq, ho, he, hx, hparams, hstatements⟩ := h.of_script
    simp only [ScriptHead.own, List.cons_append, List.nil_append, List.cons.injEq, and_true] at heq
    obtain ⟨rfl, rfl, rfl, rfl, rfl, rfl, rfl, rfl, rfl, rfl, rfl, rfl, rfl⟩ := heq
    have hencode : ∀ later : Document,
        (later.seen (.record .script (head.own ++ [extensions, params, statements]))).encode = (do
          let params ← (later.seen params).encode
          let statements ← (later.seen statements).encode
          pure (head.layout params statements)) := fun later => Value.encode_script he _ _
    simp only [ScriptHead.own, List.cons_append, List.nil_append] at hencode
    simp only [hencode]
    exact (hp hparams).bind fun w hw => (hs hstatements).bind fun w' hw' => .pure (.layout ho hx hw hw')
  · intro items ih h
    have hitems : ∀ v ∈ doc.seenItems items, v.Composed := h.of_collected rfl
    simp only [seen, Value.encode]
    exact (ih hitems).bind fun ws hws => .pure (.list hws)
  · intro items ih h
    have hitems : ∀ v ∈ doc.seenItems items, v.Composed := h.of_collected rfl
    simp only [seen, Value.encode]
    exact (ih hitems).bind fun ws hws => .pure (.list hws)
  · intro items ih h
    have hitems : ∀ v ∈ doc.seenItems items, v.Composed := h.of_collected rfl
    simp only [seen, Value.encode]
    exact (ih hitems).bind fun ws hws => .pure (.list hws)
  · intro entries ih h
    rw [seen] at h
    obtain ⟨hkeys, hvalues⟩ := h.of_map
    simp only [seen, Value.encode]
    exact (ih hkeys hvalues).bind fun ws hws => .pure (.map hws.1 hws.2)
  · intro index kind name candidates h
    exact steady_referenceValue h
  · intro v h₁ h₂ h₃ h₄ h₅ h₆ h
    have hseen : ∀ doc : Document, doc.seen v = v := fun doc => seen.eq_7 doc v h₁ h₂ h₃ h₄ h₅ h₆
    rw [hseen] at h
    simp only [hseen]
    cases h with
    | scalar h =>
      rw [Value.encode_of_isScalar h]
      exact .pure (.scalar h)
    | items hv =>
      cases v with
      | list => exact (h₃ _ rfl).elim
      | tuple => exact (h₄ _ rfl).elim
      | slot => exact (h₂ _ rfl).elim
      | _ => cases hv
    | map => exact (h₅ _ rfl).elim
    | script => exact (h₁ _ _ _ _ _ _ _ _ _ _ _ _ _ rfl).elim
    | @lookup origin kind id name candidates h =>
      cases origin with
      | param index => exact (h₆ _ _ _ _ rfl).elim
      | given label =>
        rw [Value.encode, readLookup, h]
        exact .pure (.scalar rfl)
  · intro _
    simp only [seenItems, Value.encodeItems]
    exact .pure (List.forall_mem_nil _)
  · intro v rest hv hr h
    obtain ⟨hhead, htail⟩ := List.forall_mem_cons.mp h
    simp only [seenItems, Value.encodeItems]
    exact (hv hhead).bind fun w hw => (hr htail).bind fun ws hws => .pure (List.forall_mem_cons.mpr ⟨hw, hws⟩)
  · intro _ _
    simp only [seenEntries, Value.encodeEntries]
    exact .pure ⟨List.forall_mem_nil _, List.forall_mem_nil _⟩
  · intro k v rest hv hr hk h
    obtain ⟨hkey, hkeys⟩ := List.forall_mem_cons.mp hk
    obtain ⟨hhead, htail⟩ := List.forall_mem_cons.mp h
    simp only [seenEntries, Value.encodeEntries]
    exact (hv hhead).bind fun w hw => (hr hkeys htail).bind fun ws hws =>
      .pure ⟨List.forall_mem_cons.mpr ⟨hkey, hws.1⟩, List.forall_mem_cons.mpr ⟨hw, hws.2⟩⟩

/-! ### What references keep -/

/-- A reference that was read, and always with the same result, keeps it. -/
theorem found_keep {noted : Readings} {index : Nat} {id : Value} {target : Target} {r : Reference}
    (hr : doc.references.get? index = some (target, r)) (hsame : ∀ p ∈ noted, p.1 = index → p.2 = id)
    (hread : r.found = some id ∨ ∃ p ∈ noted, p.1 = index) :
    ∃ r', (doc.keep noted).references.get? index = some (target, r') ∧ r'.found = some id ∧ r'.kind = r.kind ∧
      r'.name = r.name := by
  induction noted generalizing doc r with
  | nil =>
    obtain hfound | ⟨p, hp, -⟩ := hread
    · exact ⟨r, hr, hfound, rfl, rfl⟩
    · cases hp
  | cons p rest ih =>
    have hrest : ∀ q ∈ rest, q.1 = index → q.2 = id := fun q hq => hsame q (List.mem_cons_of_mem _ hq)
    by_cases hp : p.1 = index
    · have hfound : (doc.keep [p]).references.get? index = some (target, { r with found := some p.2 }) := by
        subst hp
        exact (Cells.get?_modify_self doc.references p.1 _).trans (by rw [hr]; rfl)
      obtain ⟨r', hr', hid, hkind, hname⟩ :=
        ih hfound hrest (.inl (congrArg some (hsame p List.mem_cons_self hp)))
      exact ⟨r', hr', hid, hkind, hname⟩
    · have hkept : (doc.keep [p]).references.get? index = some (target, r) :=
        (Cells.get?_modify_of_ne doc.references _ (Ne.symm hp)).trans hr
      refine ih hkept hrest (hread.imp_right ?_)
      rintro ⟨q, hq, heq⟩
      rcases List.mem_cons.mp hq with rfl | hq
      · exact absurd heq hp
      · exact ⟨q, hq, heq⟩

theorem size_references_keep (doc : Document) (readings : Readings) :
    (doc.keep readings).references.size = doc.references.size := by
  induction readings generalizing doc with
  | nil => rfl
  | cons p rest ih =>
    rw [show doc.keep (p :: rest) = (doc.keep [p]).keep rest from rfl, ih]
    exact Cells.size_modify ..

theorem Noted.eq_of_index {p q : Nat × Value} (h : doc.Noted p) (h' : doc.Noted q) (heq : p.1 = q.1) :
    p.2 = q.2 := by
  have hencode := h.encode_eq []
  rw [heq, h'.encode_eq []] at hencode
  exact (Except.ok.inj (Prod.mk.inj hencode).1).symm

/-- Whatever happens to the other parts of a document, the references that were read come to what was noted. -/
theorem follows_of_references {noted : Readings} (h : ∀ p ∈ noted, doc.Noted p)
    (hl : later.references = (doc.keep noted).references) : doc.Follows later noted := by
  refine ⟨by rw [hl, size_references_keep], fun p hp => ?_⟩
  obtain ⟨kind, name, candidates, hlookup, hfound⟩ := h p hp
  cases hr : doc.references.get? p.1 with
  | none =>
    rw [referenceValue_of_none hr] at hlookup
    cases hlookup
  | some cell =>
    obtain ⟨target, r⟩ := cell
    unfold referenceValue at hlookup
    rw [hr] at hlookup
    cases hlookup
    obtain ⟨r', hr', hid, hkind, hname⟩ :=
      found_keep hr (fun q hq heq => (h q hq).eq_of_index (h p hp) heq) (.inr ⟨p, hp, rfl⟩)
    refine ⟨r.kind, r.name, [(p.2, r.name)], ?_, Candidates.resolve_kept hfound⟩
    unfold referenceValue
    simp only [hl, hr', hid, hkind, hname]

/-- Encoding a composed value gives plain data, which are their own encoding. It does not matter which of its
collections are lists, tuples or slots. Once it was encoded, it is encoded as the same, whatever becomes of the entities
that its references could name. -/
theorem encoding_normalizes (doc : Document) (v : Value) (h : (doc.seen v).Composed) :
    ∃ data, data.Plain ∧ (encoding v doc).1 = .ok data ∧
      (∀ readings, data.encode readings = (.ok data, readings)) ∧
      (∀ w, (doc.seen v).Alike w → w.Composed → w.encode = (doc.seen v).encode) ∧
      ∀ later : Document, later.references = (encoding v doc).2.references → (encoding v later).1 = .ok data := by
  obtain ⟨data, noted, hplain, hnoted, hencode⟩ := steady_seen v h
  have hfirst : encoding v doc = (.ok data, doc.keep noted) := by
    unfold encoding reading
    rw [hencode doc ⟨rfl, hnoted⟩ []]
    rfl
  refine ⟨data, hplain, congrArg Prod.fst hfirst, fun _ => congrFun hplain.encode_eq _,
    fun w hw hc => (hw.encode_eq h hc).symm, fun later hlater => ?_⟩
  rw [hfirst] at hlater
  unfold encoding reading
  rw [hencode later (follows_of_references hnoted hlater) []]

/-- A document with a variable, and a reference by its name. -/
def scored : Document :=
  { empty with
    globals := Roster.empty.insert 0 ⟨.str "7q2f", .str "score", .int 0, .bool true, .int 0, .int 0, .null,
      .bool false, .bool false, .null⟩
    references := ⟨#[(.globals, .ofName "Variable" (.str "score"))]⟩ }

/-- A block that reads the variable in a slot and in a map in a tuple. -/
def setScore : Value :=
  .slot [.record .script [.str "a1b2", .str "set_variable", .int 0, .int 0, .bool true, .bool true, .int 1, .bool false,
    .null, .null, .list [.str "note"], .slot [.lookup (.param 0) "Variable" (.str "score") [], .int 5],
    .tuple [.map [(.str "of", .lookup (.param 0) "Variable" (.str "score") [])]]]]

theorem encoding_normalizes_withoutVariable :
    (scored.seen setScore).Composed ∧ ∃ data, data.Plain ∧ (encoding setScore scored).1 = .ok data ∧
      (encoding setScore { (encoding setScore scored).2 with globals := .empty }).1 = .ok data := by
  have hread : (scored.referenceValue 0).Composed := by
    have hfound : Candidates.resolve [(.str "7q2f", .str "score")] "Variable" (.str "score") = .ok (.str "7q2f") := by
      simp only [Candidates.resolve, Candidates.firstNamed?, List.find?_cons, Value.equals, Value.same, BEq.rfl,
        Option.map_some]
    exact .lookup hfound
  have hparams : (scored.seen (.slot [.lookup (.param 0) "Variable" (.str "score") [], .int 5])).Composed := by
    simp only [seen, seenItems]
    exact .items rfl (List.forall_mem_cons.mpr ⟨hread, List.forall_mem_singleton.mpr (.scalar rfl)⟩)
  have hstatements : (scored.seen
      (.tuple [.map [(.str "of", .lookup (.param 0) "Variable" (.str "score") [])]])).Composed := by
    simp only [seen, seenItems, seenEntries]
    exact .items rfl (List.forall_mem_singleton.mpr
      (.map (List.forall_mem_singleton.mpr rfl) (List.forall_mem_singleton.mpr hread)))
  have hblock : (scored.seen setScore).Composed := by
    simp only [setScore, seen, seenItems] at hparams hstatements ⊢
    refine .items rfl (List.forall_mem_singleton.mpr (@Value.Composed.script
      ⟨.str "a1b2", .str "set_variable", .int 0, .int 0, .bool true, .bool true, .int 1, .bool false, .null, .null,
        [.str "note"]⟩ _ _ _ ?_ rfl (List.forall_mem_singleton.mpr (.scalar rfl)) hparams hstatements))
    simp only [ScriptHead.own, List.forall_mem_cons, List.not_mem_nil, false_implies, implies_true, and_true]
    exact ⟨.scalar rfl, .scalar rfl, .scalar rfl, .scalar rfl, .scalar rfl, .scalar rfl, .scalar rfl, .scalar rfl,
      .scalar rfl, .scalar rfl⟩
  obtain ⟨data, hplain, hfirst, -, -, hlater⟩ := encoding_normalizes scored setScore hblock
  exact ⟨hblock, data, hplain, hfirst, hlater _ rfl⟩

end Document

end SceneTree
