import Mathlib.Data.List.Forall2
import SceneTree.Proofs.Attempt
import SceneTree.Document.Encoding

/-!
# What values are composed of

Plain data are null, truth values, numbers and texts, and lists and maps of plain data. Encoding makes plain data of a
value that is composed to any depth of these, of tuples and slots, of scripts and of references that find what they
name. It does not tell lists, tuples and slots apart.
-/

namespace SceneTree

/-- What a script says of itself, apart from its extensions. -/
def ScriptHead.own (head : ScriptHead) : List Value :=
  [head.id, head.type, head.x, head.y, head.assemble, head.copyable, head.deletable, head.emphasized, head.movable,
    head.readOnly]

theorem ScriptHead.eq_of_own {head head' : ScriptHead} (h : head.own = head'.own)
    (hx : head.extensions = head'.extensions) : head = head' := by
  cases head
  cases head'
  simp only [own] at h hx
  cases h
  cases hx
  rfl

namespace Value

variable {v w : Value} {xs ys : List Value}

/-- Null, a truth value, a number or a text: a value that holds no other. -/
def isScalar : Value → Bool
  | .null | .bool _ | .int _ | .float _ | .notANumber _ | .str _ => true
  | _ => false

/-- The items of a list, a tuple or a slot. -/
def collected? : Value → Option (List Value)
  | .list items | .tuple items | .slot items => some items
  | _ => none

/-- Plain data. -/
inductive Plain : Value → Prop where
  | scalar {v : Value} (h : v.isScalar = true) : Plain v
  | list {items : List Value} (h : ∀ v ∈ items, Plain v) : Plain (.list items)
  | map {entries : List (Value × Value)} (hk : ∀ p ∈ entries, p.1.isScalar = true) (h : ∀ p ∈ entries, Plain p.2) :
      Plain (.map entries)

/-- A value that is composed of plain data, lists, tuples, slots, maps, scripts and references. What a script says of
itself is plain, and so are its extensions; a reference finds something whose id is a text. -/
inductive Composed : Value → Prop where
  | scalar {v : Value} (h : v.isScalar = true) : Composed v
  | items {v : Value} {items : List Value} (hv : v.collected? = some items) (h : ∀ w ∈ items, Composed w) : Composed v
  | map {entries : List (Value × Value)} (hk : ∀ p ∈ entries, p.1.isScalar = true) (h : ∀ p ∈ entries, Composed p.2) :
      Composed (.map entries)
  | script {head : ScriptHead} {extensions params statements : Value} (ho : ∀ v ∈ head.own, v.Plain)
      (he : extensions.items = .ok head.extensions) (hx : ∀ v ∈ head.extensions, v.Plain) (hp : Composed params)
      (hs : Composed statements) : Composed (.record .script (head.own ++ [extensions, params, statements]))
  | lookup {origin : Origin} {kind id : String} {name : Value} {candidates : Candidates}
      (h : candidates.resolve kind name = .ok (.str id)) : Composed (.lookup origin kind name candidates)

/-- Two values differ only in which of their collections are lists, tuples or slots. -/
inductive Alike : Value → Value → Prop where
  | refl (v : Value) : Alike v v
  | items {v w : Value} {xs ys : List Value} (hv : v.collected? = some xs) (hw : w.collected? = some ys)
      (hl : xs.length = ys.length) (h : ∀ p ∈ xs.zip ys, Alike p.1 p.2) : Alike v w
  | map {es fs : List (Value × Value)} (hk : es.map (·.1) = fs.map (·.1)) (h : ∀ p ∈ es.zip fs, Alike p.1.2 p.2.2) :
      Alike (.map es) (.map fs)
  | record {kind : RecordKind} {xs ys : List Value} (hl : xs.length = ys.length)
      (h : ∀ p ∈ xs.zip ys, Alike p.1 p.2) : Alike (.record kind xs) (.record kind ys)

/-! ### Plain data -/

theorem collected?_of_isScalar (h : v.isScalar = true) : v.collected? = none := by
  cases v <;> first | rfl | cases h

theorem encode_of_isScalar (h : v.isScalar = true) : encode v = pure v := by
  cases v <;> first | rfl | cases h

theorem encode_of_collected (h : v.collected? = some xs) : encode v = (do pure (.list (← encodeItems xs))) := by
  cases v <;> cases h <;> rw [encode]

theorem encodeItems_of_forall (h : ∀ v ∈ xs, encode v = pure v) : encodeItems xs = pure xs := by
  induction xs with
  | nil => rfl
  | cons v rest ih =>
    rw [encodeItems, h v List.mem_cons_self, ih fun w hw => h w (List.mem_cons_of_mem _ hw)]
    rfl

theorem encodeEntries_of_forall {entries : List (Value × Value)} (h : ∀ p ∈ entries, encode p.2 = pure p.2) :
    encodeEntries entries = pure entries := by
  induction entries with
  | nil => rfl
  | cons p rest ih =>
    obtain ⟨k, v⟩ := p
    rw [encodeEntries, h (k, v) List.mem_cons_self, ih fun q hq => h q (List.mem_cons_of_mem _ hq)]
    rfl

/-- The encoding of a script is the layout of what it says of itself and of the encodings of its two parts. -/
theorem encode_script {head : ScriptHead} {extensions : Value} (he : extensions.items = .ok head.extensions)
    (params statements : Value) :
    encode (.record .script (head.own ++ [extensions, params, statements])) = (do
      let params ← encode params
      let statements ← encode statements
      pure (head.layout params statements)) := by
  rw [ScriptHead.own]
  simp only [List.cons_append, List.nil_append]
  rw [encode, he]
  rfl

/-- Plain data are encoded as themselves. -/
theorem Plain.encode_eq (h : v.Plain) : encode v = pure v := by
  induction h with
  | scalar h => exact encode_of_isScalar h
  | list _ ih =>
    rw [encode, encodeItems_of_forall ih]
    rfl
  | map _ _ ih =>
    rw [encode, encodeEntries_of_forall ih]
    rfl

/-- The layout of a script is plain if what stands in it is. -/
theorem Plain.layout {head : ScriptHead} {params statements : Value} (ho : ∀ v ∈ head.own, v.Plain)
    (hx : ∀ v ∈ head.extensions, v.Plain) (hp : params.Plain) (hs : statements.Plain) :
    (head.layout params statements).Plain := by
  simp only [ScriptHead.own, List.forall_mem_cons] at ho
  obtain ⟨hid, htype, hxs, hys, hassemble, hcopyable, hdeletable, hemphasized, hmovable, hreadOnly, -⟩ := ho
  refine .map (List.forall_mem_map.mpr fun _ _ => rfl) (List.forall_mem_map.mpr ?_)
  simp only [List.forall_mem_cons]
  exact ⟨hid, htype, hp, hs, hxs, hys, hassemble, hcopyable, hdeletable, hemphasized, hmovable, hreadOnly, .list hx,
    List.forall_mem_nil _⟩

/-! ### Values that are alike -/

/-- What is said of two lists item by item. -/
theorem forall₂_of_zip {α β : Type} {R : α → β → Prop} {as : List α} {bs : List β} (hl : as.length = bs.length)
    (h : ∀ p ∈ as.zip bs, R p.1 p.2) : List.Forall₂ R as bs :=
  List.forall₂_iff_zip.mpr ⟨hl, fun hp => h _ hp⟩

theorem eq_of_zip {α : Type} {as bs : List α} (hl : as.length = bs.length) (h : ∀ p ∈ as.zip bs, p.1 = p.2) :
    as = bs := by
  rw [← List.forall₂_eq_eq_eq]
  exact forall₂_of_zip hl h

theorem zip_of_plain (hx : ∀ v ∈ xs, v.Plain) (hy : ∀ w ∈ ys, w.Plain) {p : Value × Value} (hp : p ∈ xs.zip ys) :
    p.1.Plain ∧ p.2.Plain :=
  ⟨hx _ (List.of_mem_zip hp).1, hy _ (List.of_mem_zip hp).2⟩

theorem Plain.of_collected (h : v.Plain) (hv : v.collected? = some xs) : v = .list xs ∧ ∀ w ∈ xs, w.Plain := by
  cases h with
  | scalar h => rw [collected?_of_isScalar h] at hv; cases hv
  | list h =>
    cases hv
    exact ⟨rfl, h⟩
  | map => cases hv

/-- Plain data that are alike are the same. -/
theorem Alike.eq_of_plain (h : v.Alike w) (hv : v.Plain) (hw : w.Plain) : v = w := by
  induction h with
  | refl => rfl
  | items hc hd hl _ ih =>
    obtain ⟨rfl, hx⟩ := hv.of_collected hc
    obtain ⟨rfl, hy⟩ := hw.of_collected hd
    rw [eq_of_zip hl fun p hp => ih p hp (zip_of_plain hx hy hp).1 (zip_of_plain hx hy hp).2]
  | @map es fs hk _ ih =>
    cases hv with
    | scalar h => cases h
    | map _ hes =>
      cases hw with
      | scalar h => cases h
      | map _ hfs =>
        have hl : es.length = fs.length := by simpa using congrArg List.length hk
        have hvalues : es.map (·.2) = fs.map (·.2) := by
          rw [← List.forall₂_eq_eq_eq, List.forall₂_map_left_iff, List.forall₂_map_right_iff]
          exact forall₂_of_zip hl fun p hp => ih p hp (hes _ (List.of_mem_zip hp).1) (hfs _ (List.of_mem_zip hp).2)
        have hentries : es = fs :=
          (List.zip_of_prod hk hvalues).trans (List.zip_of_prod (rfl : fs.map (·.1) = _) rfl).symm
        rw [hentries]
  | record =>
    cases hv with
    | scalar h => cases h

theorem Composed.of_collected (h : v.Composed) (hv : v.collected? = some xs) : ∀ w ∈ xs, w.Composed := by
  cases h with
  | scalar h => rw [collected?_of_isScalar h] at hv; cases hv
  | items hv' h =>
    rw [hv'] at hv
    cases hv
    exact h
  | _ => cases hv

theorem Composed.of_map {entries : List (Value × Value)} (h : (Value.map entries).Composed) :
    (∀ p ∈ entries, p.1.isScalar = true) ∧ ∀ p ∈ entries, p.2.Composed := by
  cases h with
  | scalar h => cases h
  | items hv => cases hv
  | map hk h => exact ⟨hk, h⟩

theorem Composed.of_script {kind : RecordKind} {fields : List Value} (h : (Value.record kind fields).Composed) :
    kind = .script ∧ ∃ (head : ScriptHead) (extensions params statements : Value),
      fields = head.own ++ [extensions, params, statements] ∧ (∀ v ∈ head.own, v.Plain) ∧
        extensions.items = .ok head.extensions ∧ (∀ v ∈ head.extensions, v.Plain) ∧ params.Composed ∧
        statements.Composed := by
  cases h with
  | scalar h => cases h
  | items hv => cases hv
  | script ho he hx hp hs => exact ⟨rfl, _, _, _, _, rfl, ho, he, hx, hp, hs⟩

theorem encodeItems_congr (h : List.Forall₂ (fun v w => encode v = encode w) xs ys) :
    encodeItems xs = encodeItems ys := by
  induction h with
  | nil => rfl
  | cons h _ ih => rw [encodeItems, encodeItems, h, ih]

theorem encodeEntries_congr {es fs : List (Value × Value)}
    (h : List.Forall₂ (fun p q => p.1 = q.1 ∧ encode p.2 = encode q.2) es fs) :
    encodeEntries es = encodeEntries fs := by
  induction h with
  | nil => rfl
  | @cons p q _ _ h _ ih =>
    obtain ⟨k, v⟩ := p
    obtain ⟨k', w⟩ := q
    obtain ⟨rfl, h⟩ := h
    rw [encodeEntries, encodeEntries, h, ih]

/-- Extensions that are alike are the same, since they are plain. -/
theorem Alike.items_eq {es fs : List Value} (h : v.Alike w) (hv : v.items = .ok es) (hw : w.items = .ok fs)
    (hes : ∀ v ∈ es, v.Plain) (hfs : ∀ v ∈ fs, v.Plain) : es = fs := by
  cases h with
  | refl =>
    rw [hv] at hw
    cases hw
    rfl
  | @items _ _ xs ys hc hd hl h =>
    have hx : v.items = .ok xs := by cases v <;> cases hc <;> rfl
    have hy : w.items = .ok ys := by cases w <;> cases hd <;> rfl
    rw [hx] at hv
    rw [hy] at hw
    cases hv
    cases hw
    exact eq_of_zip hl fun p hp => (h p hp).eq_of_plain (zip_of_plain hes hfs hp).1 (zip_of_plain hes hfs hp).2
  | map hk =>
    cases hv
    cases hw
    exact hk
  | record => cases hv

/-- Composed values that are alike have the same encoding. -/
theorem Alike.encode_eq (h : v.Alike w) (hv : v.Composed) (hw : w.Composed) : encode v = encode w := by
  induction h with
  | refl => rfl
  | items hc hd hl _ ih =>
    have hx := hv.of_collected hc
    have hy := hw.of_collected hd
    rw [encode_of_collected hc, encode_of_collected hd, encodeItems_congr (forall₂_of_zip hl fun p hp =>
      ih p hp (hx _ (List.of_mem_zip hp).1) (hy _ (List.of_mem_zip hp).2))]
  | @map es fs hk _ ih =>
    have hx := hv.of_map.2
    have hy := hw.of_map.2
    have hl : es.length = fs.length := by simpa using congrArg List.length hk
    have hkeys : List.Forall₂ (fun p q : Value × Value => p.1 = q.1) es fs := by
      rw [← List.forall₂_eq_eq_eq, List.forall₂_map_left_iff, List.forall₂_map_right_iff] at hk
      exact hk
    have hentries : List.Forall₂ (fun p q : Value × Value => p.1 = q.1 ∧ encode p.2 = encode q.2) es fs :=
      forall₂_of_zip hl fun p hp => ⟨(List.forall₂_iff_zip.mp hkeys).2 hp,
        ih p hp (hx _ (List.of_mem_zip hp).1) (hy _ (List.of_mem_zip hp).2)⟩
    rw [encode, encode, encodeEntries_congr hentries]
  | record hl h ih =>
    obtain ⟨rfl, head, _, _, _, rfl, ho, he, hx, hp, hs⟩ := hv.of_script
    obtain ⟨-, head', _, _, _, rfl, ho', he', hx', hp', hs'⟩ := hw.of_script
    rw [List.zip_append (show head.own.length = head'.own.length from rfl)] at h ih
    simp only [List.mem_append, or_imp, forall_and] at h ih
    obtain ⟨hown, hrest⟩ := h
    have hsame : head.own = head'.own := eq_of_zip rfl fun p hp =>
      (hown p hp).eq_of_plain (zip_of_plain ho ho' hp).1 (zip_of_plain ho ho' hp).2
    have hextensions := Alike.items_eq (hrest _ List.mem_cons_self) he he' hx hx'
    have hhead := ScriptHead.eq_of_own hsame hextensions
    have hparams := ih.2 _ (List.mem_cons_of_mem _ List.mem_cons_self) hp hp'
    have hstatements := ih.2 _ (List.mem_cons_of_mem _ (List.mem_cons_of_mem _ List.mem_cons_self)) hs hs'
    rw [encode_script he, encode_script he', hhead, hparams, hstatements]

end Value

end SceneTree
