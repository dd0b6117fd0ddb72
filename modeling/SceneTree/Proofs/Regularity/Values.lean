import Mathlib
import SceneTree.Proofs.Containment.Data

/-!
# Regular values

The values that markup can write: numbers are numbers of the format or integers of not too many digits, and the keys of
a map are texts, no two of them the same. JSON has all of these, and what is computed from them is regular again.
-/

namespace SceneTree

namespace Binary64

/-- The exponent of a finite number is one of the format or greater. -/
def Bounded : Binary64 → Prop
  | .infinite _ => True
  | .finite _ _ exponent => leastExponent ≤ exponent

theorem leastExponent_le_exponentOf (num den : Nat) : leastExponent ≤ exponentOf num den := by
  rw [exponentOf]
  have hguess : leastExponent ≤ max leastExponent ((Nat.log2 num : Int) - Nat.log2 den - 53) := Int.le_max_left _ _
  split <;> omega

theorem bounded_ofMantissa (negative : Bool) (mantissa : Nat) {exponent : Int} (h : leastExponent ≤ exponent) :
    (ofMantissa negative mantissa exponent).Bounded := by
  have hnext : leastExponent ≤ exponent + 1 := Int.le_add_one h
  rw [ofMantissa]
  split
  · split
    · trivial
    · exact hnext
  · split
    · trivial
    · exact h

theorem bounded_ofRatio (negative : Bool) (num den : Nat) : (ofRatio negative num den).Bounded := by
  rw [ofRatio]
  split
  · exact Int.le_refl _
  · exact bounded_ofMantissa negative _ (leastExponent_le_exponentOf num den)

theorem bounded_ofDecimal (negative : Bool) (digits : Nat) (exponent : Int) :
    (ofDecimal negative digits exponent).Bounded := by
  rw [ofDecimal]
  split <;> exact bounded_ofRatio ..

theorem Bounded.half {x : Binary64} (h : x.Bounded) : x.half.Bounded := by
  cases x with
  | infinite => exact h
  | finite => exact bounded_ofRatio ..

theorem bounded_ofQuotient? {n : Int} {den : Nat} {x : Binary64} (h : ofQuotient? n den = some x) : x.Bounded := by
  rw [ofQuotient?] at h
  split at h
  · cases h
  · cases h
    exact bounded_ofRatio ..

end Binary64

namespace Numeral

theorem bounded_ofScientific (negative : Bool) (digits : List Char) (exponent : Int) :
    (ofScientific negative digits exponent).Bounded := by
  rw [ofScientific]
  split
  · exact Int.le_refl _
  · split
    · trivial
    · exact Binary64.bounded_ofDecimal ..

/-- A decimal numeral denotes a number of the format. -/
theorem bounded_of_readDecimal? {text : List Char} {x : Binary64} (h : readDecimal? text = some (.number x)) :
    x.Bounded := by
  have hunsigned {negative : Bool} {text : List Char} {x : Binary64} (h : readUnsigned? negative text = some x) :
      x.Bounded := by
    rw [readUnsigned?] at h
    split at h
    all_goals
      split at h
      · cases h
      · obtain ⟨exponent, -, rfl⟩ := Option.map_eq_some_iff.mp h
        exact bounded_ofScientific ..
  rw [readDecimal?] at h
  simp only at h
  split at h
  · cases h
  · split at h
    · cases h
      trivial
    · split at h
      · cases h
      · obtain ⟨x', hx, h⟩ := Option.map_eq_some_iff.mp h
        cases h
        exact hunsigned hx

theorem ofDigits_append (digits : List Char) (c : Char) :
    ofDigits (digits ++ [c]) = 10 * ofDigits digits + (c.toNat - 48) := by
  simp [ofDigits]

/-- So many digits write a number below that power of ten. -/
theorem ofDigits_lt {digits : List Char} (h : ∀ c ∈ digits, isAsciiDigit c = true) :
    ofDigits digits < 10 ^ digits.length := by
  induction digits using List.reverseRecOn with
  | nil => decide
  | append_singleton digits c ih =>
    obtain ⟨hdigits, hc⟩ := List.forall_mem_append.mp h
    have hlt := ih hdigits
    have hc : c.toNat ≤ 57 := by
      have := hc c (List.mem_singleton_self c)
      simp only [isAsciiDigit, Bool.and_eq_true, decide_eq_true_eq] at this
      exact this.2
    rw [ofDigits_append, List.length_append, List.length_singleton, Nat.pow_succ]
    omega

/-- An integer can be written if it lies below the first one with too many digits. -/
theorem isShortInteger_iff {n : Int} : JsonText.isShortInteger n = true ↔ n.natAbs < 10 ^ digitLimit := by
  unfold JsonText.isShortInteger
  generalize digitLimit = limit
  exact decide_eq_true_iff

/-- An integer that was read can be written. -/
theorem isShortInteger_of_readInteger {text : List Char} {n : Int} (h : readInteger text = .ok n) :
    JsonText.isShortInteger n = true := by
  rw [readInteger] at h
  simp only at h
  split at h
  · cases h
  · split at h
    · cases h
    · next hfew =>
      split at h
      · cases h
      · have hle := Nat.pow_le_pow_right (n := 10) (by decide) (Nat.le_of_not_lt hfew)
        have hlt := Nat.lt_of_lt_of_le (ofDigits_lt fun c hc => (List.mem_filter.mp hc).2) hle
        rw [← Except.ok.inj h, isShortInteger_iff]
        split
        · rw [Int.natAbs_neg, Int.natAbs_natCast]
          exact hlt
        · rw [Int.natAbs_natCast]
          exact hlt

end Numeral

namespace Value

/-- The values that markup can write. -/
inductive Regular : Value → Prop where
  | null : Regular .null
  | bool (b : Bool) : Regular (.bool b)
  | int {n : Int} (h : JsonText.isShortInteger n = true) : Regular (.int n)
  | float {x : Binary64} (h : x.Bounded) : Regular (.float x)
  | str (s : String) : Regular (.str s)
  | list {items : List Value} (h : ∀ v ∈ items, Regular v) : Regular (.list items)
  | object {entries : List (String × Value)} (hd : (entries.map (·.1)).Nodup) (h : ∀ p ∈ entries, Regular p.2) :
      Regular (.object entries)

/-- JSON has every regular value. -/
theorem Regular.isJson {v : Value} (h : v.Regular) : v.isJson = true := by
  induction h with
  | null | bool | float | str => rfl
  | int h => exact h
  | list _ ih => exact isJson_list.mpr ih
  | object _ _ ih => exact isJson_object.mpr ih

/-- A list of what is made of some things is regular if it all is. -/
theorem Regular.list_map {α : Type} {f : α → Value} {as : List α} (h : ∀ a ∈ as, (f a).Regular) :
    (Value.list (as.map f)).Regular :=
  .list fun v hv => by
    obtain ⟨a, ha, rfl⟩ := List.mem_map.mp hv
    exact h a ha

/-- A regular map has texts as keys. -/
theorem Regular.exists_object {entries : Entries} (h : (Value.map entries).Regular) :
    ∃ pairs : List (String × Value), entries = pairs.map (fun (key, v) => (.str key, v)) ∧ (pairs.map (·.1)).Nodup ∧
      ∀ p ∈ pairs, p.2.Regular := by
  generalize hv : Value.map entries = v at h
  cases h with
  | object hd h =>
    cases hv
    exact ⟨_, rfl, hd, h⟩
  | _ => cases hv

/-- A map that gives values to texts is regular if no text comes twice and the values are regular. -/
theorem regular_object_iff {entries : List (String × Value)} :
    (Value.object entries).Regular ↔ (entries.map (·.1)).Nodup ∧ ∀ p ∈ entries, p.2.Regular := by
  constructor
  · intro h
    obtain ⟨pairs, he, hd, hpairs⟩ := h.exists_object
    have hinj : Function.Injective fun p : String × Value => (Value.str p.1, p.2) := by
      rintro ⟨key, v⟩ ⟨key', v'⟩ he
      cases he
      rfl
    obtain rfl := hinj.list_map he
    exact ⟨hd, hpairs⟩
  · rintro ⟨hd, h⟩
    exact .object hd h

/-- What a regular map gives to its first key is regular. -/
theorem Regular.head {key : String} {v : Value} {rest : List (String × Value)}
    (h : (Value.object ((key, v) :: rest)).Regular) : v.Regular := (regular_object_iff.mp h).2 _ List.mem_cons_self

/-- A regular map from texts stays regular when entries are left out. -/
theorem Regular.sublist {entries entries' : List (String × Value)} (h : (Value.object entries).Regular)
    (hs : entries'.Sublist entries) : (Value.object entries').Regular := by
  obtain ⟨hd, h⟩ := regular_object_iff.mp h
  exact .object (hd.sublist (hs.map _)) fun p hp => h p (hs.subset hp)

/-- A regular map stays regular when a text is given a regular value. -/
theorem Regular.put {entries : Entries} {key : String} {v : Value} (h : (Value.map entries).Regular) (hv : v.Regular) :
    (Value.map (entries.put (.str key) v)).Regular := by
  obtain ⟨pairs, rfl, hd, hpairs⟩ := h.exists_object
  -- no key comes twice, because the key that is put goes where it was or to the end
  obtain ⟨pairs', he, hmem, hd'⟩ : ∃ pairs' : List (String × Value),
      Entries.put (pairs.map fun (key, v) => (.str key, v)) (.str key) v = pairs'.map (fun (key, v) => (.str key, v)) ∧
        (∀ p ∈ pairs', p ∈ pairs ∨ p = (key, v)) ∧ (pairs'.map (·.1)).Nodup := by
    clear h hpairs
    induction pairs with
    | nil => exact ⟨[(key, v)], rfl, fun p hp => .inr (List.mem_singleton.mp hp), by simp⟩
    | cons p rest ih =>
      obtain ⟨k, w⟩ := p
      obtain ⟨hk, hrest⟩ := List.nodup_cons.mp hd
      by_cases heq : k = key
      · subst heq
        refine ⟨(k, v) :: rest, by simp [Entries.put, Value.same], fun p hp => ?_, hd⟩
        exact (List.mem_cons.mp hp).symm.imp_left (List.mem_cons_of_mem _)
      · obtain ⟨rest', he, hmem, hd'⟩ := ih hrest
        refine ⟨(k, w) :: rest', by simp [Entries.put, Value.same, heq, he], ?_, List.nodup_cons.mpr ⟨?_, hd'⟩⟩
        · intro p hp
          rcases List.mem_cons.mp hp with rfl | hp
          · exact .inl List.mem_cons_self
          · exact (hmem p hp).imp_left (List.mem_cons_of_mem _)
        · intro hmem'
          obtain ⟨p, hp, hpk⟩ := List.mem_map.mp hmem'
          rcases hmem p hp with hp | rfl
          · exact hk (List.mem_map.mpr ⟨p, hp, hpk⟩)
          · exact heq hpk.symm
  rw [he]
  refine .object hd' fun p hp => ?_
  rcases hmem p hp with hp | rfl
  · exact hpairs p hp
  · exact hv

/-- The items of a regular value are regular. -/
theorem Regular.items {v : Value} {vs : List Value} (h : v.Regular) (hi : v.items = .ok vs) : ∀ w ∈ vs, w.Regular := by
  cases h with
  | str s =>
    cases hi
    intro w hw
    obtain ⟨c, -, rfl⟩ := List.mem_map.mp hw
    exact .str _
  | list h =>
    cases hi
    exact h
  | object =>
    cases hi
    intro w hw
    obtain ⟨p, hp, rfl⟩ := List.mem_map.mp hw
    obtain ⟨q, -, rfl⟩ := List.mem_map.mp hp
    exact .str _
  | _ => cases hi

/-- The items of a regular value, as far as there are any, are regular. -/
theorem Regular.itemList {v : Value} (h : v.Regular) : ∀ w ∈ v.itemList, w.Regular := by
  unfold Value.itemList
  cases hi : v.items with
  | error fault => exact List.forall_mem_nil _
  | ok vs => exact h.items hi

/-- Half of a regular value is regular. -/
theorem Regular.half {v w : Value} (h : v.Regular) (hw : v.half = .ok w) : w.Regular := by
  have hinteger {n : Int} (hw : Value.half.halfOf n = .ok w) : w.Regular := by
    rw [half.halfOf] at hw
    split at hw
    · next hx =>
      cases hw
      exact .float (Binary64.bounded_ofQuotient? hx)
    · cases hw
  cases h with
  | bool | int => exact hinteger hw
  | float h =>
    cases hw
    exact .float h.half
  | _ => cases hw

/-- The entries of a map can be written: its keys have texts, and its values are regular. -/
def Presentable (entries : Entries) : Prop := ∀ p ∈ entries, (∃ chars, JsonText.keyText p.1 = .ok chars) ∧ p.2.Regular

theorem Regular.presentable {entries : Entries} (h : (Value.map entries).Regular) : Presentable entries := by
  obtain ⟨pairs, rfl, -, hpairs⟩ := h.exists_object
  intro p hp
  obtain ⟨q, hq, rfl⟩ := List.mem_map.mp hp
  exact ⟨⟨_, rfl⟩, hpairs q hq⟩

/-- A regular key has a text. -/
theorem Regular.keyText {k : Value} (h : k.Regular) (hk : k.isKey = true) :
    ∃ chars, JsonText.keyText k = .ok chars := by
  cases h with
  | null | bool | str | float => exact ⟨_, rfl⟩
  | @int n h =>
    refine ⟨(toString n).toList, ?_⟩
    rw [JsonText.keyText, JsonText.plain, if_pos h]
    nofun
  | list | object => cases hk

/-- A map that is given an entry with a key of a text and a regular value can be written as before. -/
theorem Presentable.put {entries : Entries} {key v : Value} (h : Presentable entries)
    (hk : ∃ chars, JsonText.keyText key = .ok chars) (hv : v.Regular) : Presentable (entries.put key v) := by
  induction entries with
  | nil =>
    intro p hp
    rw [Entries.put, List.mem_singleton] at hp
    exact hp ▸ ⟨hk, hv⟩
  | cons q rest ih =>
    obtain ⟨hq, hrest⟩ := List.forall_mem_cons.mp h
    rw [Entries.put]
    split
    · exact List.forall_mem_cons.mpr ⟨⟨hq.1, hv⟩, hrest⟩
    · exact List.forall_mem_cons.mpr ⟨hq, ih hrest⟩

/-- Any regular value that can be taken for a map can be written as one. -/
theorem Regular.toEntries {v : Value} {entries : Entries} (h : v.Regular) (he : v.toEntries = .ok entries) :
    Presentable entries := by
  have hfold {pairs : List (Value × Value)} (hpairs : ∀ p ∈ pairs, (∃ chars, JsonText.keyText p.1 = .ok chars) ∧
      p.2.Regular) : Presentable (Entries.ofPairs pairs) := by
    induction pairs using List.reverseRecOn with
    | nil => exact List.forall_mem_nil _
    | append_singleton pairs p ih =>
      obtain ⟨hpairs, hp⟩ := List.forall_mem_append.mp hpairs
      have hput : Entries.ofPairs (pairs ++ [p]) = (Entries.ofPairs pairs).put p.1 p.2 := by simp [Entries.ofPairs]
      rw [hput]
      exact (ih hpairs).put (hp p (List.mem_singleton_self p)).1 (hp p (List.mem_singleton_self p)).2
  rw [Value.toEntries.eq_def] at he
  split at he
  · cases he
    exact h.presentable
  · obtain ⟨vs, hi, he⟩ := Outcome.bind_eq_ok_iff.mp he
    obtain ⟨pairs, hpairs, he⟩ := Outcome.bind_eq_ok_iff.mp he
    cases he
    refine hfold fun p hp => ?_
    obtain ⟨w, hw, hpair⟩ := Outcome.mem_of_mapM_eq_ok hpairs p hp
    have hregular := h.items hi w hw
    rw [toPair] at hpair
    obtain ⟨us, hus, hpair⟩ := Outcome.bind_eq_ok_iff.mp hpair
    have hus := hregular.items hus
    split at hpair
    · split at hpair
      · next hkey =>
        cases hpair
        exact ⟨(hus _ (by simp)).keyText hkey, hus _ (by simp)⟩
      · cases hpair
    · cases hpair

/-- Any regular value can be written as the map that it is taken for. -/
theorem Regular.entryList {v : Value} (h : v.Regular) : Presentable v.entryList := by
  unfold Value.entryList
  cases he : v.toEntries with
  | error fault => exact List.forall_mem_nil _
  | ok entries => exact h.toEntries he

end Value

end SceneTree
