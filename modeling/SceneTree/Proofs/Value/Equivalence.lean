import SceneTree.Proofs.Sameness

/-!
# Equality is an equivalence

Values are compared across kinds: numbers by what they amount to, lists with slots, maps in any order. Being the same
entry of a collection is transitive all the same, and symmetric for values in which no map has a key twice, as no map
that was put together entry by entry has.
-/

namespace SceneTree

/-- The power of two that a quotient is scaled by is not zero. -/
theorem Binary64.scaled_ne_zero (num : Nat) {den : Nat} (exponent : Int) (h : den ≠ 0) :
    (scaled num den exponent).2 ≠ 0 := by
  unfold scaled
  simp only
  split
  · exact h
  · exact Nat.mul_ne_zero h (Nat.pos_iff_ne_zero.mp (Nat.pow_pos (by decide)))

/-- Of two lists of one length, everything in the second is related to something in the first, if everything in the
first is related to something in the second and no two to the same. -/
theorem exists_related_of_apart {α β : Type} {R : α → β → Prop} : {xs : List α} → {ys : List β} →
    xs.length = ys.length → (∀ x ∈ xs, ∃ y ∈ ys, R x y) → xs.Pairwise (fun a b => ∀ y, R a y → ¬ R b y) →
    ∀ y ∈ ys, ∃ x ∈ xs, R x y
  | [], ys, hlength, _, _, y, hy => by
    rw [List.length_nil, eq_comm, List.length_eq_zero_iff] at hlength
    rw [hlength] at hy
    exact absurd hy List.not_mem_nil
  | x :: rest, ys, hlength, hall, hapart, y, hy => by
    obtain ⟨y₀, hy₀, hx⟩ := hall x List.mem_cons_self
    obtain ⟨before, behind, rfl⟩ := List.append_of_mem hy₀
    obtain ⟨hfirst, hrest⟩ := List.pairwise_cons.mp hapart
    -- The rest is related to what remains without the partner of the first.
    have hothers : ∀ x' ∈ rest, ∃ y' ∈ before ++ behind, R x' y' := by
      intro x' hx'
      obtain ⟨y', hy', hr⟩ := hall x' (List.mem_cons_of_mem _ hx')
      have hne : y' ≠ y₀ := by
        rintro rfl
        exact hfirst x' hx' _ hx hr
      simp only [List.mem_append, List.mem_cons, hne, false_or] at hy'
      exact ⟨y', List.mem_append.mpr hy', hr⟩
    have hlength' : rest.length = (before ++ behind).length := by
      simp only [List.length_cons, List.length_append] at hlength ⊢
      omega
    by_cases hyy : y = y₀
    · exact ⟨x, List.mem_cons_self, hyy ▸ hx⟩
    · simp only [List.mem_append, List.mem_cons, hyy, false_or] at hy
      obtain ⟨x', hx', hr⟩ := exists_related_of_apart hlength' hothers hrest y (List.mem_append.mpr hy)
      exact ⟨x', List.mem_cons_of_mem _ hx', hr⟩

/-- No key comes twice. -/
def Entries.Distinct (entries : Entries) : Prop := entries.Pairwise fun p q => p.1.same q.1 = false

namespace Value

/-- What a number amounts to: an infinity with its sign, or a rational number. -/
inductive Amount where
  | infinite (negative : Bool)
  | finite (q : Rat)

/-- The amount of a number of the format. -/
def amountOf : Binary64 → Amount
  | .infinite negative => .infinite negative
  | .finite negative mantissa exponent =>
    let s := Binary64.scaled mantissa 1 (-exponent)
    .finite (mkRat (if negative then -(s.1 : Int) else s.1) s.2)

/-- The amount of a value that is a number or a truth value. -/
def amount? : Value → Option Amount
  | .bool b => some (.finite (mkRat (if b then 1 else 0) 1))
  | .int n => some (.finite (mkRat n 1))
  | .float x => some (amountOf x)
  | _ => none

theorem equalsInt_iff (x : Binary64) (n : Int) : x.equalsInt n = true ↔ amountOf x = .finite (mkRat n 1) := by
  cases x with
  | infinite negative => simp [Binary64.equalsInt, Binary64.toRatio?, amountOf]
  | finite negative mantissa exponent =>
    have hs := Binary64.scaled_ne_zero mantissa (-exponent) Nat.one_ne_zero
    simp only [Binary64.equalsInt, Binary64.toRatio?, amountOf, beq_iff_eq, Amount.finite.injEq,
      Rat.mkRat_eq_iff hs Nat.one_ne_zero]
    omega

theorem equals_iff (x y : Binary64) : x.equals y = true ↔ amountOf x = amountOf y := by
  cases x with
  | infinite negative =>
    cases y with
    | infinite negative' => simp [Binary64.equals, amountOf]
    | finite => simp [Binary64.equals, Binary64.toRatio?, amountOf]
  | finite negative mantissa exponent =>
    cases y with
    | infinite negative' => simp [Binary64.equals, Binary64.toRatio?, amountOf]
    | finite negative' mantissa' exponent' =>
      have hs := Binary64.scaled_ne_zero mantissa (-exponent) Nat.one_ne_zero
      have hs' := Binary64.scaled_ne_zero mantissa' (-exponent') Nat.one_ne_zero
      simp only [Binary64.equals, Binary64.toRatio?, amountOf, beq_iff_eq, Amount.finite.injEq,
        Rat.mkRat_eq_iff hs hs']

/-- Integers are equal when they are as rational numbers. -/
theorem mkRat_one_eq_iff (m n : Int) : mkRat m 1 = mkRat n 1 ↔ m = n := by
  rw [Rat.mkRat_eq_iff Nat.one_ne_zero Nat.one_ne_zero]
  omega

theorem sameInt_iff (n : Int) (w : Value) :
    sameNumber.sameInt n w = true ↔ w.amount? = some (.finite (mkRat n 1)) := by
  cases w with
  | bool b =>
    simp only [sameNumber.sameInt, amount?, beq_iff_eq, Option.some_inj, Amount.finite.injEq, mkRat_one_eq_iff]
    exact eq_comm
  | int m =>
    simp only [sameNumber.sameInt, amount?, beq_iff_eq, Option.some_inj, Amount.finite.injEq, mkRat_one_eq_iff]
    exact eq_comm
  | float x => simp only [sameNumber.sameInt, amount?, equalsInt_iff, Option.some_inj]
  | _ => simp [sameNumber.sameInt, amount?]

/-- Numbers of any kinds are the same when they amount to the same. -/
theorem sameNumber_iff (v w : Value) : sameNumber v w = true ↔ ∃ a, v.amount? = some a ∧ w.amount? = some a := by
  cases v with
  | bool b => simp only [sameNumber, sameInt_iff, amount?, Option.some_inj, exists_eq_left']
  | int n => simp only [sameNumber, sameInt_iff, amount?, Option.some_inj, exists_eq_left']
  | float x =>
    cases w with
    | bool b => simp only [sameNumber, equalsInt_iff, amount?, Option.some_inj, exists_eq_right']
    | int n => simp only [sameNumber, equalsInt_iff, amount?, Option.some_inj, exists_eq_right']
    | float y => simp only [sameNumber, equals_iff, amount?, Option.some_inj, exists_eq_right']
    | _ => simp [sameNumber, amount?]
  | _ => simp [sameNumber, amount?]

/-- The items of a list or a slot. -/
def sequence? : Value → Option (List Value)
  | .list items | .slot items => some items
  | _ => none

/-- A list or a slot is the same as what has the same items. -/
theorem same_sequence_iff {v w : Value} {xs : List Value} (h : v.sequence? = some xs) :
    v.same w = true ↔ ∃ ys, w.sequence? = some ys ∧ sameItems xs ys = true := by
  cases v <;> cases h <;> cases w <;> simp [same, sameNumber, sequence?]

theorem same_tuple_iff {xs : List Value} {w : Value} :
    (Value.tuple xs).same w = true ↔ ∃ ys, w = .tuple ys ∧ sameItems xs ys = true := by
  cases w <;> simp [same, sameNumber]

theorem same_map_iff {xs : List (Value × Value)} {w : Value} :
    (Value.map xs).same w = true ↔ ∃ ys, w = .map ys ∧ xs.length = ys.length ∧ sameEntries xs ys = true := by
  cases w <;> simp [same, sameNumber]

theorem same_record_iff {kind : RecordKind} {xs : List Value} {w : Value} :
    (Value.record kind xs).same w = true ↔ ∃ ys, w = .record kind ys ∧ sameFields kind xs ys = true := by
  cases w with
  | record kind' ys =>
    simp only [same, Bool.and_eq_true, beq_iff_eq, record.injEq]
    constructor
    · rintro ⟨rfl, h⟩
      exact ⟨ys, ⟨rfl, rfl⟩, h⟩
    · rintro ⟨_, ⟨rfl, rfl⟩, h⟩
      exact ⟨rfl, h⟩
  | _ => simp [same, sameNumber]

/-- A number is the same as what amounts to the same. -/
theorem same_iff_of_amount {v w : Value} {a : Amount} (h : v.amount? = some a) :
    v.same w = true ↔ w.amount? = some a := by
  have hnumber : v.same w = sameNumber v w := by
    cases v <;> cases h <;> cases w <;> simp [same]
  rw [hnumber, sameNumber_iff, h]
  simp only [Option.some_inj, exists_eq_left']

/-- Null, texts, what is no number and lookups. -/
def isAtom : Value → Bool
  | .null | .str _ | .notANumber _ | .lookup .. => true
  | _ => false

/-- What is the same as null, a text, something that is no number or a lookup can stand in for it. -/
theorem same_congr_of_isAtom {v w : Value} (h : v.isAtom = true) (hvw : v.same w = true) (u : Value) :
    u.same v = u.same w ∧ v.same u = w.same u := by
  cases v with
  | null =>
    obtain rfl : w = .null := by cases w <;> simp [same, sameNumber] at hvw ⊢
    exact ⟨rfl, rfl⟩
  | str s =>
    obtain rfl : w = .str s := by cases w <;> simp [same, sameNumber] at hvw ⊢; exact hvw.symm
    exact ⟨rfl, rfl⟩
  | notANumber label =>
    obtain rfl : w = .notANumber label := by cases w <;> simp [same, sameNumber] at hvw ⊢; exact hvw.symm
    exact ⟨rfl, rfl⟩
  | lookup origin key =>
    -- Lookups are told apart by where they come from, whatever they look up.
    cases w <;> simp [same, sameNumber] at hvw
    subst hvw
    cases u <;> simp [same, sameNumber, sameNumber.sameInt]
  | _ => cases h

/-- Every entry of a map is the same as one of another map. -/
theorem sameEntries_iff {xs ys : List (Value × Value)} :
    sameEntries xs ys = true ↔ ∀ p ∈ xs, ∃ q ∈ ys, p.1.same q.1 = true ∧ p.2.same q.2 = true := by
  induction xs with
  | nil => simp [sameEntries]
  | cons p rest ih =>
    rw [sameEntries, Bool.and_eq_true, ih, List.any_eq_true, List.forall_mem_cons]
    simp only [Bool.and_eq_true]

/-- Fields that are the same are as many. -/
theorem isEmpty_of_sameFields {kind : RecordKind} {xs ys : List Value} (h : sameFields kind xs ys = true) :
    xs.isEmpty = ys.isEmpty := by
  cases xs <;> cases ys <;> simp [sameFields] at h ⊢

mutual

/-- What is the same as something that is the same as a third value is the same as that. -/
theorem same_trans : (v : Value) → ∀ {w u : Value}, v.same w = true → w.same u = true → v.same u = true
  | .null, _, u, hvw, hwu => ((same_congr_of_isAtom rfl hvw u).2).trans hwu
  | .str _, _, u, hvw, hwu => ((same_congr_of_isAtom rfl hvw u).2).trans hwu
  | .notANumber _, _, u, hvw, hwu => ((same_congr_of_isAtom rfl hvw u).2).trans hwu
  | .lookup .., _, u, hvw, hwu => ((same_congr_of_isAtom rfl hvw u).2).trans hwu
  | .bool b, w, u, hvw, hwu => by
    rw [same_iff_of_amount rfl] at hvw ⊢
    exact (same_iff_of_amount hvw).mp hwu
  | .int n, w, u, hvw, hwu => by
    rw [same_iff_of_amount rfl] at hvw ⊢
    exact (same_iff_of_amount hvw).mp hwu
  | .float x, w, u, hvw, hwu => by
    rw [same_iff_of_amount rfl] at hvw ⊢
    exact (same_iff_of_amount hvw).mp hwu
  | .list xs, w, u, hvw, hwu => by
    rw [same_sequence_iff rfl] at hvw ⊢
    obtain ⟨ys, hw, hxy⟩ := hvw
    obtain ⟨zs, hu, hyz⟩ := (same_sequence_iff hw).mp hwu
    exact ⟨zs, hu, sameItems_trans xs hxy hyz⟩
  | .slot xs, w, u, hvw, hwu => by
    rw [same_sequence_iff rfl] at hvw ⊢
    obtain ⟨ys, hw, hxy⟩ := hvw
    obtain ⟨zs, hu, hyz⟩ := (same_sequence_iff hw).mp hwu
    exact ⟨zs, hu, sameItems_trans xs hxy hyz⟩
  | .tuple xs, w, u, hvw, hwu => by
    rw [same_tuple_iff] at hvw ⊢
    obtain ⟨ys, rfl, hxy⟩ := hvw
    obtain ⟨zs, rfl, hyz⟩ := same_tuple_iff.mp hwu
    exact ⟨zs, rfl, sameItems_trans xs hxy hyz⟩
  | .map xs, w, u, hvw, hwu => by
    rw [same_map_iff] at hvw ⊢
    obtain ⟨ys, rfl, hlength, hxy⟩ := hvw
    obtain ⟨zs, rfl, hlength', hyz⟩ := same_map_iff.mp hwu
    refine ⟨zs, rfl, hlength.trans hlength', sameEntries_iff.mpr fun p hp => ?_⟩
    obtain ⟨q, hq, hkey, hvalue⟩ := sameEntries_iff.mp hxy p hp
    obtain ⟨r, hr, hkey', hvalue'⟩ := sameEntries_iff.mp hyz q hq
    obtain ⟨htrans, htrans'⟩ := sameEntries_trans xs p hp
    exact ⟨r, hr, htrans hkey hkey', htrans' hvalue hvalue'⟩
  | .record kind xs, w, u, hvw, hwu => by
    rw [same_record_iff] at hvw ⊢
    obtain ⟨ys, rfl, hxy⟩ := hvw
    obtain ⟨zs, rfl, hyz⟩ := same_record_iff.mp hwu
    exact ⟨zs, rfl, sameFields_trans kind xs hxy hyz⟩

theorem sameItems_trans : (xs : List Value) → ∀ {ys zs : List Value}, sameItems xs ys = true →
    sameItems ys zs = true → sameItems xs zs = true
  | [], [], [], _, _ => by rw [sameItems]
  | [], [], _ :: _, _, h | [], _ :: _, _, h, _ | _ :: _, [], _, h, _ | _ :: _, _ :: _, [], _, h => by
    simp [sameItems] at h
  | x :: xs, y :: ys, z :: zs, hxy, hyz => by
    rw [sameItems, Bool.and_eq_true] at hxy hyz ⊢
    exact ⟨same_trans x hxy.1 hyz.1, sameItems_trans xs hxy.2 hyz.2⟩

theorem sameFields_trans (kind : RecordKind) : (xs : List Value) → ∀ {ys zs : List Value},
    sameFields kind xs ys = true → sameFields kind ys zs = true → sameFields kind xs zs = true
  | [], [], [], _, _ => by rw [sameFields]
  | [], [], _ :: _, _, h | [], _ :: _, _, h, _ | _ :: _, [], _, h, _ | _ :: _, _ :: _, [], _, h => by
    simp [sameFields] at h
  | x :: xs, y :: ys, z :: zs, hxy, hyz => by
    rw [sameFields, Bool.and_eq_true, Bool.or_eq_true] at hxy hyz ⊢
    obtain ⟨hx, hxs⟩ := hxy
    obtain ⟨hy, hys⟩ := hyz
    refine ⟨?_, sameFields_trans kind xs hxs hys⟩
    rcases hx with hx | hx
    · exact .inl hx
    · rcases hy with hy | hy
      · rw [isEmpty_of_sameFields hxs]
        exact .inl hy
      · exact .inr (same_trans x hx hy)

theorem sameEntries_trans : (xs : List (Value × Value)) → ∀ p ∈ xs,
    (∀ {w u : Value}, p.1.same w = true → w.same u = true → p.1.same u = true) ∧
      ∀ {w u : Value}, p.2.same w = true → w.same u = true → p.2.same u = true
  | (k, v) :: rest, p, hp => by
    rcases List.mem_cons.mp hp with rfl | hp
    · exact ⟨same_trans k, same_trans v⟩
    · exact sameEntries_trans rest p hp

end

mutual

/-- No map in a value has a key twice. What a lookup chooses from does not count. -/
def Keyed : Value → Prop
  | .list xs | .tuple xs | .slot xs | .record _ xs => AllKeyed xs
  | .map entries => Entries.Distinct entries ∧ EntriesKeyed entries
  | _ => True

def AllKeyed : List Value → Prop
  | [] => True
  | v :: rest => v.Keyed ∧ AllKeyed rest

def EntriesKeyed : List (Value × Value) → Prop
  | [] => True
  | (k, v) :: rest => k.Keyed ∧ v.Keyed ∧ EntriesKeyed rest

end

mutual

/-- What a value without repeated keys is the same as is the same as it. -/
theorem same_symm : (v : Value) → v.Keyed → ∀ {w : Value}, v.same w = true → w.same v = true
  | .null, _, w, h => ((same_congr_of_isAtom rfl h w).1).trans (same_self w)
  | .str _, _, w, h => ((same_congr_of_isAtom rfl h w).1).trans (same_self w)
  | .notANumber _, _, w, h => ((same_congr_of_isAtom rfl h w).1).trans (same_self w)
  | .lookup .., _, w, h => ((same_congr_of_isAtom rfl h w).1).trans (same_self w)
  | .bool b, _, w, h => by
    rw [same_iff_of_amount rfl] at h
    exact (same_iff_of_amount h).mpr rfl
  | .int n, _, w, h => by
    rw [same_iff_of_amount rfl] at h
    exact (same_iff_of_amount h).mpr rfl
  | .float x, _, w, h => by
    rw [same_iff_of_amount rfl] at h
    exact (same_iff_of_amount h).mpr rfl
  | .list xs, hv, w, h => by
    rw [Keyed] at hv
    obtain ⟨ys, hw, hxy⟩ := (same_sequence_iff rfl).mp h
    exact (same_sequence_iff hw).mpr ⟨xs, rfl, sameItems_symm xs hv hxy⟩
  | .slot xs, hv, w, h => by
    rw [Keyed] at hv
    obtain ⟨ys, hw, hxy⟩ := (same_sequence_iff rfl).mp h
    exact (same_sequence_iff hw).mpr ⟨xs, rfl, sameItems_symm xs hv hxy⟩
  | .tuple xs, hv, w, h => by
    rw [Keyed] at hv
    obtain ⟨ys, rfl, hxy⟩ := same_tuple_iff.mp h
    exact same_tuple_iff.mpr ⟨xs, rfl, sameItems_symm xs hv hxy⟩
  | .map xs, hv, w, h => by
    rw [Keyed] at hv
    obtain ⟨hdistinct, hkeyed⟩ := hv
    obtain ⟨ys, rfl, hlength, hxy⟩ := same_map_iff.mp h
    -- Two entries that are the same as one entry have the same key, which no map has twice.
    have hapart : xs.Pairwise fun p q => ∀ r : Value × Value,
        (p.1.same r.1 = true ∧ p.2.same r.2 = true) → ¬ (q.1.same r.1 = true ∧ q.2.same r.2 = true) := by
      refine hdistinct.imp_of_mem fun {p q} _ hq hne r hp hq' => ?_
      have hback := (sameEntries_symm xs hkeyed q hq).1 hq'.1
      rw [same_trans _ hp.1 hback] at hne
      cases hne
    refine same_map_iff.mpr ⟨xs, rfl, hlength.symm, sameEntries_iff.mpr fun r hr => ?_⟩
    obtain ⟨p, hp, hkey, hvalue⟩ := exists_related_of_apart hlength (sameEntries_iff.mp hxy) hapart r hr
    obtain ⟨hsymm, hsymm'⟩ := sameEntries_symm xs hkeyed p hp
    exact ⟨p, hp, hsymm hkey, hsymm' hvalue⟩
  | .record kind xs, hv, w, h => by
    rw [Keyed] at hv
    obtain ⟨ys, rfl, hxy⟩ := same_record_iff.mp h
    exact same_record_iff.mpr ⟨xs, rfl, sameFields_symm kind xs hv hxy⟩

theorem sameItems_symm : (xs : List Value) → AllKeyed xs → ∀ {ys : List Value}, sameItems xs ys = true →
    sameItems ys xs = true
  | [], _, [], _ => by rw [sameItems]
  | [], _, _ :: _, h | _ :: _, _, [], h => by simp [sameItems] at h
  | x :: xs, hv, y :: ys, h => by
    rw [AllKeyed] at hv
    rw [sameItems, Bool.and_eq_true] at h ⊢
    exact ⟨same_symm x hv.1 h.1, sameItems_symm xs hv.2 h.2⟩

theorem sameFields_symm (kind : RecordKind) : (xs : List Value) → AllKeyed xs → ∀ {ys : List Value},
    sameFields kind xs ys = true → sameFields kind ys xs = true
  | [], _, [], _ => by rw [sameFields]
  | [], _, _ :: _, h | _ :: _, _, [], h => by simp [sameFields] at h
  | x :: xs, hv, y :: ys, h => by
    rw [AllKeyed] at hv
    rw [sameFields, Bool.and_eq_true, Bool.or_eq_true] at h ⊢
    obtain ⟨hx, hxs⟩ := h
    refine ⟨hx.imp (fun h => ?_) (same_symm x hv.1), sameFields_symm kind xs hv.2 hxs⟩
    rwa [← isEmpty_of_sameFields hxs]

theorem sameEntries_symm : (xs : List (Value × Value)) → EntriesKeyed xs → ∀ p ∈ xs,
    (∀ {w : Value}, p.1.same w = true → w.same p.1 = true) ∧ ∀ {w : Value}, p.2.same w = true → w.same p.2 = true
  | (k, v) :: rest, hv, p, hp => by
    rw [EntriesKeyed] at hv
    rcases List.mem_cons.mp hp with rfl | hp
    · exact ⟨same_symm k hv.1, same_symm v hv.2.1⟩
    · exact sameEntries_symm rest hv.2.2 p hp

end

/-- Values are the same when they are the same as a third one. -/
theorem same_of_same_of_same {v w u : Value} (hw : w.Keyed) (hvu : v.same u = true) (hwu : w.same u = true) :
    v.same w = true :=
  same_trans v hvu (same_symm w hw hwu)

end Value

end SceneTree
